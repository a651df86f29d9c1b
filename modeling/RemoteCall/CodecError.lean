/-!
# Causes of codec failure

Everything that can stop a value, a type or an envelope from being built, written or read. Each
constructor is one cause; `CodecError.message` gives its wording and nothing else in the library
does.
-/

namespace RemoteCall

/-- What an `invalidValue` failure was expected to be. -/
inductive Subject
  | bool | char | date | time | instant | duration | charsetName
  | comparatorId | statusOrdinal | primitiveFlags | enumOrdinal
  | collectionKind | mapKind | arrayElementType | arrayElement
  deriving DecidableEq

namespace Subject

/-- The subject as it appears in a message. -/
def text : Subject → String
  | bool => "bool"
  | char => "char"
  | date => "date"
  | time => "time"
  | instant => "instant"
  | duration => "duration"
  | charsetName => "charset name"
  | comparatorId => "comparator id"
  | statusOrdinal => "status ordinal"
  | primitiveFlags => "primitive flag set"
  | enumOrdinal => "enum ordinal"
  | collectionKind => "collection kind"
  | mapKind => "map kind"
  | arrayElementType => "array element type"
  | arrayElement => "array element"

end Subject

/-- What should have stood where another class id was read. -/
inductive Expected
  | valueClass | referencedClass | typeReference | request | response
  deriving DecidableEq

namespace Expected

/-- The expectation as it appears in a message. -/
def text : Expected → String
  | valueClass => "value class"
  | referencedClass => "class of the referenced value"
  | typeReference => "type reference"
  | request => "InvokeSpec"
  | response => "InvokeResult"

end Expected

/-- Why a class could not be registered. -/
inductive RegistryProblem
  | noVariants
  | emptyName
  | idOutOfRange (id : Nat)
  | duplicateId (id : Nat)
  | duplicateName (name : String)
  deriving DecidableEq

namespace RegistryProblem

/-- The wording of a registration problem. -/
def message : RegistryProblem → String
  | noVariants => "enum must declare at least one variant"
  | emptyName => "class name must not be empty"
  | idOutOfRange id => s!"class id {id} out of range"
  | duplicateId id => s!"duplicate class id {id}"
  | duplicateName name => s!"duplicate class name {name}"

end RegistryProblem

/-- A cause of failure of the codec, of a value constructor or of a conversion. -/
inductive CodecError
  /-- The input ends this many bytes too early. -/
  | unexpectedEnd (needed : Nat)
  /-- A varint runs over its width, or its number does not fit the type it is read as. -/
  | malformedVarint
  | invalidUtf8
  /-- A declared count could not fit into what is left of the input. -/
  | sizeOutOfBounds (size remaining : Nat)
  | trailingBytes (count : Nat)
  | depthExceeded (limit : Nat)
  | unregisteredClassId (classId : Nat)
  | unregisteredType (name : String)
  | unexpectedClass (expected : Expected) (found : Nat)
  | invalidValue (subject : Subject) (value : String)
  | fieldCount (className : String) (expected found : Nat)
  | invalidPrimitive (type : String)
  | typeMismatch (expected found : String)
  /-- A back-reference to an instance that was never written. -/
  | invalidReference (slot : Nat)
  /-- A back-reference to an instance that is still being read. -/
  | cyclicReference (slot : Nat)
  | comparatorRefused (comparator : String)
  | registry (problem : RegistryProblem)
  deriving DecidableEq

namespace CodecError

/-- The wording of a codec failure. -/
def message : CodecError → String
  | unexpectedEnd needed => s!"Unexpected end of input: needed {needed} more bytes"
  | malformedVarint => "Malformed varint"
  | invalidUtf8 => "Invalid UTF-8 in string"
  | sizeOutOfBounds size remaining =>
      s!"Declared size {size} exceeds remaining input of {remaining} bytes"
  | trailingBytes count => s!"{count} trailing bytes after envelope"
  | depthExceeded limit => s!"Nesting depth exceeds limit of {limit}"
  | unregisteredClassId classId => s!"Unregistered class id: {classId}"
  | unregisteredType name => s!"Unregistered type: {name}"
  | unexpectedClass expected found =>
      s!"Unexpected class id {found}, expected " ++ expected.text
  | invalidValue subject value => "Invalid " ++ subject.text ++ ": " ++ value
  | fieldCount className expected found =>
      s!"Class {className} declares {expected} fields, found {found}"
  | invalidPrimitive type => s!"Type {type} cannot be primitive"
  | typeMismatch expected found => s!"Expected {expected}, found {found}"
  | invalidReference slot => s!"Invalid back-reference: {slot}"
  | cyclicReference slot => s!"Back-reference {slot} points at an object still being decoded"
  | comparatorRefused comparator => s!"Comparator refused: {comparator}"
  | registry problem => "Registry error: " ++ problem.message

end CodecError

end RemoteCall
