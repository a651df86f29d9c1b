import RemoteCall.Codec.ClassId
import RemoteCall.Codec.Scalar
import RemoteCall.Codec.Settings
import RemoteCall.Envelope.Request
import RemoteCall.Envelope.Response

/-!
# Encoding

A value is its class tag and its body. The body of a tracked container starts with a marker: zero
for an instance that is written here, or the position, counted from one, of the instance it repeats
among all that were written before. Elements of one class are written under a single tag; mixed
elements, and any with null among them, carry a tag each. The table of instances lives as long as
one envelope.

Encoding either gives the whole of the bytes or fails.
-/

namespace RemoteCall

/-- A step that writes, knowing the numbers of the instances written before it. -/
abbrev Encoder := StateT (List Nat) (Except CodecError)

namespace Encoder

/-- Goes one level deeper, if the nesting limit leaves room for it. -/
def deeper (s : CodecSettings) (room : Nat) (inner : Nat → Encoder α) : Encoder α :=
  match room with
  | 0 => throw (.depthExceeded s.maxDepth)
  | room + 1 => inner room

/-- The marker of an instance at a position of the table; positions are 32-bit words. -/
def marker (position : Nat) : List UInt8 := Varint.encode (position % UInt32.size + 1)

/-- Writes the contents of an instance at its first place, and a reference to it later on. -/
def track (instanceId : Nat) (contents : Encoder (List UInt8)) : Encoder (List UInt8) := do
  let written ← get
  match written.idxOf? instanceId with
  | some position => return marker position
  | none =>
    set (written ++ [instanceId])
    return 0 :: (← contents)

/-- The class tag of a class. -/
def classTag (classId : Nat) : List UInt8 := Varint.encode (classId + 1)

/-- The class tag of a value; null has the tag zero. -/
def valueTag (s : CodecSettings) : Value → Except CodecError (List UInt8)
  | .null => .ok (Varint.encode 0)
  | v => return classTag (← v.classId s.registry)

/-- Whether all values are of one class; the first that is not settles it. -/
def allOfClass (registry : Registry) (classId : Nat) : List Value → Except CodecError Bool
  | [] => .ok true
  | .null :: _ => .ok false
  | v :: rest => do
    if (← v.classId registry) = classId then allOfClass registry classId rest else return false

/-- The class of all values, if they share one. -/
def sharedClass (registry : Registry) : List Value → Except CodecError (Option Nat)
  | [] => .ok none
  | .null :: _ => .ok none
  | v :: rest => do
    let classId ← v.classId registry
    return if ← allOfClass registry classId rest then some classId else none

/-- The tag of a shared class, or zero for mixed elements. -/
def sharedTag (shared : Option Nat) : List UInt8 :=
  match shared with
  | some classId => classTag classId
  | none => Varint.encode 0

/-- The tag that an element carries itself. -/
def elementTag (s : CodecSettings) (shared : Option Nat) (v : Value) :
    Except CodecError (List UInt8) :=
  if shared.isSome then .ok [] else valueTag s v

/-- A comparator, if it may cross the wire. -/
def comparator (s : CodecSettings) (c : Comparator) : Except CodecError (List UInt8) := do
  s.comparators.check c
  match c with
  | .custom name => return c.wireId :: Sized.encodeText name
  | _ => return [c.wireId]

/-- A type reference. Arrays nest. -/
def typeRef (s : CodecSettings) : (room : Nat) → TypeRef → Except CodecError (List UInt8)
  | 0, _ => .error (.depthExceeded s.maxDepth)
  | _ + 1, .void => .ok (Varint.encode ClassId.void)
  | _ + 1, .any => .ok (Varint.encode ClassId.any)
  | _ + 1, .scalar t => .ok (Varint.encode t.classId)
  | _ + 1, .collection kind => .ok (Varint.encode ClassId.collection ++ [kind.tag])
  | _ + 1, .map kind => .ok (Varint.encode ClassId.map ++ [kind.tag])
  | room + 1, .array element => do
    return Varint.encode (ClassId.ofArray element) ++ (← typeRef s room element)
  | _ + 1, .registered name => return Varint.encode (← s.registry.classIdOf name)

/-- What stands before the elements of a collection. -/
def collectionHead (s : CodecSettings) (room : Nat) :
    CollectionForm → Except CodecError (List UInt8)
  | .array element => typeRef s room element
  | .list => .ok [CollectionKind.list.tag]
  | .set => .ok [CollectionKind.set.tag]
  | .sortedSet order => return CollectionKind.sortedSet.tag :: (← comparator s order)

/-- What stands before the entries of a map. -/
def mapHead (s : CodecSettings) : MapForm → Except CodecError (List UInt8)
  | .plain => .ok [MapKind.plain.tag]
  | .sorted order => return MapKind.sorted.tag :: (← comparator s order)

/-- A variant of an enum, which its class must declare. -/
def variantBody (s : CodecSettings) (room : Nat) (className : String) (ordinal : UInt32) :
    Encoder (List UInt8) := do
  let c ← s.registry.byClassId (← s.registry.classIdOf className)
  deeper s room fun _ =>
    let undeclared : CodecError :=
      .invalidValue .enumOrdinal (className ++ "#" ++ toString ordinal.toNat)
    match c.shape with
    | .enum variants =>
      if ordinal.toNat < variants.length then return Varint.encode ordinal.toNat
      else throw undeclared
    | .object _ => throw undeclared

mutual

/-- The body of a value. -/
def body (s : CodecSettings) (room : Nat) : Value → Encoder (List UInt8)
  | .null => return []
  | .scalar v => deeper s room fun _ => return v.encode
  | .variant className ordinal => variantBody s room className ordinal
  | .collection id form items =>
    let contents := deeper s room fun room => do
      let head ← collectionHead s room form
      let shared ← sharedClass s.registry items
      let tag := if items.isEmpty then [] else sharedTag shared
      return head ++ Varint.encode items.length ++ tag ++ (← elements s room shared items)
    if form.isTracked then track id contents else contents
  | .map id form pairs =>
    track id <| deeper s room fun room => do
      let head ← mapHead s form
      let keys ← sharedClass s.registry (pairs.map (·.1))
      let values ← sharedClass s.registry (pairs.map (·.2))
      let tags := if pairs.isEmpty then [] else sharedTag keys ++ sharedTag values
      return head ++ Varint.encode pairs.length ++ tags ++ (← entries s room keys values pairs)
  | .object id className fields => do
    let c ← s.registry.byClassId (← s.registry.classIdOf className)
    match c.shape with
    | .enum _ => deeper s room fun _ => throw (.unregisteredType className)
    | .object names =>
      track id <| deeper s room fun room => do
        if names.length ≠ fields.length then
          throw (.fieldCount className names.length fields.length)
        elements s room none fields

/-- Elements one after the other, each with a tag unless they share a class. -/
def elements (s : CodecSettings) (room : Nat) (shared : Option Nat) :
    List Value → Encoder (List UInt8)
  | [] => return []
  | v :: rest => do
    let tag ← elementTag s shared v
    let bytes ← body s room v
    return tag ++ bytes ++ (← elements s room shared rest)

/-- Entries one after the other, keys and values each with a tag unless they share a class. -/
def entries (s : CodecSettings) (room : Nat) (keys values : Option Nat) :
    List (Value × Value) → Encoder (List UInt8)
  | [] => return []
  | (k, v) :: rest => do
    let keyTag ← elementTag s keys k
    let keyBytes ← body s room k
    let valueTag ← elementTag s values v
    let valueBytes ← body s room v
    return keyTag ++ keyBytes ++ valueTag ++ valueBytes ++ (← entries s room keys values rest)

end

/-- A value with its class tag. -/
def value (s : CodecSettings) (room : Nat) (v : Value) : Encoder (List UInt8) := do
  let tag ← valueTag s v
  return tag ++ (← body s room v)

/-- The number whose binary digits are the flags, the lowest first. -/
def ofFlags : List Bool → Nat
  | [] => 0
  | flag :: rest => flag.toNat + 2 * ofFlags rest

/-- The primitive flags of the return type and the parameters, eight to a byte, lowest bit first,
without the bytes at the end that hold none. -/
def flagBytes (flags : List Bool) : List UInt8 :=
  let byteAt (i : Nat) : UInt8 := (ofFlags ((flags.drop (8 * i)).take 8)).toUInt8
  ((List.range ((flags.length - 1) / 8 + 1)).map byteAt).reverse.dropWhile (· == 0) |>.reverse

/-- The first type specification whose flag is on a type that cannot carry it. -/
def invalidSpec? (specs : List TypeSpec) : Option TypeSpec := specs.find? (!·.isValid)

/-- The type references of specifications. -/
def typeRefs (s : CodecSettings) (room : Nat) : List TypeSpec → Except CodecError (List UInt8)
  | [] => .ok []
  | spec :: rest => return (← typeRef s room spec.type) ++ (← typeRefs s room rest)

/-- The number of parameters, the flags, and the types with the return type first. -/
def signature (s : CodecSettings) (sig : Signature) : Except CodecError (List UInt8) := do
  let specs := sig.returns :: sig.params
  match invalidSpec? specs with
  | some spec => throw (.invalidPrimitive spec.type.name)
  | none =>
    let flags := flagBytes (specs.map (·.isPrimitive))
    return Varint.encode sig.params.length ++ Sized.encodeBytes flags ++
      (← typeRefs s s.maxDepth specs)

/-- A request envelope. -/
def request (s : CodecSettings) (r : Request) : Encoder (List UInt8) := do
  let sig ← signature s r.signature
  let arguments ← elements s s.maxDepth none r.arguments
  return classTag ClassId.request ++ Varint.encode r.id.toNat ++
    Varint.encodeSigned r.timestamp.toInt ++ Sized.encodeText r.service ++
    Sized.encodeText r.method ++ sig ++ Varint.encode r.arguments.length ++ arguments

/-- What stands before the payload of a response. -/
def responseHead (r : Response) : List UInt8 :=
  classTag ClassId.response ++ Varint.encode r.id.toNat ++
    Varint.encodeSigned r.timestamp.toInt ++ Varint.encode r.status.ordinal ++
    Sized.encodeOptionalText r.message

/-- A response envelope. -/
def response (s : CodecSettings) (r : Response) : Encoder (List UInt8) := do
  let payload ← value s s.maxDepth r.payload
  return responseHead r ++ payload

/-- Runs a writer for one envelope, with no instance written before. -/
def run (w : Encoder (List UInt8)) : Except CodecError (List UInt8) :=
  (·.1) <$> StateT.run w []

end Encoder

namespace CodecSettings

/-- The bytes of a value on its own. -/
def encodeValue (s : CodecSettings) (v : Value) : Except CodecError (List UInt8) :=
  Encoder.run (Encoder.value s s.maxDepth v)

/-- The bytes of a request. -/
def encodeRequest (s : CodecSettings) (r : Request) : Except CodecError (List UInt8) :=
  Encoder.run (Encoder.request s r)

/-- The bytes of a response. -/
def encodeResponse (s : CodecSettings) (r : Response) : Except CodecError (List UInt8) :=
  Encoder.run (Encoder.response s r)

end CodecSettings

end RemoteCall
