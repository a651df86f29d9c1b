import RemoteCall.Typing.TypeRef
import RemoteCall.Text.Lowercase

/-!
# Signatures

A type specification is a type with the flag "primitive", which forbids null and is meaningful for
a few scalar types and for no value. A signature is what a method takes and gives.
-/

namespace RemoteCall

/-- A type together with the flag that forbids null. -/
structure TypeSpec where
  type : TypeRef
  /-- Whether values of the type are primitive: never null. -/
  isPrimitive : Bool
  deriving DecidableEq

namespace TypeSpec

/-- Whether the flag is on a type that may carry it. -/
def isValid (s : TypeSpec) : Bool := !s.isPrimitive || s.type.hasPrimitive

/-- The name of the type, in lower case if it is primitive. -/
def text (s : TypeSpec) : String := if s.isPrimitive then Text.lower s.type.name else s.type.name

end TypeSpec

/-- What a method takes and gives. -/
structure Signature where
  returns : TypeSpec
  params : List TypeSpec
  deriving DecidableEq

namespace Signature

/-- The parameters between parentheses, then the return type. -/
def text (s : Signature) : String :=
  "(" ++ ", ".intercalate (s.params.map TypeSpec.text) ++ ")" ++ s.returns.text

end Signature

end RemoteCall
