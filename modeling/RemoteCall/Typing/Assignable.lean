import RemoteCall.Typing.Signature
import RemoteCall.Value.Basic

/-!
# Assignability

Which values may stand where a type is asked for, which results a return type takes, and when
arguments match a signature.
-/

namespace RemoteCall

namespace TypeRef

/-- Whether a value may stand where the type is asked for. Null may stand anywhere; a set or map
may be sorted where that is not asked for; an array of any values may be any array. -/
def accepts : TypeRef → Value → Bool
  | _, .null => true
  | any, _ => true
  | scalar t, .scalar s => s.type == t
  | collection .list, .collection _ .list _ => true
  | collection .set, .collection _ .set _ => true
  | collection .set, .collection _ (.sortedSet _) _ => true
  | collection .sortedSet, .collection _ (.sortedSet _) _ => true
  | map .plain, .map _ _ _ => true
  | map .sorted, .map _ (.sorted _) _ => true
  | array element, .collection _ (.array held) _ => element == any || element == held
  | registered name, .object _ c _ => name == c
  | registered name, .variant c _ => name == c
  | _, _ => false

/-- Null may stand where any type is asked for. -/
theorem accepts_null (t : TypeRef) : t.accepts .null = true := by
  cases t <;> rfl

end TypeRef

namespace TypeSpec

/-- Whether a method may return a value where the specification is declared: a primitive type
other than no value refuses null. -/
def acceptsReturn (s : TypeSpec) (v : Value) : Bool :=
  if s.isPrimitive && s.type != .void && v.isNull then false else s.type.accepts v

end TypeSpec

namespace Signature

/-- Whether arguments match the parameters in number and type. -/
def isMatch (s : Signature) (arguments : List Value) : Bool :=
  arguments.length == s.params.length &&
    (s.params.zip arguments).all fun (param, argument) => param.type.accepts argument

end Signature

end RemoteCall
