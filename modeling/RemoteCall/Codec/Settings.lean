import RemoteCall.Codec.Registry
import RemoteCall.Comparator

/-!
# Codec settings

What both peers of a connection agree on: the user classes, the comparators that may cross the
wire, and the limit on nesting.
-/

namespace RemoteCall

/-- Settings of the codec. -/
structure CodecSettings where
  registry : Registry
  comparators : ComparatorPolicy
  /-- The deepest nesting of containers, objects and type references. -/
  maxDepth : Nat

/-- Why codec settings are refused. -/
inductive CodecSettings.Problem
  | zeroDepth
  deriving DecidableEq

namespace CodecSettings

/-- No user classes, the standard comparators, and a depth of 64. -/
def standard : CodecSettings := ⟨.empty, .standard, 64⟩

/-- The wording of a refusal. -/
def Problem.message : Problem → String
  | zeroDepth => "max_depth must be greater than 0"

/-- The first problem of the settings. -/
def problem? (s : CodecSettings) : Option Problem :=
  if s.maxDepth = 0 then some .zeroDepth else none

end CodecSettings

end RemoteCall
