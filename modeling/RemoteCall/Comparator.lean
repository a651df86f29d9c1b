import RemoteCall.CodecError
import RemoteCall.Text.Quoted

/-!
# Comparators

Sorted containers carry the comparator that orders them. Four comparators are standard; any other
is known by a name only and cannot be evaluated here. A policy says which comparators may cross
the wire: a custom one only by its trusted name, a standard one only if it is allowed.
-/

namespace RemoteCall

/-- How a sorted container is ordered. -/
inductive Comparator
  /-- The natural order of the values. -/
  | natural
  /-- The natural order turned round. -/
  | reverse
  /-- Every two values are equal. -/
  | allEqual
  /-- The order of the texts of the values. -/
  | usingToString
  /-- A comparator that both peers know by name. -/
  | custom (name : String)
  deriving DecidableEq

namespace Comparator

/-- The number of a comparator on the wire; every custom one has the same. -/
def wireId : Comparator → UInt8
  | natural => 1
  | reverse => 2
  | allEqual => 3
  | usingToString => 4
  | custom _ => 100

/-- The standard comparator with a number. -/
def standard? (id : UInt8) : Option Comparator :=
  match id.toNat with
  | 1 => some natural
  | 2 => some reverse
  | 3 => some allEqual
  | 4 => some usingToString
  | _ => none

/-- The name of a comparator in a refusal. -/
def text : Comparator → String
  | natural => "Natural"
  | reverse => "Reverse"
  | allEqual => "AllEqual"
  | usingToString => "UsingToString"
  | custom name => "Custom(" ++ Text.quoted name ++ ")"

end Comparator

/-- Which comparators may be written and read. -/
structure ComparatorPolicy where
  /-- The standard comparators that are accepted. -/
  allowed : List Comparator
  /-- The names of the custom comparators that are accepted. -/
  trusted : List String
  deriving DecidableEq

namespace ComparatorPolicy

/-- All standard comparators and no custom one. -/
def standard : ComparatorPolicy := ⟨[.natural, .reverse, .allEqual, .usingToString], []⟩

/-- Whether a comparator may cross the wire. -/
def permits (p : ComparatorPolicy) : Comparator → Bool
  | .custom name => p.trusted.contains name
  | c => p.allowed.contains c

/-- Refuses a comparator that may not cross the wire. -/
def check (p : ComparatorPolicy) (c : Comparator) : Except CodecError Unit :=
  if p.permits c then .ok () else .error (.comparatorRefused c.text)

/-- The check passes the comparators that the policy permits. -/
theorem check_eq_ok_iff {p : ComparatorPolicy} {c : Comparator} :
    p.check c = .ok () ↔ p.permits c = true := by
  unfold check; split <;> simp_all

end ComparatorPolicy

end RemoteCall
