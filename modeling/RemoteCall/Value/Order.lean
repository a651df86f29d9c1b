import RemoteCall.Value.Basic

/-!
# Order of values

Values of one scalar type have a natural order, and so have variants of one enum; no other two
values have one. `Value.totalCompare` orders all values: naturally where that is possible, and
otherwise by kind, so that two containers of one kind tie. A comparator compares by the natural
order or by texts, and sorts by a total order that refines its comparison.
-/

namespace RemoteCall

namespace Value

/-- The natural order of two values, if they have one. -/
def compare? : Value → Value → Option Ordering
  | scalar a, scalar b => a.compare? b
  | variant c i, variant d j => if c = d then some (Ord.compare i.toNat j.toNat) else none
  | _, _ => none

/-- The position of the kind of a value among all kinds. -/
def rank : Value → Nat
  | null => 0
  | scalar s => s.type.classId
  | collection _ (.array _) _ => 20
  | collection _ .list _ => 21
  | collection _ .set _ => 22
  | collection _ (.sortedSet _) _ => 23
  | map _ .plain _ => 24
  | map _ (.sorted _) _ => 25
  | variant _ _ => 26
  | object _ _ _ => 27

/-- An order of all values. -/
def totalCompare : Value → Value → Ordering
  | scalar a, scalar b => a.totalCompare b
  | variant c i, variant d j => (Scalar.compareText c d).then (Ord.compare i.toNat j.toNat)
  | a, b => Ord.compare a.rank b.rank

end Value

namespace Comparator

/-- The comparison of two values, if the comparator can compare them. -/
def compare? (c : Comparator) (a b : Value) : Option Ordering :=
  match c with
  | natural => a.compare? b
  | reverse => (a.compare? b).map Ordering.swap
  | allEqual => some .eq
  | usingToString => some (Scalar.compareText a.text b.text)
  | custom _ => none

/-- The total order by which the comparator sorts. -/
def sortOrder (c : Comparator) (a b : Value) : Ordering :=
  match c with
  | natural => a.totalCompare b
  | reverse => b.totalCompare a
  | allEqual => .eq
  | usingToString => Scalar.compareText a.text b.text
  | custom _ => .eq

/-- Whether a custom comparator is meant, which cannot be evaluated. -/
def isCustom : Comparator → Bool
  | custom _ => true
  | _ => false

end Comparator

end RemoteCall
