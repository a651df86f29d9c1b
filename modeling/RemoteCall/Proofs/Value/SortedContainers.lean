import RemoteCall.Proofs.Value.Collapsing
import RemoteCall.Proofs.Value.SortOrder
import RemoteCall.Value.Identity

/-!
# What sorted containers hold

A sorted set holds items out of those that it is made of, in the order of its comparator and none
that compares equal to another, and for each item given it holds that item or one that compares
equal. So a sorted set made anew of the items that it holds is the same set.

Which of the items that compare equal is held is decided by the sorting order first and by the order
in which they are given next. The two zeros of a floating-point format are the only values that
compare equal and are sorted apart, so the first of the items that compare equal is held, and in a
sorted map the last of the entries whose keys do, unless it is a zero and the zero of the other
sign, which is sorted before it, is given too.
-/

namespace RemoteCall

/-- What a sorted set of a comparator holds of the items that it is made of. -/
structure Represents (c : Comparator) (items given : List Value) : Prop where
  /-- The items are among the given ones, none of them more often than it is given. -/
  taken : items.Subperm given
  /-- No earlier item is sorted after a later one. -/
  sorted : items.Pairwise fun a b => c.sortOrder a b ≠ .gt
  /-- No two items, neighbours or not, compare equal. -/
  untied : items.Pairwise fun a b => c.compare? a b ≠ some .eq ∧ c.compare? b a ≠ some .eq
  /-- Each given item is held, or one that compares equal to it. -/
  covers : ∀ x ∈ given, x ∈ items ∨ ∃ k ∈ items, c.compare? x k = some .eq

/-- Arranged items represent the given ones. -/
theorem represents_arrange (c : Comparator) (xs : List Value) :
    Represents c (arrange c (fun item => item) xs) xs where
  taken := arrange_subperm c _ xs
  sorted := (arrange_arranged c (fun item => item) xs).sorted
  untied := (arrange_arranged c (fun item => item) xs).pairwise_untied.imp fun hab =>
    ⟨hab, fun hba => hab (c.compare?_eq_symm hba)⟩
  covers _ hx := (mem_arrange_or_equates hx).imp_right fun ⟨k, hk, hequal⟩ =>
    ⟨k, hk, Comparator.equates_iff.mp hequal⟩

/-- **Sorted sets are canonical.** Whatever the comparator and the given items are, a sorted set
represents the items, and made of its own items it is the same set. By a custom comparator it holds
the given items as they are. -/
theorem sortedSet_canonical (id : Nat) (c : Comparator) (xs : List Value) :
    ∃ items, Value.ofSortedSet id c xs = .collection id (.sortedSet c) items ∧
      Represents c items xs ∧
      Value.ofSortedSet id c items = .collection id (.sortedSet c) items ∧
      ∀ name, c = .custom name → items = xs := by
  refine ⟨arrange c (fun item => item) xs, rfl, represents_arrange c xs, ?_, ?_⟩
  · rw [Value.ofSortedSet, (arrange_arranged c (fun item => item) xs).arrange_eq]
  · rintro name rfl
    rfl

namespace Ieee

variable (f : Ieee) {a b : Nat}

/-- Numbers that compare equal and are ordered apart are the two zeros, the negative one first. -/
theorem zeros_of_compare?_eq (h : f.compare? a b = some .eq) (hlt : f.totalCompare a b = .lt)
    (ha : a < 2 * (1 <<< (f.exponentBits + f.fractionBits)))
    (hb : b < 2 * (1 <<< (f.exponentBits + f.fractionBits))) :
    a = 1 <<< (f.exponentBits + f.fractionBits) ∧ b = 0 := by
  have hkey : f.key a = f.key b := by
    unfold compare? at h
    split at h
    case isTrue => cases h
    case isFalse => exact Std.LawfulEqCmp.compare_eq_iff_eq.mp (Option.some.inj h)
  have htotal : f.totalKey a < f.totalKey b := Int.compare_eq_lt.mp hlt
  have hsigns : f.isNegative a = true ∧ f.magnitude a = 0 ∧
      f.isNegative b = false ∧ f.magnitude b = 0 := by
    unfold key at hkey
    unfold totalKey at htotal
    -- only a negative and a positive word share a key and are ordered apart, and then both are zero
    cases hna : f.isNegative a <;> cases hnb : f.isNegative b <;>
      simp only [hna, hnb, Bool.false_eq_true, if_true, if_false, true_and, false_and, and_false,
        reduceCtorEq] at hkey htotal ⊢ <;> omega
  obtain ⟨hna, hma, hnb, hmb⟩ := hsigns
  have hza := f.eq_sign_add_magnitude ha
  have hzb := f.eq_sign_add_magnitude hb
  rw [hna, hma] at hza
  rw [hnb, hmb] at hzb
  exact ⟨hza, hzb⟩

end Ieee

/-- The two zeros of each floating-point format, the negative one first. -/
def signedZeros : List (Scalar × Scalar) :=
  [(.float 0x80000000, .float 0), (.double 0x8000000000000000, .double 0)]

/-- Scalars that compare equal and are ordered apart are the two zeros of one format. -/
theorem Scalar.mem_signedZeros {a b : Scalar} (h : a.compare? b = some .eq)
    (hlt : a.totalCompare b = .lt) : (a, b) ∈ signedZeros := by
  obtain ⟨x, y, rfl, rfl⟩ | ⟨x, y, rfl, rfl⟩ | ⟨-, htotal, -⟩ := compare?_cases h
  · obtain ⟨hx, hy⟩ := Ieee.single.zeros_of_compare?_eq h hlt x.toNat_lt y.toNat_lt
    have hx' : x = 0x80000000 := UInt32.toNat_inj.mp hx
    have hy' : y = 0 := UInt32.toNat_inj.mp hy
    rw [hx', hy']
    exact List.mem_cons_self
  · obtain ⟨hx, hy⟩ := Ieee.double.zeros_of_compare?_eq h hlt x.toNat_lt y.toNat_lt
    have hx' : x = 0x8000000000000000 := UInt64.toNat_inj.mp hx
    have hy' : y = 0 := UInt64.toNat_inj.mp hy
    rw [hx', hy']
    exact List.mem_cons_of_mem _ List.mem_cons_self
  · exact absurd (htotal.symm.trans hlt) (by decide)

namespace Value

variable {a b : Value}

/-- Values that compare equal and are ordered apart are the two zeros of one format. -/
theorem exists_signedZeros (h : a.compare? b = some .eq) (hlt : a.totalCompare b = .lt) :
    ∃ s t, a = scalar s ∧ b = scalar t ∧ (s, t) ∈ signedZeros := by
  cases a <;> cases b
  case scalar.scalar s t => exact ⟨s, t, rfl, rfl, Scalar.mem_signedZeros h hlt⟩
  case variant.variant c i d j =>
    have heq : (variant c i).totalCompare (variant d j) = .eq := by
      rw [totalCompare_eq, compare?_variant_iff.mp h]
      exact Std.ReflCmp.compare_self
    exact absurd (heq.symm.trans hlt) (by decide)
  all_goals cases h

/-- The two zeros of a format compare equal, and the negative one is ordered first. -/
theorem compare?_signedZeros {s t : Scalar} (h : (s, t) ∈ signedZeros) :
    (scalar s).compare? (scalar t) = some .eq ∧ (scalar s).totalCompare (scalar t) = .lt := by
  rcases List.mem_cons.mp h with h | h
  · cases h
    decide
  · cases List.mem_singleton.mp h
    decide

end Value

namespace Comparator

variable (c : Comparator) {a b : Value}

/-- Whether two values are the zeros of one format, in the order in which a comparator that looks at
numbers sorts them. -/
def ZerosInOrder : Comparator → Value → Value → Prop
  | natural, .scalar s, .scalar t => (s, t) ∈ signedZeros
  | reverse, .scalar s, .scalar t => (t, s) ∈ signedZeros
  | _, _, _ => False

/-- Only the two zeros of a format compare equal and are sorted apart. -/
theorem zerosInOrder_iff :
    c.ZerosInOrder a b ↔ c.compare? a b = some .eq ∧ c.sortOrder a b = .lt := by
  constructor
  · intro h
    unfold ZerosInOrder at h
    split at h
    · exact Value.compare?_signedZeros h
    · obtain ⟨hequal, hlt⟩ := Value.compare?_signedZeros h
      refine ⟨reverse_compare?_iff.mpr ?_, hlt⟩
      rw [Value.compare?_swap, hequal]
      rfl
    · exact h.elim
  · rintro ⟨hequal, hlt⟩
    cases c with
    | natural =>
      obtain ⟨s, t, rfl, rfl, hzeros⟩ := Value.exists_signedZeros hequal hlt
      exact hzeros
    | reverse =>
      have hback : b.compare? a = some .eq := (a.compare?_swap b).trans hequal
      obtain ⟨s, t, rfl, rfl, hzeros⟩ := Value.exists_signedZeros hback hlt
      exact hzeros
    | allEqual => cases hlt
    | usingToString =>
      have heq : Scalar.compareText a.text b.text = .eq := Option.some.inj hequal
      exact absurd (heq.symm.trans hlt) (by decide)
    | custom name => cases hlt

end Comparator

section First

variable {α : Type} {c : Comparator} {key : α → Value} {xs : List α} {x : Value}

/-- None of the elements that compare equal is sorted before one of them exactly if none is the zero
that is. -/
theorem least_iff {a : α} (ha : c.equates x (key a) = true) :
    (∀ b ∈ xs, c.equates x (key b) = true → c.sortOrder (key a) (key b) ≠ .gt) ↔
      ∀ b ∈ xs, ¬ c.ZerosInOrder (key b) (key a) := by
  refine forall₂_congr fun b _ => ?_
  rw [c.zerosInOrder_iff]
  constructor
  · rintro hleast ⟨hequal, hlt⟩
    have hb := (Comparator.equates_congr (Comparator.equates_iff.mpr hequal) x).trans ha
    exact hleast hb (Std.OrientedCmp.gt_of_lt hlt)
  · intro hzeros hb hgt
    have hequal := Comparator.equates_trans (Comparator.equates_symm hb) ha
    exact hzeros ⟨Comparator.equates_iff.mp hequal, Std.OrientedCmp.lt_of_gt hgt⟩

/-- The first of the elements that compare equal to a value is kept exactly if it is no zero, or the
zero that is sorted before it is not given. -/
theorem filter_arrange_eq_first_iff (c : Comparator) (key : α → Value) (xs : List α) (x : Value) :
    (arrange c key xs).filter (fun a => c.equates x (key a)) =
        (xs.find? fun a => c.equates x (key a)).toList ↔
      ∀ a, xs.find? (fun a => c.equates x (key a)) = some a →
        ∀ b ∈ xs, ¬ c.ZerosInOrder (key b) (key a) := by
  have hinj {o o' : Option α} : o.toList = o'.toList ↔ o = o' := by
    cases o <;> cases o' <;> simp
  rw [filter_arrange, hinj, foremost?_eq_find?_iff]
  refine forall₂_congr fun a ha => ?_
  have hequal : c.equates x (key a) = true :=
    List.find?_some (p := fun a => c.equates x (key a)) ha
  exact least_iff hequal

end First

/-- **The first of equal items is held, zeros apart.** Of the given items that compare equal to a
value a sorted set holds one, the foremost. It is the first of them exactly if no given item is the
zero that is sorted before that. Of the given entries whose keys compare equal to a value a sorted
map holds the foremost from behind, key and value. It is the last of them exactly if no given key is
the zero that is sorted before its key. -/
theorem sorted_hold_foremost (id : Nat) (c : Comparator) (xs : List Value)
    (es : List (Value × Value)) (x : Value) :
    (∃ items, Value.ofSortedSet id c xs = .collection id (.sortedSet c) items ∧
      items.filter (c.equates x) = (foremost? c (fun item => item) (c.equates x) xs).toList ∧
      (items.filter (c.equates x) = (xs.filter (c.equates x)).head?.toList ↔
        ∀ a, (xs.filter (c.equates x)).head? = some a → ∀ b ∈ xs, ¬ c.ZerosInOrder b a)) ∧
    ∃ entries, Value.ofSortedEntries id c es = .map id (.sorted c) entries ∧
      entries.filter (fun e => c.equates x e.1) =
        (foremost? c (·.1) (fun e => c.equates x e.1) es.reverse).toList ∧
      (entries.filter (fun e => c.equates x e.1) =
          (es.filter fun e => c.equates x e.1).getLast?.toList ↔
        ∀ e, (es.filter fun e => c.equates x e.1).getLast? = some e →
          ∀ d ∈ es, ¬ c.ZerosInOrder d.1 e.1) := by
  refine ⟨⟨_, rfl, filter_arrange c (fun item => item) xs x, ?_⟩,
    ⟨_, rfl, filter_arrange c (·.1) es.reverse x, ?_⟩⟩
  · rw [List.head?_filter]
    exact filter_arrange_eq_first_iff c (fun item => item) xs x
  · rw [List.getLast?_filter]
    have hfirst := filter_arrange_eq_first_iff c (·.1) es.reverse x
    simp only [List.mem_reverse] at hfirst
    exact hfirst

namespace Zeros

/-- The positive zero. -/
def positive : Value := .scalar (.double 0)

/-- The negative zero. -/
def negative : Value := .scalar (.double 0x8000000000000000)

/-- An entry of the negative zero and then one of the positive zero. -/
def given : List (Value × Value) :=
  [(negative, .scalar (.bool false)), (positive, .scalar (.bool true))]

end Zeros

/-- By the natural order a sorted set of the positive and the negative zero holds the second, and a
sorted map of the negative and the positive zero holds the value of the first. -/
theorem sorted_hold_foremost_zeros :
    (∃ items, Value.ofSortedSet 0 .natural [Zeros.positive, Zeros.negative] =
        .collection 0 (.sortedSet .natural) items ∧
      items.filter (Comparator.natural.equates Zeros.positive) = [Zeros.negative] ∧
      ([Zeros.positive, Zeros.negative].filter
        (Comparator.natural.equates Zeros.positive)).head? = some Zeros.positive) ∧
    ∃ entries, Value.ofSortedEntries 0 .natural Zeros.given = .map 0 (.sorted .natural) entries ∧
      (entries.filter fun e => Comparator.natural.equates Zeros.positive e.1) =
        [(Zeros.negative, .scalar (.bool false))] ∧
      (Zeros.given.filter fun e => Comparator.natural.equates Zeros.positive e.1).getLast? =
        some (Zeros.positive, .scalar (.bool true)) := by
  obtain ⟨⟨items, hset, hitem, -⟩, entries, hmap, hentry, -⟩ :=
    sorted_hold_foremost 0 .natural [Zeros.positive, Zeros.negative] Zeros.given Zeros.positive
  refine ⟨⟨items, hset, hitem.trans ?_, ?_⟩, entries, hmap, hentry.trans ?_, ?_⟩
  · decide +kernel
  · decide +kernel
  · decide +kernel
  · decide +kernel

end RemoteCall
