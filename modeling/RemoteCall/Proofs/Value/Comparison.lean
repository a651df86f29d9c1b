import Mathlib.Data.List.Basic
import RemoteCall.Proofs.Value.Order

/-!
# What compares equal stands together

Values that compare equal under a comparator share a key, and what is sorted between two of them has
that key too. The sorting order is finer than the comparison, by the zeros of floating-point
numbers, and covers values that the comparison leaves out; still it puts all values that compare
equal to one another in one row.
-/

namespace RemoteCall

namespace Ieee

variable (f : Ieee)

/-- The key by which a number compares equal to others: one for the two zeros, and none for what is
not a number. -/
def compareKey? (bits : Nat) : Option (List Int) :=
  if f.isNaN bits then none else some [f.key bits]

/-- Numbers compare equal if they have one key. -/
theorem compare?_eq_some_eq_iff (a b : Nat) : f.compare? a b = some .eq ↔
    ∃ k, f.compareKey? a = some k ∧ f.compareKey? b = some k := by
  unfold compare? compareKey?
  cases f.isNaN a <;> cases f.isNaN b <;>
    simp [Std.LawfulEqCmp.compare_eq_iff_eq, @eq_comm Int (f.key b)]

/-- What is ordered between two numbers is a number, and the one that they are if they are equal. -/
theorem compareKey?_between {a m b : Nat} {k : List Int} (ha : f.compareKey? a = some k)
    (hb : f.compareKey? b = some k) (ham : f.totalKey a ≤ f.totalKey m)
    (hmb : f.totalKey m ≤ f.totalKey b) : f.compareKey? m = some k := by
  have hnumber {bits : Nat} (h : f.compareKey? bits = some k) :
      f.isNaN bits = false ∧ k = [f.key bits] := by
    unfold compareKey? at h
    split at h
    case isTrue => cases h
    case isFalse hn => exact ⟨Bool.eq_false_iff.mpr hn, (Option.some.inj h).symm⟩
  obtain ⟨-, rfl⟩ := hnumber ha
  obtain ⟨hnan, hkey⟩ := hnumber hb
  have hkey : f.key a = f.key b := (List.cons.inj hkey).1
  have hm : f.isNaN m = false ∧ f.key m = f.key a := by
    simp only [isNaN, decide_eq_false_iff_not, Nat.not_lt, key, totalKey] at *
    cases ha' : f.isNegative a <;> cases hb' : f.isNegative b <;> cases hm' : f.isNegative m <;>
      simp only [ha', hb', hm', Bool.false_eq_true, if_true, if_false] at hkey ham hmb ⊢ <;> omega
  rw [compareKey?, hm.1, hm.2]
  rfl

end Ieee

namespace Scalar

/-- The key by which a scalar compares equal to others of its type, if it does to any. -/
def compareKey? : Scalar → Option (List Int)
  | float bits => Ieee.single.compareKey? bits.toNat
  | double bits => Ieee.double.compareKey? bits.toNat
  | s => some s.sortKey

/-- Scalars whose comparison is their total order compare equal if they have one key. -/
theorem compare?_eq_some_eq_iff_sortKey {a b : Scalar} (h : a.type = b.type)
    (hc : a.compare? b = some (a.totalCompare b)) :
    a.compare? b = some .eq ↔ a.sortKey = b.sortKey := by
  rw [hc, totalCompare_eq_of_type_eq h, Option.some.injEq, Std.LawfulEqCmp.compare_eq_iff_eq]

/-- Decimals compare equal if they have one key. -/
theorem compare?_bigDecimal_iff (a b : BigDecimal) : a.compare? b = some .eq ↔
    (bigDecimal a).sortKey = (bigDecimal b).sortKey := by
  rw [sortKey, sortKey, List.cons.injEq, Int32.toInt_inj, BigDecimal.compare?]
  by_cases hs : a.scale = b.scale
  · rw [if_pos hs, Option.some.injEq, BigInteger.compare_eq, Std.LawfulEqCmp.compare_eq_iff_eq]
    exact ⟨fun h => ⟨hs, h⟩, And.right⟩
  · rw [if_neg hs]
    exact ⟨fun h => absurd h (Option.some_ne_none _).symm, fun h => absurd h.1 hs⟩

/-- Scalars of one type compare equal if they have one key. -/
theorem compare?_eq_some_eq_iff {a b : Scalar} (h : a.type = b.type) :
    a.compare? b = some .eq ↔ ∃ k, a.compareKey? = some k ∧ b.compareKey? = some k := by
  have hplain (ha : a.compareKey? = some a.sortKey) (hb : b.compareKey? = some b.sortKey)
      (hk : a.compare? b = some .eq ↔ a.sortKey = b.sortKey) :
      a.compare? b = some .eq ↔ ∃ k, a.compareKey? = some k ∧ b.compareKey? = some k := by
    rw [hk, ha, hb]
    constructor
    · exact fun he => ⟨_, rfl, congrArg some he.symm⟩
    · rintro ⟨k, hak, hbk⟩
      exact (Option.some.inj hak).trans (Option.some.inj hbk).symm
  cases a <;> cases b <;> cases h
  case float.float a b => exact Ieee.single.compare?_eq_some_eq_iff a.toNat b.toNat
  case double.double a b => exact Ieee.double.compare?_eq_some_eq_iff a.toNat b.toNat
  case bigDecimal.bigDecimal a b => exact hplain rfl rfl (compare?_bigDecimal_iff a b)
  all_goals exact hplain rfl rfl (compare?_eq_some_eq_iff_sortKey rfl rfl)

/-- Scalars of two types do not compare. -/
theorem compare?_eq_none {a b : Scalar} (h : a.type ≠ b.type) : a.compare? b = none := by
  cases a <;> cases b <;> first | rfl | (exact absurd rfl h)

/-- What is ordered between two scalars that compare equal has their key. -/
theorem compareKey?_between {a m b : Scalar} {k : List Int} (hab : a.type = b.type)
    (hm : a.type = m.type) (ha : a.compareKey? = some k) (hb : b.compareKey? = some k)
    (ham : (Ord.compare a.sortKey m.sortKey).isLE) (hmb : (Ord.compare m.sortKey b.sortKey).isLE) :
    m.compareKey? = some k := by
  have hplain (ha' : a.compareKey? = some a.sortKey) (hb' : b.compareKey? = some b.sortKey)
      (hm' : m.compareKey? = some m.sortKey) : m.compareKey? = some k := by
    have hak : a.sortKey = k := Option.some.inj (ha'.symm.trans ha)
    have hbk : b.sortKey = k := Option.some.inj (hb'.symm.trans hb)
    rw [hak] at ham
    rw [hbk] at hmb
    rw [hm', Std.LawfulEqCmp.compare_eq_iff_eq.mp (Std.OrientedCmp.isLE_antisymm hmb ham)]
  cases a <;> cases b <;> cases hab <;> cases m <;> cases hm
  case float.float.refl.float.refl a b m =>
    rw [sortKey, sortKey, compare_singleton, Int.isLE_compare] at ham hmb
    exact Ieee.single.compareKey?_between ha hb ham hmb
  case double.double.refl.double.refl a b m =>
    rw [sortKey, sortKey, compare_singleton, Int.isLE_compare] at ham hmb
    exact Ieee.double.compareKey?_between ha hb ham hmb
  all_goals exact hplain rfl rfl rfl

end Scalar

namespace Value

/-- The key by which a value compares equal to others, if it does to any. -/
def compareKey? : Value → Option (List Int)
  | scalar s => s.compareKey?.map (s.type.classId :: ·)
  | variant c i => some (variant c i).sortKey
  | _ => none

/-- The key begins with the kind. -/
theorem exists_compareKey?_eq {v : Value} {k : List Int} (h : v.compareKey? = some k) :
    ∃ inner, k = (v.rank : Int) :: inner := by
  cases v with
  | scalar s =>
    obtain ⟨inner, -, rfl⟩ := Option.map_eq_some_iff.mp h
    exact ⟨inner, rfl⟩
  | variant c i =>
    cases h
    exact ⟨_, rfl⟩
  | _ => cases h

/-- Values of one key are of one kind. -/
theorem rank_eq_of_compareKey? {a b : Value} {k : List Int} (ha : a.compareKey? = some k)
    (hb : b.compareKey? = some k) : a.rank = b.rank := by
  obtain ⟨_, rfl⟩ := exists_compareKey?_eq ha
  obtain ⟨_, he⟩ := exists_compareKey?_eq hb
  exact Int.ofNat.inj (List.cons.inj he).1

/-- Two scalars have one key if they are of one type and have one within it. -/
theorem compareKey?_scalar_iff {s t : Scalar} :
    (∃ k, (scalar s).compareKey? = some k ∧ (scalar t).compareKey? = some k) ↔
      s.type = t.type ∧ ∃ k, s.compareKey? = some k ∧ t.compareKey? = some k := by
  constructor
  · rintro ⟨k, hs, ht⟩
    have htype : s.type = t.type := ScalarType.classId_inj (rank_eq_of_compareKey? hs ht)
    obtain ⟨inner, hs', rfl⟩ := Option.map_eq_some_iff.mp hs
    obtain ⟨inner', ht', he⟩ := Option.map_eq_some_iff.mp ht
    rw [(List.cons.inj he).2] at ht'
    exact ⟨htype, inner, hs', ht'⟩
  · rintro ⟨htype, k, hs, ht⟩
    exact ⟨s.type.classId :: k, by rw [compareKey?, hs]; rfl, by rw [compareKey?, ht, htype]; rfl⟩

/-- Byte strings of one key are one. -/
theorem bytesKey_inj {a b : List UInt8} (h : bytesKey a = bytesKey b) : a = b := by
  have hbyte : Function.Injective fun b : UInt8 => (b.toNat : Int) + 1 := by
    intro x y hxy
    have hnat : (x.toNat : Int) + 1 = y.toNat + 1 := hxy
    exact UInt8.toNat_inj.mp (by omega)
  exact hbyte.list_map h

/-- Texts of one key are one text. -/
theorem textKey_inj {a b : String} (h : textKey a = textKey b) : a = b :=
  String.toByteArray_inj.mp (ByteArray.ext (Array.toList_inj.mp (bytesKey_inj h)))

/-- Two variants compare equal if they are one. -/
theorem compare?_variant_iff {c d : String} {i j : UInt32} :
    (variant c i).compare? (variant d j) = some .eq ↔
      (variant c i).sortKey = (variant d j).sortKey := by
  rw [compare?]
  constructor
  · intro h
    split at h
    case isTrue hc =>
      rw [Option.some.injEq, Std.LawfulEqCmp.compare_eq_iff_eq, UInt32.toNat_inj] at h
      rw [hc, h]
    case isFalse => cases h
  · intro h
    have htie : (variant c i).totalCompare (variant d j) = .eq := by
      rw [totalCompare_variant, h]
      exact Std.ReflCmp.compare_self
    obtain ⟨hname, hordinal⟩ := Ordering.then_eq_eq.mp htie
    rw [compareText_eq, Std.LawfulEqCmp.compare_eq_iff_eq] at hname
    rw [if_pos (textKey_inj hname), hordinal]

/-- Values of two kinds do not compare. -/
theorem compare?_eq_none {a b : Value} (h : a.rank ≠ b.rank) : a.compare? b = none := by
  cases a <;> cases b
  case scalar.scalar s t =>
    exact Scalar.compare?_eq_none fun htype => h (congrArg ScalarType.classId htype)
  case variant.variant => exact absurd rfl h
  all_goals rfl

/-- Values that are neither scalars nor variants do not compare. -/
theorem compare?_eq_none_of_not {a : Value} (hs : ∀ s, a ≠ scalar s) (hv : ∀ c i, a ≠ variant c i)
    (b : Value) : a.compare? b = none ∧ a.compareKey? = none := by
  cases a with
  | scalar s => exact absurd rfl (hs s)
  | variant c i => exact absurd rfl (hv c i)
  | _ => exact ⟨rfl, rfl⟩

/-- Values compare equal by their natural order if they have one key. -/
theorem compare?_eq_some_eq_iff (a b : Value) :
    a.compare? b = some .eq ↔ ∃ k, a.compareKey? = some k ∧ b.compareKey? = some k := by
  by_cases hrank : a.rank = b.rank
  · obtain ⟨s, t, rfl, rfl⟩ | ⟨c, i, d, j, rfl, rfl⟩ | ⟨hs, hv, -, -⟩ := kinds_of_rank_eq hrank
    · have htype : s.type = t.type := ScalarType.classId_inj hrank
      rw [compareKey?_scalar_iff, ← Scalar.compare?_eq_some_eq_iff htype]
      exact ⟨fun h => ⟨htype, h⟩, And.right⟩
    · rw [compare?_variant_iff]
      constructor
      · exact fun h => ⟨_, rfl, congrArg some h.symm⟩
      · rintro ⟨k, ha, hb⟩
        exact (Option.some.inj ha).trans (Option.some.inj hb).symm
    · obtain ⟨hnone, hkey⟩ := compare?_eq_none_of_not hs hv b
      rw [hnone, hkey]
      exact ⟨fun h => (nomatch h), fun ⟨_, h, _⟩ => (nomatch h)⟩
  · rw [compare?_eq_none hrank]
    exact ⟨fun h => (nomatch h), fun ⟨_, ha, hb⟩ => absurd (rank_eq_of_compareKey? ha hb) hrank⟩

/-- A value that is ordered no later than another is of no later kind, and within the kind it has no
later key. -/
theorem rank_le_of_isLE {a b : Value} (h : (a.totalCompare b).isLE) :
    a.rank ≤ b.rank ∧ (a.rank = b.rank → (Ord.compare a.innerKey b.innerKey).isLE) := by
  rw [totalCompare_eq, compare_sortKey, Ordering.isLE_then_iff_and, Nat.isLE_compare] at h
  refine ⟨h.1, fun hrank => h.2.resolve_left fun hlt => ?_⟩
  rw [Nat.compare_eq_lt] at hlt
  omega

/-- What is ordered between two values that compare equal compares equal to them. -/
theorem compareKey?_between {a m b : Value} {k : List Int} (ha : a.compareKey? = some k)
    (hb : b.compareKey? = some k) (ham : (a.totalCompare m).isLE) (hmb : (m.totalCompare b).isLE) :
    m.compareKey? = some k := by
  have hab := rank_eq_of_compareKey? ha hb
  obtain ⟨hrank, hinner⟩ := rank_le_of_isLE ham
  obtain ⟨hrank', hinner'⟩ := rank_le_of_isLE hmb
  have hm : a.rank = m.rank := by omega
  obtain ⟨s, t, rfl, rfl⟩ | ⟨c, i, d, j, rfl, rfl⟩ | ⟨hs, hv, -, -⟩ := kinds_of_rank_eq hab
  · obtain ⟨htype, k', hs, ht⟩ := compareKey?_scalar_iff.mp ⟨k, ha, hb⟩
    obtain ⟨_, u, he, rfl⟩ | ⟨_, _, _, _, he, -⟩ | ⟨hs', -⟩ := kinds_of_rank_eq hm
    case inr.inl => cases he
    case inr.inr => exact absurd rfl (hs' s)
    have htype' : s.type = u.type := ScalarType.classId_inj hm
    have hu := Scalar.compareKey?_between htype htype' hs ht (hinner hm)
      (hinner' (hm.symm.trans hab))
    obtain ⟨k'', hs'', hu''⟩ := compareKey?_scalar_iff.mpr ⟨htype', k', hs, hu⟩
    rw [hu'', ← hs'', ha]
  · obtain ⟨_, _, he, -⟩ | ⟨_, _, e, l, -, rfl⟩ | ⟨-, hv', -⟩ := kinds_of_rank_eq hm
    case inl => cases he
    case inr.inr => exact absurd rfl (hv' c i)
    rw [totalCompare_eq] at ham hmb
    rw [Option.some.inj ha] at ham
    rw [Option.some.inj hb] at hmb
    exact congrArg some
      (Std.LawfulEqCmp.compare_eq_iff_eq.mp (Std.OrientedCmp.isLE_antisymm hmb ham))
  · rw [(compare?_eq_none_of_not hs hv b).2] at ha
    exact absurd ha.symm (Option.some_ne_none _)

end Value

namespace Comparator

variable (c : Comparator) {a m b : Value}

/-- Reversed, values compare equal if they do by their natural order. -/
theorem reverse_compare?_iff : reverse.compare? a b = some .eq ↔ a.compare? b = some .eq := by
  rw [compare?]
  cases a.compare? b with
  | none => exact Iff.rfl
  | some o => cases o <;> decide

/-- Comparing equal goes both ways. -/
theorem compare?_eq_symm (h : c.compare? a b = some .eq) : c.compare? b a = some .eq := by
  cases c with
  | natural =>
    obtain ⟨k, ha, hb⟩ := (Value.compare?_eq_some_eq_iff a b).mp h
    exact (Value.compare?_eq_some_eq_iff b a).mpr ⟨k, hb, ha⟩
  | reverse =>
    obtain ⟨k, ha, hb⟩ := (Value.compare?_eq_some_eq_iff a b).mp (reverse_compare?_iff.mp h)
    exact reverse_compare?_iff.mpr ((Value.compare?_eq_some_eq_iff b a).mpr ⟨k, hb, ha⟩)
  | allEqual => rfl
  | usingToString =>
    rw [compare?, compareText_eq, Option.some.injEq, Std.LawfulEqCmp.compare_eq_iff_eq] at h
    rw [compare?, compareText_eq, h]
    exact congrArg some Std.ReflCmp.compare_self
  | custom name => cases h

/-- What is sorted between two values that compare equal compares equal to them. -/
theorem compare?_eq_between (h : c.compare? a b = some .eq) (ham : (c.sortOrder a m).isLE)
    (hmb : (c.sortOrder m b).isLE) : c.compare? a m = some .eq := by
  cases c with
  | natural =>
    obtain ⟨k, ha, hb⟩ := (Value.compare?_eq_some_eq_iff a b).mp h
    exact (Value.compare?_eq_some_eq_iff a m).mpr ⟨k, ha, Value.compareKey?_between ha hb ham hmb⟩
  | reverse =>
    obtain ⟨k, ha, hb⟩ := (Value.compare?_eq_some_eq_iff a b).mp (reverse_compare?_iff.mp h)
    exact reverse_compare?_iff.mpr
      ((Value.compare?_eq_some_eq_iff a m).mpr ⟨k, ha, Value.compareKey?_between hb ha hmb ham⟩)
  | allEqual => rfl
  | usingToString =>
    rw [sortOrder, compareText_eq] at ham hmb
    rw [compare?, compareText_eq, Option.some.injEq] at h ⊢
    rw [← Std.LawfulEqCmp.compare_eq_iff_eq.mp h] at hmb
    exact Std.OrientedCmp.isLE_antisymm ham hmb
  | custom name => cases h

end Comparator

end RemoteCall
