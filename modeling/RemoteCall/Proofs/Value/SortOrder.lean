import RemoteCall.Proofs.Value.Comparison

/-!
# Comparing and sorting

A comparator compares some pairs of values and sorts all of them. Sorting is by a total order; the
other way round a comparison gives the opposite answer; and where a comparison finds one of two
values less, the sorting order has it first. So the sorting order extends what a comparator
compares, and only what compares equal, or does not compare at all, is left to it.
-/

namespace RemoteCall

namespace Ieee

variable (f : Ieee) {a b : Nat}

/-- The other way round two numbers compare opposite. -/
theorem compare?_swap (a b : Nat) : f.compare? b a = (f.compare? a b).map Ordering.swap := by
  have hkeys : Ord.compare (f.key b) (f.key a) = (Ord.compare (f.key a) (f.key b)).swap :=
    Std.OrientedCmp.eq_swap
  unfold compare?
  rw [Bool.or_comm, hkeys]
  split
  · rfl
  · rfl

/-- A word is its sign bit and its magnitude. -/
theorem eq_sign_add_magnitude (ha : a < 2 * (1 <<< (f.exponentBits + f.fractionBits))) :
    a = (if f.isNegative a then 1 <<< (f.exponentBits + f.fractionBits) else 0) +
      f.magnitude a := by
  rw [Nat.one_shiftLeft] at ha ⊢
  have hword := Nat.div_add_mod a (2 ^ (f.exponentBits + f.fractionBits))
  have hsign : a / 2 ^ (f.exponentBits + f.fractionBits) < 2 := by
    rwa [Nat.div_lt_iff_lt_mul (Nat.two_pow_pos _)]
  rw [isNegative, Nat.testBit_eq_decide_div_mod_eq, magnitude, Nat.one_shiftLeft]
  generalize a / 2 ^ (f.exponentBits + f.fractionBits) = sign at *
  have hcases : sign = 0 ∨ sign = 1 := by omega
  rcases hcases with rfl | rfl
  · simpa using hword.symm
  · simpa using hword.symm

/-- Words of one place in the total order are one. -/
theorem totalKey_inj (ha : a < 2 * (1 <<< (f.exponentBits + f.fractionBits)))
    (hb : b < 2 * (1 <<< (f.exponentBits + f.fractionBits))) (h : f.totalKey a = f.totalKey b) :
    a = b := by
  have hparts : f.isNegative a = f.isNegative b ∧ f.magnitude a = f.magnitude b := by
    unfold totalKey at h
    cases hna : f.isNegative a <;> cases hnb : f.isNegative b <;>
      simp only [hna, hnb, Bool.false_eq_true, if_true, if_false, true_and, false_and,
        reduceCtorEq] at h ⊢ <;> omega
  rw [f.eq_sign_add_magnitude ha, f.eq_sign_add_magnitude hb, hparts.1, hparts.2]

/-- The lesser of two numbers is the earlier word, whatever zero it is. -/
theorem totalKey_lt_of_key_lt (h : f.key a < f.key b) : f.totalKey a < f.totalKey b := by
  unfold key at h
  unfold totalKey
  cases ha : f.isNegative a <;> cases hb : f.isNegative b <;>
    simp only [ha, hb, Bool.false_eq_true, if_true, if_false] at h ⊢ <;> omega

/-- Numbers that do not compare equal are sorted as they compare. -/
theorem totalCompare_of_compare? {o : Ordering} (h : f.compare? a b = some o) (ho : o ≠ .eq) :
    f.totalCompare a b = o := by
  unfold compare? at h
  split at h
  case isTrue => cases h
  case isFalse =>
    have hkeys : Ord.compare (f.key a) (f.key b) = o := Option.some.inj h
    cases o with
    | eq => exact absurd rfl ho
    | lt => exact Int.compare_eq_lt.mpr (f.totalKey_lt_of_key_lt (Int.compare_eq_lt.mp hkeys))
    | gt => exact Int.compare_eq_gt.mpr (f.totalKey_lt_of_key_lt (Int.compare_eq_gt.mp hkeys))

end Ieee

namespace BigDecimal

/-- The other way round two decimals compare opposite. -/
theorem compare?_swap (a b : BigDecimal) : b.compare? a = (a.compare? b).map Ordering.swap := by
  have hunscaled : b.unscaled.compare a.unscaled = (a.unscaled.compare b.unscaled).swap := by
    rw [BigInteger.compare_eq, BigInteger.compare_eq]
    exact Std.OrientedCmp.eq_swap
  unfold compare?
  by_cases hs : a.scale = b.scale
  · rw [if_pos hs, if_pos hs.symm, hunscaled]
    rfl
  · rw [if_neg hs, if_neg (Ne.symm hs)]
    rfl

/-- Decimals that compare are sorted as they compare. -/
theorem totalCompare_of_compare? {a b : BigDecimal} {o : Ordering} (h : a.compare? b = some o) :
    a.totalCompare b = o := by
  unfold compare? at h
  split at h
  case isTrue hs =>
    have hscale : Ord.compare b.scale.toInt b.scale.toInt = .eq := Std.ReflCmp.compare_self
    rw [totalCompare, hs, hscale]
    exact Option.some.inj h
  case isFalse => cases h

end BigDecimal

namespace Scalar

variable {a b : Scalar}

/-- The other way round two scalars of one type compare opposite. -/
theorem compare?_swap_of_type_eq (h : a.type = b.type) :
    b.compare? a = (a.compare? b).map Ordering.swap := by
  have hplain (hab : a.compare? b = some (a.totalCompare b))
      (hba : b.compare? a = some (b.totalCompare a)) :
      b.compare? a = (a.compare? b).map Ordering.swap := by
    rw [hab, hba, totalCompare_eq_of_type_eq h, totalCompare_eq_of_type_eq h.symm]
    exact congrArg some Std.OrientedCmp.eq_swap
  cases a <;> cases b <;> cases h
  case float.float a b => exact Ieee.single.compare?_swap a.toNat b.toNat
  case double.double a b => exact Ieee.double.compare?_swap a.toNat b.toNat
  case bigDecimal.bigDecimal a b => exact a.compare?_swap b
  all_goals exact hplain rfl rfl

/-- The other way round two scalars compare opposite. -/
theorem compare?_swap (a b : Scalar) : b.compare? a = (a.compare? b).map Ordering.swap := by
  by_cases h : a.type = b.type
  · exact compare?_swap_of_type_eq h
  · rw [compare?_eq_none h, compare?_eq_none (Ne.symm h)]
    rfl

/-- Scalars that compare are floating-point numbers of one format, or of one other type and sorted
as they compare. -/
theorem compare?_cases {o : Ordering} (h : a.compare? b = some o) :
    (∃ x y, a = float x ∧ b = float y) ∨ (∃ x y, a = double x ∧ b = double y) ∨
      a.type = b.type ∧ a.totalCompare b = o ∧ a.same b = (a == b) := by
  have htype : a.type = b.type := by
    by_contra hne
    rw [compare?_eq_none hne] at h
    cases h
  have hplain (hab : a.compare? b = some (a.totalCompare b)) : a.totalCompare b = o :=
    Option.some.inj (hab.symm.trans h)
  cases a <;> cases b <;> cases htype
  case float.float x y => exact .inl ⟨x, y, rfl, rfl⟩
  case double.double x y => exact .inr (.inl ⟨x, y, rfl, rfl⟩)
  case bigDecimal.bigDecimal x y =>
    exact .inr (.inr ⟨rfl, BigDecimal.totalCompare_of_compare? h, rfl⟩)
  all_goals exact .inr (.inr ⟨rfl, hplain rfl, rfl⟩)

/-- Scalars that do not compare equal are sorted as they compare. -/
theorem totalCompare_of_compare? {o : Ordering} (h : a.compare? b = some o) (ho : o ≠ .eq) :
    a.totalCompare b = o := by
  obtain ⟨x, y, rfl, rfl⟩ | ⟨x, y, rfl, rfl⟩ | ⟨-, htotal, -⟩ := compare?_cases h
  · exact Ieee.single.totalCompare_of_compare? h ho
  · exact Ieee.double.totalCompare_of_compare? h ho
  · exact htotal

end Scalar

namespace Value

variable {a b : Value}

/-- The other way round two values compare opposite. -/
theorem compare?_swap (a b : Value) : b.compare? a = (a.compare? b).map Ordering.swap := by
  cases a <;> cases b
  case scalar.scalar s t => exact s.compare?_swap t
  case variant.variant c i d j =>
    rw [compare?, compare?]
    by_cases hc : c = d
    · rw [if_pos hc, if_pos hc.symm]
      exact congrArg some Std.OrientedCmp.eq_swap
    · rw [if_neg hc, if_neg (Ne.symm hc)]
      rfl
  all_goals rfl

/-- Values that do not compare equal are sorted as they compare. -/
theorem totalCompare_of_compare? {o : Ordering} (h : a.compare? b = some o) (ho : o ≠ .eq) :
    a.totalCompare b = o := by
  cases a <;> cases b
  case scalar.scalar s t => exact Scalar.totalCompare_of_compare? h ho
  case variant.variant c i d j =>
    rw [compare?] at h
    split at h
    case isTrue hc =>
      have hself : Scalar.compareText d d = .eq := by
        rw [compareText_eq]
        exact Std.ReflCmp.compare_self
      rw [totalCompare, hc, hself]
      exact Option.some.inj h
    case isFalse => cases h
  all_goals cases h

end Value

namespace Comparator

variable (c : Comparator) {a b : Value}

/-- The other way round a comparator compares opposite. -/
theorem compare?_swap (a b : Value) : c.compare? b a = (c.compare? a b).map Ordering.swap := by
  cases c with
  | natural => exact a.compare?_swap b
  | reverse => exact congrArg (·.map Ordering.swap) (a.compare?_swap b)
  | allEqual => rfl
  | usingToString =>
    rw [compare?, compare?, compareText_eq, compareText_eq]
    exact congrArg some Std.OrientedCmp.eq_swap
  | custom name => rfl

/-- Values that do not compare equal are sorted as they compare. -/
theorem sortOrder_of_compare? {o : Ordering} (h : c.compare? a b = some o) (ho : o ≠ .eq) :
    c.sortOrder a b = o := by
  cases c with
  | natural => exact Value.totalCompare_of_compare? h ho
  | reverse =>
    -- sorting exchanges the values, comparing turns the answer round
    have hback : b.compare? a = some o := (a.compare?_swap b).trans h
    exact Value.totalCompare_of_compare? hback ho
  | allEqual => exact absurd (Option.some.inj h).symm ho
  | usingToString => exact Option.some.inj h
  | custom name => cases h

/-- What makes sorting by a comparator sound. -/
structure SortsByOrder : Prop where
  /-- No value is sorted before or after itself. -/
  reflexive : ∀ a, c.sortOrder a a = .eq
  /-- Of two values one is sorted no later than the other. -/
  total : ∀ a b, c.sortOrder a b ≠ .gt ∨ c.sortOrder b a ≠ .gt
  /-- What is sorted no later than a second value is sorted no later than what follows that. -/
  transitive : ∀ a b d, c.sortOrder a b ≠ .gt → c.sortOrder b d ≠ .gt → c.sortOrder a d ≠ .gt
  /-- The other way round the sorting order is the opposite one. -/
  oriented : ∀ a b, c.sortOrder b a = (c.sortOrder a b).swap
  /-- The other way round a comparison has the opposite answer, or again none. -/
  reversed : ∀ a b, c.compare? b a = (c.compare? a b).map Ordering.swap
  /-- A value that compares less is sorted before, and one that compares greater after. -/
  agrees : ∀ a b o, c.compare? a b = some o → o ≠ .eq → c.sortOrder a b = o

/-- **Every comparator sorts by a real order, which extends its comparison.** This holds over the
values of all kinds, mixed ones, null, floating-point words that are no numbers, both zeros and
containers included. -/
theorem sortsByOrder : c.SortsByOrder where
  reflexive _ := Std.ReflCmp.compare_self
  total a b := by
    by_contra hgt
    obtain ⟨hab, hba⟩ := not_or.mp hgt
    exact hab (Std.OrientedCmp.not_gt_of_gt (not_not.mp hba))
  transitive a b d hab hbd :=
    Ordering.ne_gt_iff_isLE.mpr (Std.TransCmp.isLE_trans (Ordering.ne_gt_iff_isLE.mp hab)
      (Ordering.ne_gt_iff_isLE.mp hbd))
  oriented _ _ := Std.OrientedCmp.eq_swap
  reversed a b := c.compare?_swap a b
  agrees _ _ _ := c.sortOrder_of_compare?

end Comparator

end RemoteCall
