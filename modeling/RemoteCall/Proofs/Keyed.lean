import Mathlib.Data.List.Nodup

/-!
# Lists with distinct keys

Tables are lists whose elements have distinct keys: waiting calls under request ids, running
invocations under tickets. An element that is found by its key and the elements with other keys are
all there is.
-/

namespace RemoteCall

/-- Two lists after a third may change places. -/
theorem perm_append_swap {α : Type} (xs ys zs : List α) :
    (xs ++ ys ++ zs).Perm (xs ++ zs ++ ys) := by
  rw [List.append_assoc, List.append_assoc]
  exact List.perm_append_comm.append_left xs

/-- What is left of distinct elements without some of them. -/
theorem perm_filter_not_mem {α : Type} [DecidableEq α] {xs ys zs : List α}
    (h : xs.Perm (ys ++ zs)) (hnodup : xs.Nodup) : (xs.filter (· ∉ ys)).Perm zs := by
  obtain ⟨-, -, hapart⟩ := List.nodup_append.mp (h.nodup_iff.mp hnodup)
  have hgone : ys.filter (· ∉ ys) = [] :=
    List.filter_eq_nil_iff.mpr fun y hy hnot => of_decide_eq_true hnot hy
  have hkept : zs.filter (· ∉ ys) = zs :=
    List.filter_eq_self.mpr fun z hz => decide_eq_true fun hy => hapart z hy z hz rfl
  have hfilter := h.filter (· ∉ ys)
  rwa [List.filter_append, hgone, hkept, List.nil_append] at hfilter

section Keyed

variable {α κ : Type} [BEq κ] [LawfulBEq κ] {key : α → κ} {xs : List α}

/-- An element that is found by a key has that key. -/
theorem key_of_find? {k : κ} {x : α} (h : xs.find? (key · == k) = some x) : key x = k := by
  have hbeq := List.find?_some h
  exact beq_iff_eq.mp hbeq

/-- An element is found by its key. -/
theorem find?_key_of_mem (h : (xs.map key).Nodup) {x : α} (hx : x ∈ xs) :
    xs.find? (key · == key x) = some x := by
  cases hfound : xs.find? (key · == key x) with
  | none => exact absurd (beq_self_eq_true (key x)) (List.find?_eq_none.mp hfound x hx)
  | some y =>
    have hy := List.mem_of_find?_eq_some hfound
    rw [List.inj_on_of_nodup_map h hy hx (key_of_find? hfound)]

/-- The elements are the one of a key and those with other keys. -/
theorem perm_cons_filter_key (h : (xs.map key).Nodup) {k : κ} {x : α}
    (hx : xs.find? (key · == k) = some x) : xs.Perm (x :: xs.filter (key · != k)) := by
  induction xs with
  | nil => cases hx
  | cons y ys ih =>
    obtain ⟨hy, hys⟩ := List.nodup_cons.mp h
    by_cases hk : key y = k
    · have hbeq : (key y == k) = true := beq_iff_eq.mpr hk
      rw [List.find?_cons, hbeq] at hx
      cases hx
      have hkeep : ys.filter (key · != k) = ys := by
        refine List.filter_eq_self.mpr fun z hz => bne_iff_ne.mpr fun hz' => hy ?_
        exact List.mem_map.mpr ⟨z, hz, hz'.trans hk.symm⟩
      rw [List.filter_cons, bne, hbeq, hkeep]
      exact .refl _
    · have hbeq : (key y == k) = false := beq_eq_false_iff_ne.mpr hk
      rw [List.find?_cons, hbeq] at hx
      rw [List.filter_cons, bne, hbeq]
      exact ((ih hys hx).cons y).trans (.swap x y _)

/-- Without the element of a key there is none to leave out. -/
theorem filter_key_eq_self {k : κ} (h : xs.find? (key · == k) = none) :
    xs.filter (key · != k) = xs := by
  refine List.filter_eq_self.mpr fun x hx => bne_iff_ne.mpr fun hk => ?_
  exact List.find?_eq_none.mp h x hx (beq_iff_eq.mpr hk)

/-- Leaving out the elements of one key leaves the search for another alone. -/
theorem find?_filter_other {k k' : κ} (h : k' ≠ k) :
    (xs.filter (key · != k')).find? (key · == k) = xs.find? (key · == k) := by
  rw [List.find?_filter]
  refine congrArg (List.find? · xs) (funext fun x => ?_)
  rw [Bool.eq_iff_iff, decide_eq_true_iff, and_iff_right_iff_imp]
  exact fun hx => bne_iff_ne.mpr fun he => h (he.symm.trans (beq_iff_eq.mp hx))

/-- Nothing is found under a key whose elements are left out. -/
theorem find?_filter_self {k : κ} : (xs.filter (key · != k)).find? (key · == k) = none := by
  refine List.find?_eq_none.mpr fun x hx hbeq => ?_
  exact bne_iff_ne.mp (List.mem_filter.mp hx).2 (beq_iff_eq.mp hbeq)

/-- Leaving out the element of one key leaves out that of the other key. -/
theorem map_filter_key [DecidableEq ι] {key' : α → ι} (h : (xs.map key).Nodup)
    (h' : (xs.map key').Nodup) {x : α} (hx : x ∈ xs) :
    (xs.filter (key · != key x)).map key' = (xs.map key').erase (key' x) := by
  rw [h'.erase_eq_filter, List.filter_map]
  refine congrArg (List.map key') (List.filter_congr fun y hy => ?_)
  by_cases hyx : y = x
  · rw [hyx, bne_self_eq_false, Function.comp_apply, bne_self_eq_false]
  · have hkey : key y ≠ key x := fun he => hyx (List.inj_on_of_nodup_map h hy hx he)
    have hkey' : key' y ≠ key' x := fun he => hyx (List.inj_on_of_nodup_map h' hy hx he)
    rw [bne_iff_ne.mpr hkey, Function.comp_apply, bne_iff_ne.mpr hkey']

end Keyed

end RemoteCall
