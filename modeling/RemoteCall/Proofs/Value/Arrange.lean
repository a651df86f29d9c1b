import Mathlib.Data.List.Chain
import RemoteCall.Proofs.Value.Order
import RemoteCall.Value.Container

/-!
# Arranged lists stay as they are

Arranging a list by a comparator sorts it and leaves no two neighbours that tie. A list in that
state is arranged into itself.
-/

namespace RemoteCall

section DropTies

variable {α : Type} (tie : α → α → Bool)

/-- What is kept after an element stands in the list after it. -/
theorem dropTies_go_sublist (last : α) (xs : List α) : (dropTies.go tie last xs).Sublist xs := by
  induction xs generalizing last with
  | nil => exact .slnil
  | cons y ys ih =>
    rw [dropTies.go]
    split
    · exact (ih last).cons y
    · exact (ih y).cons_cons y

/-- What is kept stands in the list in the same order. -/
theorem dropTies_sublist (xs : List α) : (dropTies tie xs).Sublist xs := by
  cases xs with
  | nil => exact .slnil
  | cons x xs => exact (dropTies_go_sublist tie x xs).cons_cons x

/-- No kept element ties with the one kept before it. -/
theorem dropTies_go_isChain (last : α) (xs : List α) :
    (last :: dropTies.go tie last xs).IsChain fun a b => tie a b = false := by
  induction xs generalizing last with
  | nil => exact .singleton last
  | cons y ys ih =>
    rw [dropTies.go]
    split
    · exact ih last
    · rename_i h
      exact List.isChain_cons_cons.mpr ⟨Bool.eq_false_iff.mpr h, ih y⟩

/-- No two neighbours tie in what is kept. -/
theorem dropTies_isChain (xs : List α) : (dropTies tie xs).IsChain fun a b => tie a b = false := by
  cases xs with
  | nil => exact .nil
  | cons x xs => exact dropTies_go_isChain tie x xs

/-- Everything is kept after an element if no neighbours tie. -/
theorem dropTies_go_eq_self {last : α} {xs : List α}
    (h : (last :: xs).IsChain fun a b => tie a b = false) : dropTies.go tie last xs = xs := by
  induction xs generalizing last with
  | nil => rfl
  | cons y ys ih =>
    obtain ⟨hy, hys⟩ := List.isChain_cons_cons.mp h
    rw [dropTies.go, hy, ih hys]
    rfl

/-- Everything is kept if no neighbours tie. -/
theorem dropTies_eq_self {xs : List α} (h : xs.IsChain fun a b => tie a b = false) :
    dropTies tie xs = xs := by
  cases xs with
  | nil => rfl
  | cons x xs => rw [dropTies, dropTies_go_eq_self tie h]

/-- What keeps the ties of all elements keeps what is kept after an element. -/
theorem dropTies_go_map {β : Type} {tie' : β → β → Bool} {g : α → β}
    (h : ∀ a b, tie' (g a) (g b) = tie a b) (last : α) (xs : List α) :
    dropTies.go tie' (g last) (xs.map g) = (dropTies.go tie last xs).map g := by
  induction xs generalizing last with
  | nil => rfl
  | cons y ys ih =>
    rw [List.map_cons, dropTies.go, dropTies.go, h]
    split
    · exact ih last
    · rw [List.map_cons, ih y]

/-- What keeps the ties of all elements keeps what is kept. -/
theorem dropTies_map {β : Type} {tie' : β → β → Bool} {g : α → β}
    (h : ∀ a b, tie' (g a) (g b) = tie a b) (xs : List α) :
    dropTies tie' (xs.map g) = (dropTies tie xs).map g := by
  cases xs with
  | nil => rfl
  | cons x xs => rw [List.map_cons, dropTies, dropTies, List.map_cons, dropTies_go_map tie h]

end DropTies

/-- A list in the order of a comparator, in which no two neighbours tie. -/
structure Arranged {α : Type} (c : Comparator) (key : α → Value) (xs : List α) : Prop where
  /-- No element is sorted after a later one. -/
  sorted : xs.Pairwise fun a b => c.sortOrder (key a) (key b) ≠ .gt
  /-- No element compares equal to the next one. -/
  untied : xs.IsChain fun a b => (c.compare? (key a) (key b) == some .eq) = false

section Arrange

variable {α : Type} {c : Comparator} {key : α → Value}

/-- A custom comparator sorts nothing. -/
theorem Comparator.sortOrder_of_isCustom (h : c.isCustom = true) (a b : Value) :
    c.sortOrder a b = .eq := by
  cases c with
  | custom name => rfl
  | natural => cases h
  | reverse => cases h
  | allEqual => cases h
  | usingToString => cases h

/-- A custom comparator compares nothing. -/
theorem Comparator.compare?_of_isCustom (h : c.isCustom = true) (a b : Value) :
    c.compare? a b = none := by
  cases c with
  | custom name => rfl
  | natural => cases h
  | reverse => cases h
  | allEqual => cases h
  | usingToString => cases h

/-- Every list is arranged for a custom comparator. -/
theorem Arranged.of_isCustom (h : c.isCustom = true) (xs : List α) : Arranged c key xs := by
  constructor
  · refine List.pairwise_of_forall fun a b => ?_
    rw [c.sortOrder_of_isCustom h]
    decide
  · refine List.Pairwise.isChain (List.pairwise_of_forall fun a b => ?_)
    rw [c.compare?_of_isCustom h]
    rfl

/-- Being sorted no later is transitive. -/
theorem Comparator.sortOrder_trans (x y z : α)
    (hxy : (c.sortOrder (key x) (key y) != .gt) = true)
    (hyz : (c.sortOrder (key y) (key z) != .gt) = true) :
    (c.sortOrder (key x) (key z) != .gt) = true := by
  have h := Std.TransCmp.isLE_trans (Ordering.ne_gt_iff_isLE.mp (bne_iff_ne.mp hxy))
    (Ordering.ne_gt_iff_isLE.mp (bne_iff_ne.mp hyz))
  exact bne_iff_ne.mpr (Ordering.ne_gt_iff_isLE.mpr h)

/-- Of two elements one is sorted no later than the other. -/
theorem Comparator.sortOrder_total (x y : α) :
    (c.sortOrder (key x) (key y) != .gt || c.sortOrder (key y) (key x) != .gt) = true := by
  have h : c.sortOrder (key x) (key y) = (c.sortOrder (key y) (key x)).swap :=
    Std.OrientedCmp.eq_swap
  cases hx : c.sortOrder (key y) (key x) <;> rw [hx] at h <;> rw [h] <;> rfl

/-- Values of which neither is sorted after the other tie. -/
theorem Comparator.sortOrder_antisymm {a b : Value} (hab : c.sortOrder a b ≠ .gt)
    (hba : c.sortOrder b a ≠ .gt) : c.sortOrder a b = .eq := by
  have h : c.sortOrder a b = (c.sortOrder b a).swap := Std.OrientedCmp.eq_swap
  cases hx : c.sortOrder a b with
  | eq => rfl
  | gt => exact absurd hx hab
  | lt =>
    rw [hx] at h
    exact absurd (Ordering.swap_eq_lt.mp h.symm) hba

/-- Arranging arranges. -/
theorem arrange_arranged (c : Comparator) (key : α → Value) (xs : List α) :
    Arranged c key (arrange c key xs) := by
  by_cases hc : c.isCustom = true
  · exact .of_isCustom hc _
  · rw [arrange, if_neg hc]
    constructor
    · have h : (xs.mergeSort fun a b => c.sortOrder (key a) (key b) != .gt).Pairwise fun a b =>
          (c.sortOrder (key a) (key b) != .gt) = true :=
        List.pairwise_mergeSort c.sortOrder_trans c.sortOrder_total xs
      exact (h.imp fun h => bne_iff_ne.mp h).sublist (dropTies_sublist _ _)
    · exact dropTies_isChain _ _

/-- Arranging drops elements and adds none. -/
theorem mem_of_mem_arrange {xs : List α} {a : α} (h : a ∈ arrange c key xs) : a ∈ xs := by
  unfold arrange at h
  split at h
  · exact h
  · exact List.mem_mergeSort.mp ((dropTies_sublist _ _).mem h)

/-- An arranged list is arranged into itself. -/
theorem Arranged.arrange_eq {xs : List α} (h : Arranged c key xs) : arrange c key xs = xs := by
  unfold arrange
  split
  · rfl
  · have hs : xs.Pairwise fun a b => (c.sortOrder (key a) (key b) != .gt) = true :=
      h.sorted.imp fun h => bne_iff_ne.mpr h
    rw [List.mergeSort_of_pairwise hs, dropTies_eq_self _ h.untied]

/-- What keeps the comparisons of all keys keeps how a list is arranged. -/
theorem arrange_map {β : Type} (key' : β → Value) (g : α → β)
    (hs : ∀ a b, c.sortOrder (key' (g a)) (key' (g b)) = c.sortOrder (key a) (key b))
    (ht : ∀ a b, c.compare? (key' (g a)) (key' (g b)) = c.compare? (key a) (key b))
    (xs : List α) : arrange c key' (xs.map g) = (arrange c key xs).map g := by
  unfold arrange
  split
  · rfl
  · have hsort : (xs.mergeSort fun a b => c.sortOrder (key a) (key b) != .gt).map g =
        (xs.map g).mergeSort fun a b => c.sortOrder (key' a) (key' b) != .gt := by
      refine List.map_mergeSort fun a _ b _ => ?_
      rw [hs]
    rw [← hsort]
    exact dropTies_map _ (fun a b => by rw [ht]) _

end Arrange

end RemoteCall
