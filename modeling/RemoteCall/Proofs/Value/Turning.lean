import Mathlib.Data.List.Perm.Basic
import Mathlib.Data.List.SplitBy
import Mathlib.Data.List.TakeWhile
import RemoteCall.Proofs.Value.Arrange
import RemoteCall.Proofs.Value.Comparison

/-!
# Arranging from behind turns ties round

A sorted list falls into runs of elements that tie in the sorting order. Arranging an arranged list
from behind keeps the runs in their order and turns each of them round, since sorting is stable and
no two elements of an arranged list, neighbours or not, compare equal. So it changes nothing exactly
if every run reads the same from behind, and doing it twice always changes nothing.
-/

namespace RemoteCall

section Runs

variable {α : Type} (c : Comparator) (key : α → Value)

/-- Whether two elements tie in the sorting order. -/
def tied (a b : α) : Bool := c.sortOrder (key a) (key b) == .eq

/-- The longest stretches of elements that tie. -/
def tieRuns (xs : List α) : List (List α) := xs.splitBy (tied c key)

/-- The list with each run of ties turned round. -/
def turnTies (xs : List α) : List α := (tieRuns c key xs).flatMap List.reverse

/-- A list that is sorted by a comparator. -/
def Sorted (xs : List α) : Prop := xs.Pairwise fun a b => c.sortOrder (key a) (key b) ≠ .gt

/-- A run of ties in front of later elements. -/
structure RunBefore (run rest : List α) : Prop where
  ne_nil : run ≠ []
  ties : ∀ a ∈ run, ∀ b ∈ run, c.sortOrder (key a) (key b) = .eq
  below : ∀ a ∈ run, ∀ b ∈ rest, c.sortOrder (key a) (key b) = .lt

/-- A list that consists of runs, each before the elements after it. -/
inductive InRuns : List α → Prop
  | nil : InRuns []
  | append {run rest : List α} (first : RunBefore c key run rest) (others : InRuns rest) :
    InRuns (run ++ rest)

variable {c key} {run rest xs : List α}

/-- Two elements tie if neither is sorted before the other. -/
theorem tied_iff {a b : α} : tied c key a b = true ↔ c.sortOrder (key a) (key b) = .eq :=
  beq_iff_eq

/-- A sorted list begins with a run. -/
theorem Sorted.exists_runBefore {x : α} (h : Sorted c key (x :: xs)) :
    ∃ run rest, x :: xs = run ++ rest ∧ RunBefore c key run rest ∧ Sorted c key rest := by
  obtain ⟨hx, hxs⟩ := List.pairwise_cons.mp h
  have hrest : Sorted c key (xs.dropWhile (tied c key x)) := hxs.sublist (List.dropWhile_sublist _)
  have hties : ∀ a ∈ x :: xs.takeWhile (tied c key x), c.sortOrder (key x) (key a) = .eq := by
    intro a ha
    rcases List.mem_cons.mp ha with rfl | ha
    · exact Std.ReflCmp.compare_self
    · exact tied_iff.mp (List.mem_takeWhile_imp ha)
  have hbelow : ∀ b ∈ xs.dropWhile (tied c key x), c.sortOrder (key x) (key b) = .lt := by
    cases hd : xs.dropWhile (tied c key x) with
    | nil => exact fun b hb => absurd hb List.not_mem_nil
    | cons y ys =>
      have hne : xs.dropWhile (tied c key x) ≠ [] := hd ▸ List.cons_ne_nil y ys
      have hy : tied c key x y = false := by
        simpa only [hd, List.head_cons] using List.head_dropWhile_not (tied c key x) hne
      have hxy : c.sortOrder (key x) (key y) = .lt := by
        have hmem : y ∈ xs := (List.dropWhile_sublist _).mem (hd ▸ List.mem_cons_self)
        have hle := hx y hmem
        have hne : c.sortOrder (key x) (key y) ≠ .eq := by simpa [tied] using hy
        cases ho : c.sortOrder (key x) (key y) with
        | lt => rfl
        | eq => exact absurd ho hne
        | gt => exact absurd ho hle
      rw [hd] at hrest
      intro b hb
      rcases List.mem_cons.mp hb with rfl | hb
      · exact hxy
      · have hyb := (List.pairwise_cons.mp hrest).1 b hb
        exact Std.TransCmp.lt_of_lt_of_isLE hxy (Ordering.ne_gt_iff_isLE.mp hyb)
  refine ⟨x :: xs.takeWhile (tied c key x), xs.dropWhile (tied c key x), ?_, ⟨?_, ?_, ?_⟩, hrest⟩
  · rw [List.cons_append, List.takeWhile_append_dropWhile]
  · exact List.cons_ne_nil _ _
  · exact fun a ha b hb => Std.TransCmp.eq_trans (Std.OrientedCmp.eq_symm (hties a ha)) (hties b hb)
  · exact fun a ha b hb =>
      Std.TransCmp.lt_of_eq_of_lt (Std.OrientedCmp.eq_symm (hties a ha)) (hbelow b hb)

/-- A sorted list consists of runs. -/
theorem Sorted.inRuns (h : Sorted c key xs) : InRuns c key xs := by
  induction hn : xs.length using Nat.strongRecOn generalizing xs with
  | ind n ih =>
    cases xs with
    | nil => exact .nil
    | cons x xs =>
      obtain ⟨run, rest, he, hrun, hrest⟩ := h.exists_runBefore
      have hpos := List.length_pos_of_ne_nil hrun.ne_nil
      rw [he, List.length_append] at hn
      rw [he]
      exact .append hrun (ih rest.length (by omega) hrest rfl)

/-- The runs of a run and a rest. -/
theorem RunBefore.tieRuns_append (h : RunBefore c key run rest) :
    tieRuns c key (run ++ rest) = run :: tieRuns c key rest := by
  have hchain : run.IsChain fun a b => tied c key a b = true :=
    List.Pairwise.isChain (List.pairwise_of_forall_mem_list fun a ha b hb =>
      tied_iff.mpr (h.ties a ha b hb))
  rw [tieRuns, List.splitBy_append, List.splitBy_of_isChain h.ne_nil hchain]
  · rfl
  · intro a ha b hb
    rw [tied, h.below a (List.mem_of_getLast? ha) b (List.mem_of_head? hb)]
    rfl

/-- Turning ties round turns the first run round. -/
theorem RunBefore.turnTies_append (h : RunBefore c key run rest) :
    turnTies c key (run ++ rest) = run.reverse ++ turnTies c key rest := by
  rw [turnTies, h.tieRuns_append, List.flatMap_cons]
  rfl

/-- Turning ties round only moves elements. -/
theorem turnTies_perm (c : Comparator) (key : α → Value) (xs : List α) :
    (turnTies c key xs).Perm xs := by
  have h : ((tieRuns c key xs).flatMap List.reverse).Perm ((tieRuns c key xs).flatMap id) :=
    List.Perm.flatMap_left _ fun run _ => run.reverse_perm
  rwa [List.flatMap_id, tieRuns, List.flatten_splitBy] at h

/-- A run stands before the later elements in any order. -/
theorem RunBefore.turned (h : RunBefore c key run rest) :
    RunBefore c key run.reverse (turnTies c key rest) := by
  refine ⟨List.reverse_ne_nil_iff.mpr h.ne_nil, fun a ha b hb => ?_, fun a ha b hb => ?_⟩
  · exact h.ties a (List.mem_reverse.mp ha) b (List.mem_reverse.mp hb)
  · exact h.below a (List.mem_reverse.mp ha) b ((turnTies_perm c key rest).mem_iff.mp hb)

/-- A list in runs is sorted. -/
theorem InRuns.sorted (h : InRuns c key xs) : Sorted c key xs := by
  induction h with
  | nil => exact .nil
  | append first _ ih =>
    refine List.pairwise_append.mpr ⟨?_, ih, fun a ha b hb => ?_⟩
    · refine List.pairwise_of_forall_mem_list fun a ha b hb => ?_
      rw [first.ties a ha b hb]
      decide
    · rw [first.below a ha b hb]
      decide

/-- Ties that are turned round stay in runs. -/
theorem InRuns.turnTies (h : InRuns c key xs) : InRuns c key (turnTies c key xs) := by
  induction h with
  | nil => exact .nil
  | append first _ ih =>
    rw [first.turnTies_append]
    exact .append first.turned ih

/-- Turned round twice, ties stand as they stood. -/
theorem InRuns.turnTies_turnTies (h : InRuns c key xs) :
    RemoteCall.turnTies c key (RemoteCall.turnTies c key xs) = xs := by
  induction h with
  | nil => rfl
  | append first _ ih =>
    rw [first.turnTies_append, first.turned.turnTies_append, List.reverse_reverse, ih]

/-- Turning ties round turns round the elements that tie with any one. -/
theorem InRuns.filter_turnTies (h : InRuns c key xs) (x : α) :
    (RemoteCall.turnTies c key xs).filter (tied c key x) = (xs.filter (tied c key x)).reverse := by
  induction h with
  | nil => rfl
  | @append run rest first _ ih =>
    rw [first.turnTies_append, List.filter_append, List.filter_append, ih, List.filter_reverse,
      List.reverse_append]
    -- either no element of the run ties with the one given, or none behind the run does
    by_cases hrun : ∃ a ∈ run, tied c key x a = true
    · obtain ⟨a, ha, htie⟩ := hrun
      have hnone : rest.filter (tied c key x) = [] := by
        refine List.filter_eq_nil_iff.mpr fun b hb => ?_
        have hlt := Std.TransCmp.lt_of_eq_of_lt (tied_iff.mp htie) (first.below a ha b hb)
        rw [tied, hlt]
        decide
      rw [hnone, List.reverse_nil, List.append_nil, List.nil_append]
    · have hnone : run.filter (tied c key x) = [] :=
        List.filter_eq_nil_iff.mpr fun a ha htie => hrun ⟨a, ha, htie⟩
      rw [hnone, List.reverse_nil, List.append_nil, List.nil_append]

/-- Turning ties round changes nothing exactly if every run reads the same from behind. -/
theorem turnTies_eq_self_iff :
    turnTies c key xs = xs ↔ ∀ run ∈ tieRuns c key xs, run.reverse = run := by
  have hlengths : ((tieRuns c key xs).map List.reverse).map List.length =
      (tieRuns c key xs).map List.length := by
    rw [List.map_map]
    exact List.map_congr_left fun run _ => List.length_reverse
  have hflatten : (tieRuns c key xs).flatten = xs := List.flatten_splitBy _ _
  have hiff : (tieRuns c key xs).map List.reverse = tieRuns c key xs ↔ turnTies c key xs = xs := by
    rw [List.eq_iff_flatten_eq, hflatten, turnTies, List.flatMap_def, and_iff_left hlengths]
  have hid : (tieRuns c key xs).map id = tieRuns c key xs := List.map_id _
  rw [← hiff]
  nth_rewrite 2 [← hid]
  exact List.map_inj_left

end Runs

section Stable

variable {α : Type} {c : Comparator} {key : α → Value} {xs ys : List α}

/-- Sorted lists in which the elements that tie with any one stand in the same order are equal. -/
theorem Sorted.eq_of_filter_eq (hx : Sorted c key xs) (hy : Sorted c key ys)
    (h : ∀ x, xs.filter (tied c key x) = ys.filter (tied c key x)) : xs = ys := by
  have hself (a : α) : tied c key a a = true := tied_iff.mpr Std.ReflCmp.compare_self
  induction xs generalizing ys with
  | nil =>
    cases ys with
    | nil => rfl
    | cons y ys =>
      have hnil := h y
      rw [List.filter_cons_of_pos (hself y)] at hnil
      cases hnil
  | cons x xs ih =>
    cases ys with
    | nil =>
      have hnil := h x
      rw [List.filter_cons_of_pos (hself x)] at hnil
      cases hnil
    | cons y ys =>
      have hle {z w : α} {zs ws : List α} (hz : Sorted c key (z :: zs))
          (hf : (z :: zs).filter (tied c key w) = (w :: ws).filter (tied c key w)) :
          c.sortOrder (key z) (key w) ≠ .gt := by
        have hmem : w ∈ z :: zs := by
          refine (List.mem_filter.mp (?_ : w ∈ (z :: zs).filter (tied c key w))).1
          rw [hf, List.filter_cons_of_pos (hself w)]
          exact List.mem_cons_self
        rcases List.mem_cons.mp hmem with rfl | hmem
        · exact Ordering.ne_gt_iff_isLE.mpr Std.ReflCmp.isLE_rfl
        · exact (List.pairwise_cons.mp hz).1 w hmem
      have htie : c.sortOrder (key x) (key y) = .eq :=
        Comparator.sortOrder_antisymm (hle hx (h y)) (hle hy (h x).symm)
      have hhead := h x
      rw [List.filter_cons_of_pos (hself x), List.filter_cons_of_pos (tied_iff.mpr htie)] at hhead
      obtain ⟨rfl, -⟩ := List.cons.inj hhead
      refine congrArg _ (ih (List.pairwise_cons.mp hx).2 (List.pairwise_cons.mp hy).2 fun z => ?_)
      have hz := h z
      rw [List.filter_cons, List.filter_cons] at hz
      split at hz
      · exact (List.cons.inj hz).2
      · exact hz

/-- Sorting keeps the order of the elements that tie with any one. -/
theorem filter_mergeSort (xs : List α) (x : α) :
    (xs.mergeSort fun a b => c.sortOrder (key a) (key b) != .gt).filter (tied c key x) =
      xs.filter (tied c key x) := by
  have hties : (xs.filter (tied c key x)).Pairwise fun a b =>
      (c.sortOrder (key a) (key b) != .gt) = true := by
    refine List.pairwise_of_forall_mem_list fun a ha b hb => ?_
    have hxa := tied_iff.mp (List.mem_filter.mp ha).2
    have hxb := tied_iff.mp (List.mem_filter.mp hb).2
    rw [Std.TransCmp.eq_trans (Std.OrientedCmp.eq_symm hxa) hxb]
    decide
  have hsub := (List.sublist_mergeSort c.sortOrder_trans c.sortOrder_total hties
    List.filter_sublist).filter (tied c key x)
  rw [List.filter_filter] at hsub
  simp only [Bool.and_self] at hsub
  exact (hsub.eq_of_length (((List.mergeSort_perm _ _).filter _).length_eq.symm)).symm

/-- Sorting a sorted list from behind turns ties round. -/
theorem Sorted.mergeSort_reverse (h : Sorted c key xs) :
    xs.reverse.mergeSort (fun a b => c.sortOrder (key a) (key b) != .gt) = turnTies c key xs := by
  have hsorted : Sorted c key (xs.reverse.mergeSort fun a b =>
      c.sortOrder (key a) (key b) != .gt) :=
    (List.pairwise_mergeSort c.sortOrder_trans c.sortOrder_total xs.reverse).imp
      fun h => bne_iff_ne.mp h
  refine hsorted.eq_of_filter_eq h.inRuns.turnTies.sorted fun x => ?_
  rw [filter_mergeSort, h.inRuns.filter_turnTies, List.filter_reverse]

end Stable

namespace Arranged

variable {α : Type} {c : Comparator} {key : α → Value} {xs : List α}

/-- No two elements compare equal, wherever they stand. -/
theorem pairwise_untied (h : Arranged c key xs) :
    xs.Pairwise fun a b => c.compare? (key a) (key b) ≠ some .eq := by
  obtain ⟨hsorted, huntied⟩ := h
  induction xs with
  | nil => exact .nil
  | cons x xs ih =>
    obtain ⟨hx, hxs⟩ := List.pairwise_cons.mp hsorted
    refine List.pairwise_cons.mpr ⟨?_, ih hxs huntied.tail⟩
    cases xs with
    | nil => exact fun b hb => absurd hb List.not_mem_nil
    | cons y ys =>
      have hxy : c.compare? (key x) (key y) ≠ some .eq := by
        simpa using (List.isChain_cons_cons.mp huntied).1
      intro b hb heq
      rcases List.mem_cons.mp hb with rfl | hmem
      · exact hxy heq
      · have hle := Ordering.ne_gt_iff_isLE.mp (hx y List.mem_cons_self)
        have hle' := Ordering.ne_gt_iff_isLE.mp ((List.pairwise_cons.mp hxs).1 b hmem)
        exact hxy (c.compare?_eq_between heq hle hle')

/-- An arranged list stays arranged when its ties are turned round. -/
theorem turnTies (h : Arranged c key xs) : Arranged c key (turnTies c key xs) := by
  have hsymm {a b : α} (hab : c.compare? (key a) (key b) ≠ some .eq) :
      c.compare? (key b) (key a) ≠ some .eq := fun he => hab (c.compare?_eq_symm he)
  have hpairs := ((turnTies_perm c key xs).pairwise_iff hsymm).mpr h.pairwise_untied
  refine ⟨(Sorted.inRuns h.sorted).turnTies.sorted, List.Pairwise.isChain (hpairs.imp ?_)⟩
  intro a b hab
  simpa using hab

/-- An arranged list is arranged from behind into itself with its ties turned round. -/
theorem arrange_reverse_eq (h : Arranged c key xs) :
    arrange c key xs.reverse = RemoteCall.turnTies c key xs := by
  have hsorted : Sorted c key xs := h.sorted
  have hturned := hsorted.mergeSort_reverse
  by_cases hc : c.isCustom = true
  · -- a custom comparator ties all elements, so sorting by it would change nothing
    rw [← hturned, List.mergeSort_of_pairwise, arrange, if_pos hc]
    refine List.pairwise_of_forall fun a b => ?_
    rw [c.sortOrder_of_isCustom hc]
    decide
  · rw [arrange, if_neg hc, hturned, dropTies_eq_self _ h.turnTies.untied]

/-- An arranged list without ties in the sorting order is arranged into itself from behind. -/
theorem arrange_reverse (h : Arranged c key xs)
    (hne : xs.Pairwise fun a b => c.sortOrder (key a) (key b) ≠ .eq) :
    arrange c key xs.reverse = xs := by
  rw [h.arrange_reverse_eq]
  refine turnTies_eq_self_iff.mpr fun run hrun => ?_
  have hsub : run.Sublist xs := by
    have h := List.sublist_flatten_of_mem hrun
    rwa [tieRuns, List.flatten_splitBy] at h
  match run, List.isChain_of_mem_splitBy hrun, hne.sublist hsub with
  | [], _, _ => rfl
  | [a], _, _ => rfl
  | a :: b :: run, hties, hne =>
    have htie := tied_iff.mp (List.isChain_cons_cons.mp hties).1
    exact absurd htie ((List.pairwise_cons.mp hne).1 b List.mem_cons_self)

end Arranged

end RemoteCall
