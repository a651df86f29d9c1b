import RemoteCall.Proofs.Value.Built

/-!
# Nesting depth

The depth of a value is the number of containers on the longest way into it, shared instances
followed like any other. Where some containers are marked as repeats, by odd instance numbers, the
fresh depth stops in front of them. The two tell apart what was written one inside the other from
what was put inside by a reference: a value is as deep as its fresh depth, or as some repeat in it
makes it.
-/

namespace RemoteCall

namespace Value

mutual

/-- The number of containers on the longest way into a value that ends in front of cut ones. -/
def depthUpTo (cut : Nat → Bool) : Value → Nat
  | null => 0
  | scalar _ => 0
  | variant _ _ => 0
  | collection id _ items => if cut id then 0 else depthUpToOf cut items + 1
  | map id _ entries => if cut id then 0 else depthUpToOfEntries cut entries + 1
  | object id _ fields => if cut id then 0 else depthUpToOf cut fields + 1

/-- The greatest depth of values. -/
def depthUpToOf (cut : Nat → Bool) : List Value → Nat
  | [] => 0
  | v :: vs => max (v.depthUpTo cut) (depthUpToOf cut vs)

/-- The greatest depth of keys and values. -/
def depthUpToOfEntries (cut : Nat → Bool) : List (Value × Value) → Nat
  | [] => 0
  | (k, v) :: rest => max (max (k.depthUpTo cut) (v.depthUpTo cut)) (depthUpToOfEntries cut rest)

end

/-- The number of containers on the longest way into a value. -/
def depth (v : Value) : Nat := v.depthUpTo fun _ => false

/-- The number of a container, tracked or not. -/
def containerId? : Value → Option Nat
  | collection id _ _ => some id
  | map id _ _ => some id
  | object id _ _ => some id
  | _ => none

section Cut

variable {cut : Nat → Bool} {limit : Nat}

/-- Values keep to a depth if each of them does. -/
theorem depthUpToOf_le_iff {vs : List Value} :
    depthUpToOf cut vs ≤ limit ↔ ∀ v ∈ vs, v.depthUpTo cut ≤ limit := by
  induction vs with
  | nil =>
    rw [depthUpToOf]
    exact ⟨fun _ v hv => absurd hv List.not_mem_nil, fun _ => Nat.zero_le _⟩
  | cons v vs ih => rw [depthUpToOf, Nat.max_le, ih, List.forall_mem_cons]

/-- Entries are as deep as their keys and values. -/
theorem depthUpToOfEntries_eq (entries : List (Value × Value)) :
    depthUpToOfEntries cut entries = depthUpToOf cut (entries.flatMap fun e => [e.1, e.2]) := by
  induction entries with
  | nil => rfl
  | cons e entries ih =>
    obtain ⟨k, v⟩ := e
    rw [depthUpToOfEntries, ih, Nat.max_assoc]
    rfl

/-- A container that is not cut is one deeper than the deepest of its parts. -/
theorem depthUpTo_of_container {v : Value} {id : Nat} (hv : v.containerId? = some id) :
    v.depthUpTo cut = if cut id then 0 else depthUpToOf cut v.children + 1 := by
  cases v with
  | null => cases hv
  | scalar s => cases hv
  | variant c i => cases hv
  | collection id' form items =>
    cases hv
    rfl
  | object id' c fields =>
    cases hv
    rfl
  | map id' form entries =>
    cases hv
    rw [depthUpTo, depthUpToOfEntries_eq]
    rfl

/-- A container that is not cut is within a limit if its parts are within one less. -/
theorem depthUpTo_le_succ_iff {v : Value} {id : Nat} (hv : v.containerId? = some id)
    (hcut : cut id = false) :
    v.depthUpTo cut ≤ limit + 1 ↔ ∀ w ∈ v.children, w.depthUpTo cut ≤ limit := by
  rw [depthUpTo_of_container hv, hcut, if_neg Bool.false_ne_true, Nat.add_le_add_iff_right,
    depthUpToOf_le_iff]

/-- A container that is not cut has a depth. -/
theorem depthUpTo_pos {v : Value} {id : Nat} (hv : v.containerId? = some id)
    (hcut : cut id = false) : 0 < v.depthUpTo cut := by
  rw [depthUpTo_of_container hv, hcut, if_neg Bool.false_ne_true]
  exact Nat.succ_pos _

/-- A cut container has no depth. -/
theorem depthUpTo_eq_zero_of_cut {v : Value} {id : Nat} (hv : v.containerId? = some id)
    (hcut : cut id = true) : v.depthUpTo cut = 0 := by
  rw [depthUpTo_of_container hv, hcut, if_pos rfl]

/-- What is no container has no depth. -/
theorem depthUpTo_eq_zero {v : Value} (hv : v.containerId? = none) : v.depthUpTo cut = 0 := by
  cases v with
  | null => rfl
  | scalar s => rfl
  | variant c i => rfl
  | collection id form items => cases hv
  | map id form entries => cases hv
  | object id c fields => cases hv

/-- Only containers have parts. -/
theorem exists_containerId?_of_mem_children {v w : Value} (hw : w ∈ v.children) :
    ∃ id, v.containerId? = some id := by
  cases v with
  | null => cases hw
  | scalar s => cases hw
  | variant c i => cases hw
  | collection id form items => exact ⟨id, rfl⟩
  | map id form entries => exact ⟨id, rfl⟩
  | object id c fields => exact ⟨id, rfl⟩

/-- A value within the limit up to its cut containers is within the limit if each of those is,
where it stands. -/
theorem depth_le_of_cut (v : Value) : ∀ limit, v.depthUpTo cut ≤ limit →
    (∀ path w id, v.at? path = some w → w.containerId? = some id → cut id = true →
      path.length + w.depth ≤ limit) → v.depth ≤ limit := by
  induction v using byChildren with
  | step v ih =>
    intro limit hle hcut
    cases hv : v.containerId? with
    | none =>
      rw [depth, depthUpTo_eq_zero hv]
      exact Nat.zero_le _
    | some id =>
      cases hid : cut id with
      | true =>
        have h := hcut [] v id rfl hv hid
        rwa [List.length_nil, Nat.zero_add] at h
      | false =>
        have hpos := depthUpTo_pos hv hid
        obtain ⟨left, rfl⟩ : ∃ left, limit = left + 1 := ⟨limit - 1, by omega⟩
        have hparts := (depthUpTo_le_succ_iff hv hid).mp hle
        refine (depthUpTo_le_succ_iff hv rfl).mpr fun w hw => ?_
        refine ih w hw left (hparts w hw) fun path u id' hu hu' hid' => ?_
        obtain ⟨i, hi, hiw⟩ := List.mem_iff_getElem.mp hw
        have hat : v.at? (i :: path) = some u := by
          rw [at?, List.getElem?_eq_getElem hi, Option.bind_some, hiw, hu]
        have h := hcut (i :: path) u id' hat hu' hid'
        rw [List.length_cons] at h
        omega

end Cut

/-- A value is at least as deep as what stands in it, with the way to it. -/
theorem length_add_depth_le {v w : Value} {path : List Nat} (h : v.at? path = some w) :
    path.length + w.depth ≤ v.depth := by
  induction path generalizing v with
  | nil =>
    cases h
    rw [List.length_nil, Nat.zero_add]
  | cons i path ih =>
    rw [at?] at h
    obtain ⟨child, hchild, hpath⟩ := Option.bind_eq_some_iff.mp h
    have hmem := List.mem_of_getElem? hchild
    obtain ⟨id, hid⟩ := exists_containerId?_of_mem_children hmem
    have hpos : 0 < v.depth := depthUpTo_pos hid rfl
    obtain ⟨left, hleft⟩ : ∃ left, v.depth = left + 1 := ⟨v.depth - 1, by omega⟩
    have hle := (depthUpTo_le_succ_iff hid rfl).mp (Nat.le_of_eq hleft) child hmem
    have h' := ih hpath
    rw [List.length_cons]
    change child.depth ≤ left at hle
    omega

/-- A renumbered container is a container. -/
theorem containerId?_renumber (f : Nat → Nat) (v : Value) :
    (v.renumber f).containerId?.isSome = v.containerId?.isSome := by
  cases v <;> rfl

/-- Renumbering keeps the depth within a limit. -/
theorem depth_renumber_le_iff (f : Nat → Nat) (v : Value) :
    ∀ limit, (v.renumber f).depth ≤ limit ↔ v.depth ≤ limit := by
  induction v using byChildren with
  | step v ih =>
    intro limit
    have hsome := containerId?_renumber f v
    cases hv : v.containerId? with
    | none =>
      rw [hv, Option.isSome_none, Option.isSome_eq_false_iff, Option.isNone_iff_eq_none] at hsome
      rw [depth, depth, depthUpTo_eq_zero hsome, depthUpTo_eq_zero hv]
    | some id =>
      rw [hv, Option.isSome_some, Option.isSome_iff_exists] at hsome
      obtain ⟨id', hv'⟩ := hsome
      have hpos : 0 < v.depth := depthUpTo_pos hv rfl
      have hpos' : 0 < (v.renumber f).depth := depthUpTo_pos hv' rfl
      cases limit with
      | zero => omega
      | succ left =>
        rw [depth, depth, depthUpTo_le_succ_iff hv' rfl, depthUpTo_le_succ_iff hv rfl,
          children_renumber]
        constructor
        · intro h w hw
          exact (ih w hw left).mp (h _ (List.mem_map_of_mem hw))
        · intro h w hw
          obtain ⟨u, hu, rfl⟩ := List.mem_map.mp hw
          exact (ih u hu left).mpr (h u hu)

/-- Renumbering keeps the depth. -/
theorem depth_renumber (f : Nat → Nat) (v : Value) : (v.renumber f).depth = v.depth :=
  Nat.le_antisymm ((depth_renumber_le_iff f v _).mpr (Nat.le_refl _))
    ((depth_renumber_le_iff f v _).mp (Nat.le_refl _))

/-- Whether a number is that of a repeat; what is written where it stands has an even one. -/
def isRepeat (id : Nat) : Bool := id % 2 == 1

/-- The container as a repeat of itself. -/
def markRepeat : Value → Value
  | collection id form items => collection (2 * (id / 2) + 1) form items
  | map id form entries => map (2 * (id / 2) + 1) form entries
  | object id c fields => object (2 * (id / 2) + 1) c fields
  | v => v

/-- The value without marks. -/
def unmark (v : Value) : Value := v.renumber (· / 2)

/-- The depth of what is written one inside the other. -/
def freshDepth (v : Value) : Nat := v.depthUpTo isRepeat

/-- A marked container is one. -/
theorem isRepeat_mark (n : Nat) : isRepeat (2 * n + 1) = true := by
  have h : (2 * n + 1) % 2 = 1 := by omega
  exact beq_iff_eq.mpr h

/-- A repeat adds nothing to the fresh depth. -/
theorem freshDepth_markRepeat (v : Value) : v.markRepeat.freshDepth = 0 := by
  cases v with
  | collection id form items => exact depthUpTo_eq_zero_of_cut rfl (isRepeat_mark (id / 2))
  | map id form entries => exact depthUpTo_eq_zero_of_cut rfl (isRepeat_mark (id / 2))
  | object id c fields => exact depthUpTo_eq_zero_of_cut rfl (isRepeat_mark (id / 2))
  | null => rfl
  | scalar s => rfl
  | variant c i => rfl

/-- A mark is taken off again. -/
theorem unmark_markRepeat (v : Value) : v.markRepeat.unmark = v.unmark := by
  have h (n : Nat) : (2 * (n / 2) + 1) / 2 = n / 2 := by omega
  cases v with
  | collection id form items => rw [markRepeat, unmark, unmark, renumber, renumber, h]
  | map id form entries => rw [markRepeat, unmark, unmark, renumber, renumber, h]
  | object id c fields => rw [markRepeat, unmark, unmark, renumber, renumber, h]
  | null => rfl
  | scalar s => rfl
  | variant c i => rfl

/-- A value is at most one deeper than its parts. -/
theorem freshDepth_le_succ {v : Value} {limit : Nat}
    (h : ∀ w ∈ v.children, w.freshDepth ≤ limit) : v.freshDepth ≤ limit + 1 := by
  cases hv : v.containerId? with
  | none =>
    rw [freshDepth, depthUpTo_eq_zero hv]
    exact Nat.zero_le _
  | some id =>
    cases hid : isRepeat id with
    | true =>
      rw [freshDepth, depthUpTo_eq_zero_of_cut hv hid]
      exact Nat.zero_le _
    | false => exact (depthUpTo_le_succ_iff hv hid).mpr h

/-- A value whose fresh depth is within a limit is within the limit exactly if no repeat in it is
too deep for the place where it stands. -/
theorem depth_unmark_le_iff {v : Value} {limit : Nat} (h : v.freshDepth ≤ limit) :
    v.unmark.depth ≤ limit ↔ ∀ path w id, v.at? path = some w → w.containerId? = some id →
      isRepeat id = true → path.length + w.depth ≤ limit := by
  rw [unmark, depth_renumber]
  constructor
  · intro hle path w id hw _ _
    exact Nat.le_trans (length_add_depth_le hw) hle
  · exact depth_le_of_cut v limit h

end Value

end RemoteCall
