import Mathlib.Data.List.Dedup
import RemoteCall.Value.Identity
import RemoteCall.Value.Order

/-!
# Graphs of values

Values side by side form a graph. A place in it is a path: the position of a root, then positions
of children from the outside in. Two places share an instance when they hold tracked containers of
one number, and a graph makes sense when such places hold the same thing. Renumbering the instances
by an injection changes neither the contents nor what is shared.

Arrays of a scalar type are no instances: they are written in place, as scalars are.
-/

namespace RemoteCall

namespace Value

/-- The parts of a value; a key stands before its value. -/
def children : Value → List Value
  | collection _ _ items => items
  | map _ _ entries => entries.flatMap fun e => [e.1, e.2]
  | object _ _ fields => fields
  | _ => []

/-- A key and its value are parts of their map. -/
theorem mem_children_of_entry {id : Nat} {form : MapForm} {pairs : List (Value × Value)}
    {e : Value × Value} (he : e ∈ pairs) :
    e.1 ∈ (map id form pairs).children ∧ e.2 ∈ (map id form pairs).children :=
  ⟨List.mem_flatMap.mpr ⟨e, he, List.mem_cons_self⟩,
    List.mem_flatMap.mpr ⟨e, he, List.mem_cons_of_mem _ List.mem_cons_self⟩⟩

/-- The value at the end of a path of positions. -/
def at? (v : Value) : List Nat → Option Value
  | [] => some v
  | i :: path => v.children[i]?.bind fun child => at? child path

/-- The number of the instance that a value is, if instances like it keep their identity. -/
def instanceId? : Value → Option Nat
  | collection id form _ => if form.isTracked then some id else none
  | map id _ _ => some id
  | object id _ _ => some id
  | _ => none

/-- A path followed by one more position. -/
theorem at?_concat (v : Value) (path : List Nat) (i : Nat) :
    v.at? (path ++ [i]) = (v.at? path).bind fun w => w.children[i]? := by
  induction path generalizing v with
  | nil =>
    rw [List.nil_append, at?, at?, Option.bind_some]
    cases v.children[i]? with
    | none => rfl
    | some child => rfl
  | cons j path ih =>
    rw [List.cons_append, at?, at?]
    cases v.children[j]? with
    | none => rfl
    | some child => exact ih child

/-- A part is smaller than the whole. -/
theorem sizeOf_lt_of_mem_children {v w : Value} (h : w ∈ v.children) : sizeOf w < sizeOf v := by
  cases v with
  | null => cases h
  | scalar s => cases h
  | variant c i => cases h
  | collection id form items =>
    have hlt : sizeOf w < sizeOf items := List.sizeOf_lt_of_mem h
    rw [collection.sizeOf_spec]
    omega
  | map id form entries =>
    obtain ⟨e, he, hw⟩ := List.mem_flatMap.mp h
    have hlt := List.sizeOf_lt_of_mem he
    have hpair : sizeOf e = 1 + sizeOf e.1 + sizeOf e.2 := by
      cases e
      rfl
    rw [map.sizeOf_spec]
    rcases List.mem_cons.mp hw with rfl | hw
    · omega
    · rw [List.mem_singleton.mp hw]
      omega
  | object id c fields =>
    have hlt : sizeOf w < sizeOf fields := List.sizeOf_lt_of_mem h
    rw [object.sizeOf_spec]
    omega

/-- What holds of a value whenever it holds of its children holds of every value. -/
@[elab_as_elim]
theorem byChildren {motive : Value → Prop}
    (step : ∀ v, (∀ w ∈ v.children, motive w) → motive v) (v : Value) : motive v := by
  induction hn : sizeOf v using Nat.strongRecOn generalizing v with
  | ind n ih =>
    refine step v fun w hw => ?_
    exact ih (sizeOf w) (hn ▸ sizeOf_lt_of_mem_children hw) w rfl

mutual

/-- The numbers of the instances in a value, once for each place. -/
def instances : Value → List Nat
  | null => []
  | scalar _ => []
  | variant _ _ => []
  | collection id form items =>
    if form.isTracked then id :: instancesOf items else instancesOf items
  | map id _ entries => id :: instancesOfEntries entries
  | object id _ fields => id :: instancesOf fields

/-- The numbers of the instances in values. -/
def instancesOf : List Value → List Nat
  | [] => []
  | v :: vs => v.instances ++ instancesOf vs

/-- The numbers of the instances in entries. -/
def instancesOfEntries : List (Value × Value) → List Nat
  | [] => []
  | (k, v) :: rest => k.instances ++ v.instances ++ instancesOfEntries rest

end

/-- A value by itself has its own instances. -/
theorem instancesOf_singleton (v : Value) : instancesOf [v] = v.instances := List.append_nil _

mutual

/-- The value with its instances renumbered. -/
def renumber (f : Nat → Nat) : Value → Value
  | null => null
  | scalar s => scalar s
  | variant c i => variant c i
  | collection id form items =>
    collection (if form.isTracked then f id else 0) form (renumberItems f items)
  | map id form entries => map (f id) form (renumberEntries f entries)
  | object id c fields => object (f id) c (renumberItems f fields)

/-- Values with their instances renumbered. -/
def renumberItems (f : Nat → Nat) : List Value → List Value
  | [] => []
  | v :: vs => v.renumber f :: renumberItems f vs

/-- Entries with their instances renumbered. -/
def renumberEntries (f : Nat → Nat) : List (Value × Value) → List (Value × Value)
  | [] => []
  | (k, v) :: rest => (k.renumber f, v.renumber f) :: renumberEntries f rest

end

section Renumber

variable (f : Nat → Nat)

/-- Values are renumbered one by one. -/
theorem renumberItems_eq_map (vs : List Value) : renumberItems f vs = vs.map (renumber f) := by
  induction vs with
  | nil => rfl
  | cons v vs ih => rw [renumberItems, ih, List.map_cons]

/-- Entries are renumbered key by key and value by value. -/
theorem renumberEntries_eq_map (entries : List (Value × Value)) :
    renumberEntries f entries = entries.map fun e => (e.1.renumber f, e.2.renumber f) := by
  induction entries with
  | nil => rfl
  | cons e entries ih =>
    obtain ⟨k, v⟩ := e
    rw [renumberEntries, ih, List.map_cons]

/-- The parts of a renumbered value are the renumbered parts. -/
theorem children_renumber (v : Value) :
    (v.renumber f).children = v.children.map (renumber f) := by
  cases v with
  | null => rfl
  | scalar s => rfl
  | variant c i => rfl
  | collection id form items => exact renumberItems_eq_map f items
  | object id c fields => exact renumberItems_eq_map f fields
  | map id form entries =>
    rw [renumber, children, children, renumberEntries_eq_map, List.flatMap_map, List.map_flatMap]
    rfl

/-- Renumbering keeps paths. -/
theorem at?_renumber (v : Value) (path : List Nat) :
    (v.renumber f).at? path = (v.at? path).map (renumber f) := by
  induction path generalizing v with
  | nil => rfl
  | cons i path ih =>
    rw [at?, at?, children_renumber, List.getElem?_map]
    cases v.children[i]? with
    | none => rfl
    | some child => exact ih child

/-- A renumbered instance has the new number. -/
theorem instanceId?_renumber (v : Value) : (v.renumber f).instanceId? = v.instanceId?.map f := by
  cases v with
  | collection id form items =>
    rw [renumber, instanceId?, instanceId?]
    cases form.isTracked with
    | true => rfl
    | false => rfl
  | null => rfl
  | scalar s => rfl
  | variant c i => rfl
  | map id form entries => rfl
  | object id c fields => rfl

/-- Renumbering all values of a list keeps what keeps the contents of each. -/
theorem bareItems_renumberItems {vs : List Value} (h : ∀ v ∈ vs, (v.renumber f).bare = v.bare) :
    bareItems (renumberItems f vs) = bareItems vs := by
  induction vs with
  | nil => rfl
  | cons v vs ih =>
    rw [renumberItems, bareItems, bareItems, h v List.mem_cons_self,
      ih fun w hw => h w (List.mem_cons_of_mem v hw)]

/-- Renumbering keeps the contents. -/
theorem bare_renumber (v : Value) : (v.renumber f).bare = v.bare := by
  induction v using byParts with
  | null => rfl
  | scalar s => rfl
  | variant c i => rfl
  | collection id form items ih => rw [renumber, bare, bare, bareItems_renumberItems f ih]
  | object id c fields ih => rw [renumber, bare, bare, bareItems_renumberItems f ih]
  | map id form entries ih =>
    have h : bareEntries (renumberEntries f entries) = bareEntries entries := by
      induction entries with
      | nil => rfl
      | cons e entries ihe =>
        obtain ⟨k, v⟩ := e
        obtain ⟨hk, hv⟩ := ih (k, v) List.mem_cons_self
        rw [renumberEntries, bareEntries, bareEntries, hk, hv,
          ihe fun d hd => ih d (List.mem_cons_of_mem _ hd)]
    rw [renumber, bare, bare, h]

end Renumber

end Value

/-- Values side by side. -/
abbrev Graph := List Value

namespace Graph

/-- The value at a place: a root, and a path in it. -/
def at? (g : Graph) : List Nat → Option Value
  | [] => none
  | i :: path => g[i]?.bind fun root => root.at? path

/-- Two places hold one instance. -/
def Shares (g : Graph) (p q : List Nat) : Prop :=
  ∃ n, (g.at? p).bind Value.instanceId? = some n ∧ (g.at? q).bind Value.instanceId? = some n

/-- Places that hold one instance hold the same thing. -/
def Coherent (g : Graph) : Prop := ∀ p q, g.Shares p q → g.at? p = g.at? q

/-- A value stands somewhere in a graph. -/
def Holds (g : Graph) (v : Value) : Prop := ∃ p, g.at? p = some v

/-- How many instances there are. -/
def instanceCount (g : Graph) : Nat := (Value.instancesOf g).dedup.length

/-- Equal contents, and the same places share an instance. -/
structure Alike (g h : Graph) : Prop where
  /-- The contents agree in everything but the numbers of instances. -/
  contents : Value.bareItems g = Value.bareItems h
  /-- The same places share. -/
  sharing : ∀ p q, g.Shares p q ↔ h.Shares p q

/-- A graph holds its roots. -/
theorem holds_of_mem {g : Graph} {v : Value} (h : v ∈ g) : g.Holds v := by
  obtain ⟨i, hi, rfl⟩ := List.mem_iff_getElem.mp h
  refine ⟨[i], ?_⟩
  rw [at?, List.getElem?_eq_getElem hi]
  rfl

/-- A graph holds the parts of what it holds. -/
theorem Holds.child {g : Graph} {v w : Value} (h : g.Holds v) (hw : w ∈ v.children) :
    g.Holds w := by
  obtain ⟨p, hp⟩ := h
  obtain ⟨i, hi, rfl⟩ := List.mem_iff_getElem.mp hw
  cases p with
  | nil => cases hp
  | cons j path =>
    refine ⟨j :: (path ++ [i]), ?_⟩
    rw [at?] at hp ⊢
    cases hr : g[j]? with
    | none =>
      rw [hr] at hp
      cases hp
    | some root =>
      rw [hr] at hp
      change root.at? path = some v at hp
      change root.at? (path ++ [i]) = some _
      rw [Value.at?_concat, hp, Option.bind_some, List.getElem?_eq_getElem hi]

/-- What holds of the roots, and of the parts of whatever it holds of, holds of everything that the
graph holds. -/
theorem Holds.induction {g : Graph} {motive : Value → Prop} (hroots : ∀ v ∈ g, motive v)
    (hparts : ∀ v, motive v → ∀ w ∈ v.children, motive w) {v : Value} (h : g.Holds v) :
    motive v := by
  obtain ⟨p, hp⟩ := h
  cases p with
  | nil => cases hp
  | cons i path =>
    rw [at?] at hp
    obtain ⟨root, hroot, hpath⟩ := Option.bind_eq_some_iff.mp hp
    have hmotive := hroots root (List.mem_of_getElem? hroot)
    clear hroot hp
    induction path generalizing root with
    | nil =>
      cases hpath
      exact hmotive
    | cons j path ih =>
      rw [Value.at?] at hpath
      obtain ⟨child, hchild, hpath⟩ := Option.bind_eq_some_iff.mp hpath
      exact ih child hpath (hparts root hmotive child (List.mem_of_getElem? hchild))

/-- In a coherent graph an instance is known by its number. -/
theorem Coherent.eq_of_instanceId? {g : Graph} (h : g.Coherent) {v w : Value} {n : Nat}
    (hv : g.Holds v) (hw : g.Holds w) (hvn : v.instanceId? = some n)
    (hwn : w.instanceId? = some n) : v = w := by
  obtain ⟨p, hp⟩ := hv
  obtain ⟨q, hq⟩ := hw
  have he := h p q ⟨n, by rw [hp]; exact hvn, by rw [hq]; exact hwn⟩
  rw [hp, hq] at he
  exact Option.some.inj he

/-- Renumbering keeps places. -/
theorem at?_renumber (f : Nat → Nat) (g : Graph) (p : List Nat) :
    at? (g.map (Value.renumber f)) p = (g.at? p).map (Value.renumber f) := by
  cases p with
  | nil => rfl
  | cons i path =>
    rw [at?, at?, List.getElem?_map]
    cases g[i]? with
    | none => rfl
    | some root => exact root.at?_renumber f path

/-- The instance at a place of a renumbered graph has the new number. -/
theorem instanceId?_at?_renumber (f : Nat → Nat) (g : Graph) (p : List Nat) :
    (at? (g.map (Value.renumber f)) p).bind Value.instanceId? =
      ((g.at? p).bind Value.instanceId?).map f := by
  rw [at?_renumber]
  cases g.at? p with
  | none => rfl
  | some v => exact v.instanceId?_renumber f

/-- A graph renumbered by an injection is alike. -/
theorem alike_renumber {f : Nat → Nat} (hf : Function.Injective f) (g : Graph) :
    g.Alike (g.map (Value.renumber f)) := by
  constructor
  · rw [← Value.renumberItems_eq_map]
    exact (Value.bareItems_renumberItems f fun v _ => v.bare_renumber f).symm
  · intro p q
    unfold Shares
    rw [instanceId?_at?_renumber, instanceId?_at?_renumber]
    constructor
    · rintro ⟨n, hp, hq⟩
      exact ⟨f n, by rw [hp]; rfl, by rw [hq]; rfl⟩
    · rintro ⟨n, hp, hq⟩
      obtain ⟨a, ha, han⟩ := Option.map_eq_some_iff.mp hp
      obtain ⟨b, hb, hbn⟩ := Option.map_eq_some_iff.mp hq
      have hab : a = b := hf (han.trans hbn.symm)
      subst hab
      exact ⟨a, ha, hb⟩

end Graph

end RemoteCall
