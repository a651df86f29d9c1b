import RemoteCall.Proofs.Value.Graph

/-!
# The instances of a graph

The numbers in a graph, read from the outside in and from the front to the back, are those of the
instances that it holds. In a coherent graph a number stands for one instance with all that is in
it, so an instance cannot be inside of itself, and whoever has all the numbers in an instance has
them wherever that instance stands again.
-/

namespace RemoteCall

namespace Graph

/-- A graph that holds the roots of another one holds all that the other holds. -/
theorem Holds.of_roots {g h : Graph} (hroots : ∀ v ∈ g, h.Holds v) {w : Value} (hw : g.Holds w) :
    h.Holds w :=
  hw.induction (motive := fun u => h.Holds u) hroots fun _ hu _ hx => hu.child hx

/-- What stands in a value that a graph holds is held by the graph. -/
theorem Holds.within {g : Graph} {v w : Value} (hv : g.Holds v) (hw : Holds [v] w) : g.Holds w :=
  hw.of_roots fun u hu => by rwa [List.mem_singleton.mp hu]

/-- A graph with another root holds what it has held. -/
theorem Holds.cons {g : Graph} {v w : Value} (hw : g.Holds w) : Holds (v :: g) w :=
  hw.of_roots fun _ hu => holds_of_mem (List.mem_cons_of_mem v hu)

/-- What stands in a value is no larger than the value. -/
theorem Holds.sizeOf_le {v w : Value} (hw : Holds [v] w) : sizeOf w ≤ sizeOf v :=
  hw.induction (motive := fun u => sizeOf u ≤ sizeOf v)
    (fun _ hu => Nat.le_of_eq (congrArg sizeOf (List.mem_singleton.mp hu))) fun _ hu _ hx =>
      Nat.le_of_lt (Nat.lt_of_lt_of_le (Value.sizeOf_lt_of_mem_children hx) hu)

end Graph

namespace Value

/-- Instances in values side by side stand side by side. -/
theorem instancesOf_append (vs ws : List Value) :
    instancesOf (vs ++ ws) = instancesOf vs ++ instancesOf ws := by
  induction vs with
  | nil => rfl
  | cons v vs ih => rw [List.cons_append, instancesOf, instancesOf, ih, List.append_assoc]

/-- The instances in entries are those in their keys and values. -/
theorem instancesOfEntries_eq (entries : List (Value × Value)) :
    instancesOfEntries entries = instancesOf (entries.flatMap fun e => [e.1, e.2]) := by
  induction entries with
  | nil => rfl
  | cons e entries ih =>
    rw [List.flatMap_cons, instancesOf_append, instancesOfEntries, ih, instancesOf, instancesOf,
      instancesOf, List.append_nil]

/-- The instances in a value are the value, if it is one, and those in its parts. -/
theorem instances_eq (v : Value) :
    v.instances = v.instanceId?.toList ++ instancesOf v.children := by
  cases v with
  | null => rfl
  | scalar a => rfl
  | variant c i => rfl
  | collection id form items =>
    rw [instances, instanceId?, children]
    cases form.isTracked <;> rfl
  | map id form entries =>
    rw [instances, instanceId?, children, instancesOfEntries_eq]
    rfl
  | object id c fields => rfl

/-- An instance in values is an instance in one of them. -/
theorem mem_instancesOf {n : Nat} {vs : List Value} :
    n ∈ instancesOf vs ↔ ∃ v ∈ vs, n ∈ v.instances := by
  induction vs with
  | nil =>
    constructor
    · exact fun h => absurd h List.not_mem_nil
    · exact fun ⟨v, hv, _⟩ => absurd hv List.not_mem_nil
  | cons v vs ih => rw [instancesOf, List.mem_append, ih, List.exists_mem_cons_iff]

/-- The numbers in a part are numbers in the whole. -/
theorem instances_subset_of_mem_children {v w : Value} (hw : w ∈ v.children) :
    w.instances ⊆ v.instances := by
  intro n hn
  rw [v.instances_eq]
  exact List.mem_append_right _ (mem_instancesOf.mpr ⟨w, hw, hn⟩)

/-- The number of an instance is a number in it. -/
theorem mem_instances_of_instanceId? {v : Value} {n : Nat} (h : v.instanceId? = some n) :
    n ∈ v.instances := by
  rw [v.instances_eq, h]
  exact List.mem_cons_self

/-- A number in a value is that of an instance in it: the value, or an instance in one of its
parts. -/
theorem exists_of_mem_instances {v : Value} {n : Nat} (h : n ∈ v.instances) :
    ∃ w, Graph.Holds [v] w ∧ w.instanceId? = some n := by
  induction v using byChildren with
  | step v ih =>
    rw [v.instances_eq] at h
    rcases List.mem_append.mp h with h | h
    · exact ⟨v, Graph.holds_of_mem List.mem_cons_self, Option.mem_toList.mp h⟩
    · obtain ⟨part, hpart, hn⟩ := mem_instancesOf.mp h
      obtain ⟨w, hw, hid⟩ := ih part hpart hn
      exact ⟨w, ((Graph.holds_of_mem List.mem_cons_self).child hpart).within hw, hid⟩

end Value

namespace Graph

/-- The numbers of what a graph holds are numbers in the graph. -/
theorem Holds.instances_subset {g : Graph} {v : Value} (hv : g.Holds v) :
    v.instances ⊆ Value.instancesOf g :=
  hv.induction (motive := fun u => u.instances ⊆ Value.instancesOf g)
    (fun u hu _ hn => Value.mem_instancesOf.mpr ⟨u, hu, hn⟩)
    fun _ hu _ hx => List.Subset.trans (Value.instances_subset_of_mem_children hx) hu

namespace Coherent

variable {g : Graph} (hg : g.Coherent) {v w : Value} {n : Nat}

include hg

/-- No instance stands inside of itself. -/
theorem not_mem_instances_of_mem_children (hv : g.Holds v) (hid : v.instanceId? = some n)
    (hw : w ∈ v.children) : n ∉ w.instances := by
  intro hn
  obtain ⟨u, hu, hun⟩ := Value.exists_of_mem_instances hn
  have heq : v = u := hg.eq_of_instanceId? hv ((hv.child hw).within hu) hid hun
  have hle := hu.sizeOf_le
  have hlt := Value.sizeOf_lt_of_mem_children hw
  rw [← heq] at hle
  omega

/-- A number has the same instance behind it wherever it stands. -/
theorem instances_subset (hv : g.Holds v) (hn : n ∈ v.instances) (hw : g.Holds w)
    (hid : w.instanceId? = some n) : w.instances ⊆ v.instances := by
  obtain ⟨u, hu, hun⟩ := Value.exists_of_mem_instances hn
  rw [hg.eq_of_instanceId? hw (hv.within hu) hid hun, ← v.instancesOf_singleton]
  exact hu.instances_subset

end Coherent

end Graph

end RemoteCall
