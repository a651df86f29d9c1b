import RemoteCall.Proofs.Value.Graph

/-!
# Graphs by their parts

A graph is coherent if in a list that has its roots, and with every value its parts, instances of
one number are identical. So facts about given graphs can be computed.
-/

namespace RemoteCall

namespace Graph

/-- Whether a value is listed. -/
def lists (all : List Value) (v : Value) : Bool := all.any v.identical

/-- Whether a list has the roots of a graph, and with every value its parts. -/
def listedBy (g : Graph) (all : List Value) : Bool :=
  g.all (lists all) && all.all fun v => v.children.all (lists all)

/-- Whether listed instances of one number are identical. -/
def numbered (all : List Value) : Bool :=
  all.all fun v => all.all fun w =>
    v.instanceId?.isNone || v.instanceId? != w.instanceId? || v.identical w

variable {g : Graph} {all : List Value}

/-- A value is listed if it is a member of the list. -/
theorem lists_iff {v : Value} : lists all v = true ↔ v ∈ all := by
  simp only [lists, List.any_eq_true, Value.identical_iff, exists_eq_right']

/-- A graph holds nothing but what a list of its parts has. -/
theorem Holds.mem_of_listedBy (hg : g.listedBy all = true) {v : Value} (h : g.Holds v) :
    v ∈ all := by
  simp only [listedBy, Bool.and_eq_true, List.all_eq_true, lists_iff] at hg
  exact h.induction hg.1 hg.2

/-- A graph is coherent if in a list of its parts instances of one number are identical. -/
theorem coherent_of_listedBy (hg : g.listedBy all = true) (hn : numbered all = true) :
    g.Coherent := by
  simp only [numbered, List.all_eq_true, Bool.or_eq_true, Value.identical_iff,
    Option.isNone_iff_eq_none, bne_iff_ne] at hn
  rintro p q ⟨n, hp, hq⟩
  obtain ⟨v, hv, hvn⟩ := Option.bind_eq_some_iff.mp hp
  obtain ⟨w, hw, hwn⟩ := Option.bind_eq_some_iff.mp hq
  have hmem := Holds.mem_of_listedBy hg ⟨p, hv⟩
  have hmem' := Holds.mem_of_listedBy hg ⟨q, hw⟩
  rcases hn v hmem w hmem' with (hnone | hne) | rfl
  · rw [hvn] at hnone
    cases hnone
  · exact absurd (hvn.trans hwn.symm) hne
  · rw [hv, hw]

end Graph

end RemoteCall
