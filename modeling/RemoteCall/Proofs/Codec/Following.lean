import RemoteCall.Proofs.Codec.Taking
import RemoteCall.Proofs.Codec.Writing
import RemoteCall.Proofs.Value.Listing
import RemoteCall.Proofs.Value.Rebuilt

/-!
# A reader follows a writer

The slots of a reader stand for the table of the writer it follows: one slot for each number, with
the class of its instance and, unless the instance is still open, the instance under the number of
its slot. A reader follows a stretch of writing when it takes the bytes of it and keeps its slots
standing for the table; following composes along the sequencing of readers.

The final table of the writer fixes the number of every instance from the start, since the table
only grows at its end.
-/

namespace RemoteCall

/-- The new number of an instance: its place in the table, or one beyond the table. -/
def newNumber (table : List Nat) (id : Nat) : Nat :=
  if id ∈ table then table.idxOf id else table.length + id

/-- Instances keep numbers of their own. -/
theorem newNumber_injective (table : List Nat) : Function.Injective (newNumber table) := by
  intro a b h
  unfold newNumber at h
  split at h <;> split at h
  · rename_i ha hb
    exact (List.idxOf_inj ha).mp h
  · rename_i ha hb
    have hlt := List.idxOf_lt_length_of_mem ha
    omega
  · rename_i ha hb
    have hlt := List.idxOf_lt_length_of_mem hb
    omega
  · omega

/-- The new number of an instance in the table is its place. -/
theorem newNumber_of_getElem? {table front : List Nat} (hnodup : table.Nodup)
    (hfront : front <+: table) {position id : Nat} (h : front[position]? = some id) :
    newNumber table id = position := by
  obtain ⟨added, rfl⟩ := hfront
  have hlt := (List.getElem?_eq_some_iff.mp h).1
  have hat : (front ++ added)[position]? = some id := (List.getElem?_append_left hlt).trans h
  obtain ⟨hlt, rfl⟩ := List.getElem?_eq_some_iff.mp hat
  rw [newNumber, if_pos (List.getElem_mem hlt), hnodup.idxOf_getElem]

/-- A graph that the wire can carry. -/
structure Graph.Sendable (g : Graph) : Prop where
  /-- Only the constructors made it. -/
  built : ∀ v ∈ g, v.Built
  /-- One number means one instance. -/
  coherent : g.Coherent
  /-- No two keys of a sorted map tie in its sorting order. -/
  untied : ∀ id order entries, g.Holds (.map id (.sorted order) entries) →
    entries.Pairwise fun a b => order.sortOrder a.1 b.1 ≠ .eq
  /-- The element type of no array is an array of no value. -/
  noVoidArray : ∀ id element items, g.Holds (.collection id (.array element) items) →
    element.hasVoidArray = false
  /-- A 32-bit word counts the instances. -/
  countable : g.instanceCount < UInt32.size

/-- A graph that the wire can carry, up to the order of what ties in its sorted containers. -/
structure Graph.Portable (g : Graph) : Prop where
  /-- One number means one instance. -/
  coherent : g.Coherent
  /-- The items of arrays fit their element types. -/
  fits : ∀ id element items, g.Holds (.collection id (.array element) items) →
    (CollectionForm.array element).Keeps items
  /-- The element type of no array is an array of no value. -/
  noVoidArray : ∀ id element items, g.Holds (.collection id (.array element) items) →
    element.hasVoidArray = false
  /-- A 32-bit word counts the instances. -/
  countable : g.instanceCount < UInt32.size

/-- The wire can carry a graph without arrays whose values can be listed with a number for each
instance. -/
theorem Graph.portable_of_listedBy {g : Graph} {all : List Value} (hg : g.listedBy all = true)
    (hn : numbered all = true)
    (hnone : ∀ id element items, Value.collection id (.array element) items ∉ all)
    (hcount : g.instanceCount < UInt32.size) : g.Portable where
  coherent := Graph.coherent_of_listedBy hg hn
  fits := fun id element items h => absurd (h.mem_of_listedBy hg) (hnone id element items)
  noVoidArray := fun id element items h => absurd (h.mem_of_listedBy hg) (hnone id element items)
  countable := hcount

/-- The wire can carry null or a scalar. -/
theorem Graph.sendable_of_flat {v : Value} (hflat : v = .null ∨ ∃ a, v = .scalar a) :
    Graph.Sendable [v] := by
  have honly : ∀ w, Graph.Holds [v] w → w = v := by
    refine fun w hw => hw.induction (fun u hu => List.mem_singleton.mp hu) ?_
    rintro u rfl w hw
    rcases hflat with rfl | ⟨a, rfl⟩ <;> cases hw
  have hsingle : v.instanceId? = none := by
    rcases hflat with rfl | ⟨a, rfl⟩ <;> rfl
  constructor
  case built =>
    intro w hw
    rw [List.mem_singleton.mp hw]
    rcases hflat with rfl | ⟨a, rfl⟩
    · exact .null
    · exact .scalar a
  case coherent =>
    rintro places others ⟨n, hn, -⟩
    obtain ⟨w, hw, hid⟩ := Option.bind_eq_some_iff.mp hn
    rw [honly w ⟨places, hw⟩, hsingle] at hid
    cases hid
  case untied =>
    intro id order entries hmap
    have hv := honly _ hmap
    rcases hflat with rfl | ⟨a, rfl⟩ <;> cases hv
  case noVoidArray =>
    intro id element items harray
    have hv := honly _ harray
    rcases hflat with rfl | ⟨a, rfl⟩ <;> cases hv
  case countable =>
    have hnone : Graph.instanceCount [v] = 0 := by
      rcases hflat with rfl | ⟨a, rfl⟩ <;> rfl
    rw [hnone]
    decide

/-- Everything in a sendable graph is built. -/
theorem Graph.Sendable.built_of_holds {g : Graph} (hg : g.Sendable) {v : Value}
    (hv : g.Holds v) : v.Built :=
  hv.induction hg.built fun _ hbuilt _ hw => hbuilt.child hw

/-- The wire can carry a sendable graph. -/
theorem Graph.Sendable.portable {g : Graph} (hg : g.Sendable) : g.Portable where
  coherent := hg.coherent
  fits := fun _ _ _ hv => (hg.built_of_holds hv).made.1
  noVoidArray := hg.noVoidArray
  countable := hg.countable

/-- Building the sorted containers of a sendable graph anew changes nothing. -/
theorem Graph.Sendable.rebuilt_eq {g : Graph} (hg : g.Sendable) {v : Value} (hv : g.Holds v) :
    v.rebuilt = v := by
  induction v using Value.byParts with
  | null => rfl
  | scalar s => rfl
  | variant c i => rfl
  | collection id form items ih =>
    have hkeeps := (hg.built_of_holds hv).made.1
    rw [Value.rebuilt, Value.rebuiltItems_eq_self fun w hw => ih w hw (hv.child hw)]
    cases form with
    | sortedSet order => rw [CollectionForm.rebuild, Arranged.arrange_eq hkeeps]
    | _ => rfl
  | object id c fields ih =>
    rw [Value.rebuilt, Value.rebuiltItems_eq_self fun w hw => ih w hw (hv.child hw)]
  | map id form entries ih =>
    have hkeeps := (hg.built_of_holds hv).made.1
    rw [Value.rebuilt, Value.rebuiltEntries_eq_self fun e he =>
      ⟨(ih e he).1 (hv.child (Value.mem_children_of_entry he).1),
        (ih e he).2 (hv.child (Value.mem_children_of_entry he).2)⟩]
    cases form with
    | plain => rfl
    | sorted order =>
      rw [MapForm.rebuild, Arranged.arrange_reverse hkeeps (hg.untied id order entries hv)]

/-- The graph that is written, under which settings, and the table at the end of it. -/
structure Writing where
  settings : CodecSettings
  graph : Graph
  /-- The numbers of all instances in the order in which they begin. -/
  table : List Nat

namespace Writing

/-- A value as it is read back. -/
def back (c : Writing) (v : Value) : Value := v.rebuilt.renumber (newNumber c.table)

/-- What a writing that can be followed needs. -/
structure Sound (c : Writing) : Prop where
  announced : c.settings.CanAnnounce
  portable : c.graph.Portable
  /-- No instance is announced twice. -/
  nodup : c.table.Nodup
  /-- Every position has a marker that is a 32-bit word. -/
  short : c.table.length < UInt32.size

/-- The slots stand for a table in which some instances are still open. -/
structure Mirrors (c : Writing) (opened table : List Nat) (slots : List DecodeSlot) : Prop where
  length_eq : slots.length = table.length
  /-- Each slot has the class of its instance, and the instance once it is complete. -/
  slot : ∀ (position id : Nat), table[position]? = some id → ∃ v classId, c.graph.Holds v ∧
    v.instanceId? = some id ∧ v.classId c.settings.registry = .ok classId ∧
    slots[position]? = some (DecodeSlot.mk classId (if id ∈ opened then none else c.back v))

/-- The reader takes the bytes, gives the datum, and its slots stand for the later table. -/
def Follows (c : Writing) (opened : List Nat) (d : Decoder α) (t : List Nat) (bytes : List UInt8)
    (a : α) (t' : List Nat) : Prop :=
  d.Takes (c.Mirrors opened t) bytes a (c.Mirrors opened t')

namespace Mirrors

variable {c : Writing} {opened t : List Nat} {slots : List DecodeSlot} {v : Value}
  {id classId : Nat}

/-- Opening the slot of a new instance. -/
theorem openSlot (hm : c.Mirrors opened t slots) (hv : c.graph.Holds v)
    (hid : v.instanceId? = some id) (hclass : v.classId c.settings.registry = .ok classId)
    (hnew : id ∉ t) : c.Mirrors (id :: opened) (t ++ [id]) (slots ++ [⟨classId, none⟩]) := by
  constructor
  · rw [List.length_append, List.length_append, hm.length_eq]
    rfl
  · intro position id' hp
    by_cases hlt : position < t.length
    · rw [List.getElem?_append_left hlt] at hp
      obtain ⟨w, classId', hw, hwid, hwclass, hslot⟩ := hm.slot position id' hp
      have hne : id' ≠ id := fun he => hnew (he ▸ List.mem_of_getElem? hp)
      refine ⟨w, classId', hw, hwid, hwclass, ?_⟩
      have hopened : (id' ∈ id :: opened) ↔ id' ∈ opened :=
        ⟨fun h => (List.mem_cons.mp h).resolve_left hne, List.mem_cons_of_mem id⟩
      rw [List.getElem?_append_left (hm.length_eq ▸ hlt), hslot]
      simp only [hopened]
    · rw [List.getElem?_append_right (Nat.le_of_not_lt hlt)] at hp
      have hzero : position - t.length = 0 := by
        have h := (List.getElem?_eq_some_iff.mp hp).1
        rw [List.length_singleton] at h
        omega
      rw [hzero] at hp
      cases hp
      refine ⟨v, classId, hv, hid, hclass, ?_⟩
      rw [List.getElem?_append_right (hm.length_eq ▸ Nat.le_of_not_lt hlt), hm.length_eq, hzero,
        if_pos List.mem_cons_self]
      rfl

/-- Filling the slot of an instance that is complete. -/
theorem fillSlot {position : Nat} (hm : c.Mirrors (id :: opened) t slots) (hv : c.graph.Holds v)
    (hid : v.instanceId? = some id) (hclass : v.classId c.settings.registry = .ok classId)
    (hnodup : t.Nodup) (hopen : id ∉ opened) (hp : t[position]? = some id) :
    c.Mirrors opened t (slots.set position ⟨classId, some (c.back v)⟩) := by
  constructor
  · rw [List.length_set, hm.length_eq]
  · intro position' id' hp'
    by_cases heq : position = position'
    · subst heq
      rw [hp] at hp'
      cases hp'
      have hlt := (List.getElem?_eq_some_iff.mp hp).1
      refine ⟨v, classId, hv, hid, hclass, ?_⟩
      rw [List.getElem?_set_self (hm.length_eq ▸ hlt), if_neg hopen]
    · obtain ⟨w, classId', hw, hwid, hwclass, hslot⟩ := hm.slot position' id' hp'
      have hne : id' ≠ id := by
        rintro rfl
        obtain ⟨hlt, hget⟩ := List.getElem?_eq_some_iff.mp hp
        exact heq ((List.getElem?_inj hlt hnodup).mp (hp.trans hp'.symm))
      have hopened : (id' ∈ id :: opened) ↔ id' ∈ opened :=
        ⟨fun h => (List.mem_cons.mp h).resolve_left hne, List.mem_cons_of_mem id⟩
      refine ⟨w, classId', hw, hwid, hwclass, ?_⟩
      rw [List.getElem?_set_ne heq, hslot]
      simp only [hopened]

end Mirrors

section Body

variable {c : Writing} {opened t t' : List Nat} {bytes : List UInt8} {v : Value}
  {id classId : Nat} {fresh : Nat → Nat → Decoder Value}

/-- The slot of a complete instance has the instance. -/
theorem Mirrors.slot_eq (hc : c.Sound) {slots : List DecodeSlot} (hm : c.Mirrors opened t slots)
    {position : Nat} (hv : c.graph.Holds v) (hid : v.instanceId? = some id)
    (hclass : v.classId c.settings.registry = .ok classId) (hopen : id ∉ opened)
    (hp : t[position]? = some id) :
    slots[position]? = some ⟨classId, some (c.back v)⟩ := by
  obtain ⟨w, classId', hw, hwid, hwclass, hslot⟩ := hm.slot position id hp
  have hwv : w = v := hc.portable.coherent.eq_of_instanceId? hw hv hwid hid
  subst hwv
  rw [hclass] at hwclass
  cases hwclass
  rwa [if_neg hopen] at hslot

/-- A new instance is read into a slot of its own. -/
theorem follows_opened (hc : c.Sound) {kind : ValueKind}
    (hkind : ValueKind.ofClassId c.settings.registry classId = .ok kind)
    (htracked : kind.isTracked = true) (hv : c.graph.Holds v) (hid : v.instanceId? = some id)
    (hclass : v.classId c.settings.registry = .ok classId) (hopen : id ∉ opened) (hnew : id ∉ t)
    (hgrows : t ++ [id] <+: t') (hend : t' <+: c.table)
    (hf : c.Follows (id :: opened) (fresh (newNumber c.table id) classId) (t ++ [id]) bytes
      (c.back v) t') :
    c.Follows opened (Decoder.bodyWith c.settings fresh classId) t (0 :: bytes) (c.back v) t' := by
  refine Decoder.Takes.first hkind htracked fun slots hm => ?_
  have hlast : (t ++ [id])[t.length]? = some id := List.getElem?_concat_length ..
  have hnumber : newNumber c.table id = slots.length := by
    rw [hm.length_eq]
    exact newNumber_of_getElem? hc.nodup (hgrows.trans hend) hlast
  have hp : t'[slots.length]? = some id := by
    obtain ⟨added, rfl⟩ := hgrows
    rw [hm.length_eq, List.getElem?_append_left (by simp), hlast]
  rw [hnumber] at hf
  refine ⟨_, hf.narrow fun slots' he => he ▸ hm.openSlot hv hid hclass hnew, fun slots' hm' => ?_⟩
  exact hm'.fillSlot hv hid hclass (hc.nodup.sublist hend.sublist) hopen hp

/-- An instance is read as a reference, or where it begins. -/
theorem follows_placed (hc : c.Sound) (kind : ValueKind)
    (hkind : ValueKind.ofClassId c.settings.registry classId = .ok kind)
    (htracked : kind.isTracked = true) (hv : c.graph.Holds v) (hid : v.instanceId? = some id)
    (hclass : v.classId c.settings.registry = .ok classId)
    (hopen : ∀ n ∈ opened, ∀ w, c.graph.Holds w → w.instanceId? = some n → sizeOf v < sizeOf w)
    {contents : Encoder (List UInt8)} (hp : Encoder.Placed id contents t bytes t')
    (hend : t' <+: c.table) (hgrows : ∀ u u' inner, contents u = .ok (inner, u') → u <+: u')
    (hf : ∀ u u' inner, bytes = 0 :: inner → contents u = .ok (inner, u') → u' <+: c.table →
      c.Follows (id :: opened) (fresh (newNumber c.table id) classId) u inner (c.back v) u') :
    c.Follows opened (Decoder.bodyWith c.settings fresh classId) t bytes (c.back v) t' := by
  have hid' : id ∉ opened := fun h => Nat.lt_irrefl _ (hopen id h v hv hid)
  cases hp with
  | again position found =>
    have hget : t[position]? = some id := by
      obtain ⟨hlt, hat, -⟩ := List.idxOf?_eq_some_iff.mp found
      rw [List.getElem?_eq_getElem hlt, hat]
    have hlt : position < t.length := (List.getElem?_eq_some_iff.mp hget).1
    have hle := hend.length_le
    have hshort := hc.short
    rw [Encoder.marker_of_lt (by omega)]
    exact .again hkind htracked (by omega) fun slots hm => hm.slot_eq hc hv hid hclass hid' hget
  | first new written =>
    exact follows_opened hc hkind htracked hv hid hclass hid' new (hgrows _ _ _ written) hend
      (hf _ _ _ rfl written hend)

end Body

end Writing

end RemoteCall
