import RemoteCall.Proofs.Codec.Accepting
import RemoteCall.Proofs.Codec.Composing
import RemoteCall.Proofs.Codec.ReadBack

/-!
# What is read can be written and read again

A decoded instance has the number of its slot, so a writer that starts where the reader started
meets the instances in the same order: its table lists the positions of the slots. Where the reader
found a reference the writer finds the number in its table, and neither spends any nesting on it;
where an instance began, both go one level deeper. The bytes may differ from those that were read,
since a writer has one spelling for what a reader takes in several, but they are read as the same
value into the same slots.

Sorted containers are left out: they are arranged anew each time they are read.
-/

namespace RemoteCall

/-- No sorted set and no sorted map stands in the graph. -/
structure Graph.Unsorted (g : Graph) : Prop where
  sets : ∀ id order items, ¬ g.Holds (.collection id (.sortedSet order) items)
  maps : ∀ id order entries, ¬ g.Holds (.map id (.sorted order) entries)

namespace Decoder

/-- The numbers of the instances in slots: their positions. -/
def numbers (slots : List DecodeSlot) : List Nat := List.range slots.length

/-- Behind the numbers of slots comes that of a new one. -/
theorem numbers_concat (slots : List DecodeSlot) (slot : DecodeSlot) :
    numbers (slots ++ [slot]) = numbers slots ++ [slots.length] := by
  rw [numbers, List.length_append, List.length_singleton, List.range_succ, numbers]

/-- The number of a new slot is new. -/
theorem length_notMem_numbers (slots : List DecodeSlot) : slots.length ∉ numbers slots :=
  fun h => Nat.lt_irrefl _ (List.mem_range.mp h)

/-- Filling a slot opens none. -/
theorem numbers_set (slots : List DecodeSlot) (position : Nat) (slot : DecodeSlot) :
    numbers (slots.set position slot) = numbers slots := by
  rw [numbers, List.length_set, numbers]

/-- Every number has its own place among the numbers. -/
theorem idxOf?_numbers {slots : List DecodeSlot} {position : Nat} (h : position < slots.length) :
    (numbers slots).idxOf? position = some position := by
  refine List.idxOf?_eq_some_iff.mpr ⟨by rwa [numbers, List.length_range], ?_, ?_⟩
  · simp [numbers]
  · intro j hj
    simp only [numbers, List.getElem_range]
    omega

/-- A complete instance has the number of its slot and is of the class under which it was announced,
so that a reference to it can be written at any depth. -/
structure Complete (s : CodecSettings) (position classId : Nat) (v : Value) : Prop where
  ne_null : v ≠ .null
  class_eq : v.classId s.registry = .ok classId
  tracked : ∀ room, ∃ contents, Encoder.body s room v = Encoder.track position contents

/-- Every filled slot holds a complete instance. -/
def Referable (s : CodecSettings) (slots : List DecodeSlot) : Prop :=
  ∀ (position classId : Nat) (v : Value), slots[position]? = some ⟨classId, some v⟩ →
    Complete s position classId v

/-- A value of a class that was read from slots to slots can be written from the numbers of the
former to those of the latter, and what is written is read as the value again. -/
structure Restated (s : CodecSettings) (room classId : Nat) (slots : List DecodeSlot) (v : Value)
    (slots' : List DecodeSlot) : Prop where
  ne_null : v ≠ .null
  class_eq : v.classId s.registry = .ok classId
  /-- The class leaves room for a tag. -/
  tag_lt : classId + 1 < UInt32.size
  spelled : ∃ bytes, Encoder.body s room v (numbers slots) = .ok (bytes, numbers slots') ∧
    Takes (· = slots) (body s room classId) bytes v (· = slots')

/-- What begins at a position can be written from there on, as contents behind a marker if its kind
is tracked, and is read as the value again. -/
structure Begun (s : CodecSettings) (room position classId : Nat) (kind : ValueKind)
    (slots : List DecodeSlot) (v : Value) (slots' : List DecodeSlot) : Prop where
  ne_null : v ≠ .null
  class_eq : v.classId s.registry = .ok classId
  spelled : ∃ contents : Nat → Encoder (List UInt8), ∃ inner,
    (∀ room, Encoder.body s room v =
      if kind.isTracked then Encoder.track position (contents room) else contents room) ∧
    contents room (numbers slots) = .ok (inner, numbers slots') ∧
    Takes (· = slots) (fresh s room position classId) inner v (· = slots')

/-- An element is null or a restated value. -/
def ElementRestated (s : CodecSettings) (room : Nat) (slots : List DecodeSlot) (v : Value)
    (slots' : List DecodeSlot) : Prop :=
  v = .null ∧ slots' = slots ∨ ∃ classId, Restated s room classId slots v slots'

/-- The key of an entry is restated, and behind it the value. -/
def EntryRestated (s : CodecSettings) (room : Nat) (slots : List DecodeSlot) (e : Value × Value)
    (slots' : List DecodeSlot) : Prop :=
  ∃ slots₁, ElementRestated s room slots e.1 slots₁ ∧ ElementRestated s room slots₁ e.2 slots'

/-- Whatever of a graph is read as a body at some depth is restated, and what is complete afterwards
can be referred to. -/
def BodiesRestated (s : CodecSettings) (g : Graph) (room : Nat) : Prop :=
  ∀ classId st v st', classId + 1 < UInt32.size → body s room classId st = .ok v st' →
    Referable s st.slots → g.Holds v →
    Restated s room classId st.slots v st'.slots ∧ Referable s st'.slots

section Parts

variable {s : CodecSettings} {g : Graph} {room : Nat}

/-- A value that is read with its tag. -/
theorem BodiesRestated.tagged (hb : BodiesRestated s g room) {st st' : DecodeState} {v : Value}
    (h : tagged (body s room) st = .ok v st') (hr : Referable s st.slots) (hv : g.Holds v) :
    ElementRestated s room st.slots v st'.slots ∧ Referable s st'.slots := by
  obtain ⟨tag, rest, htag, h⟩ := wire_bind_eq_ok Varint.read32_gives h
  by_cases hzero : tag = 0
  · rw [if_pos hzero] at h
    cases h
    exact ⟨.inl ⟨rfl, rfl⟩, hr⟩
  · rw [if_neg hzero] at h
    obtain ⟨hrestated, hr'⟩ := hb (tag - 1) _ v st' (by omega) h hr hv
    exact ⟨.inr ⟨_, hrestated⟩, hr'⟩

/-- An element that is read under the tag of its container. -/
theorem BodiesRestated.element (hb : BodiesRestated s g room) {tag : Nat}
    (htag : tag < UInt32.size) {st st' : DecodeState} {v : Value}
    (h : element (body s room) tag st = .ok v st') (hr : Referable s st.slots) (hv : g.Holds v) :
    ElementRestated s room st.slots v st'.slots ∧ Referable s st'.slots := by
  by_cases hzero : tag = 0
  · rw [Decoder.element, if_pos hzero] at h
    exact hb.tagged h hr hv
  · rw [Decoder.element, if_neg hzero] at h
    obtain ⟨hrestated, hr'⟩ := hb (tag - 1) _ v st' (by omega) h hr hv
    exact ⟨.inr ⟨_, hrestated⟩, hr'⟩

/-- The elements of a collection that are read. -/
theorem BodiesRestated.elements (hb : BodiesRestated s g room) {st st' : DecodeState}
    {vs : List Value} (h : elements (body s room) st = .ok vs st') (hr : Referable s st.slots)
    (hvs : ∀ v ∈ vs, g.Holds v) :
    vs.length < UInt64.size ∧ InTurn (ElementRestated s room) st.slots vs st'.slots ∧
      Referable s st'.slots := by
  obtain ⟨count, rest, hcount, h⟩ := wire_bind_eq_ok (Sized.readCount_gives 1) h
  by_cases hzero : count = 0
  · rw [if_pos hzero] at h
    obtain ⟨rfl, rfl⟩ := pure_eq_ok h
    exact ⟨by decide, .nil _, hr⟩
  · rw [if_neg hzero] at h
    obtain ⟨tag, rest', htag, h⟩ := wire_bind_eq_ok Varint.read32_gives h
    obtain ⟨rfl, hturn⟩ := repeated_eq_ok (fun _ _ _ hitem hr hv => hb.element htag hitem hr hv) h
      hr hvs
    exact ⟨hcount, hturn⟩

/-- An entry that is read under the tags of its map. -/
theorem BodiesRestated.entry (hb : BodiesRestated s g room) {keyTag valueTag : Nat}
    (hkeyTag : keyTag < UInt32.size) (hvalueTag : valueTag < UInt32.size)
    {st st' : DecodeState} {e : Value × Value}
    (h : (do
      let k ← Decoder.element (body s room) keyTag
      let v ← Decoder.element (body s room) valueTag
      return (k, v) : Decoder (Value × Value)) st = .ok e st')
    (hr : Referable s st.slots) (he : g.Holds e.1 ∧ g.Holds e.2) :
    EntryRestated s room st.slots e st'.slots ∧ Referable s st'.slots := by
  obtain ⟨k, st₁, hk, h⟩ := bind_eq_ok h
  obtain ⟨v, st₂, hv, h⟩ := bind_eq_ok h
  obtain ⟨rfl, rfl⟩ := pure_eq_ok h
  obtain ⟨hkey, hr₁⟩ := hb.element hkeyTag hk hr he.1
  obtain ⟨hvalue, hr₂⟩ := hb.element hvalueTag hv hr₁ he.2
  exact ⟨⟨st₁.slots, hkey, hvalue⟩, hr₂⟩

/-- The entries of a map that are read. -/
theorem BodiesRestated.entries (hb : BodiesRestated s g room) {st st' : DecodeState}
    {es : List (Value × Value)} (h : entries (body s room) st = .ok es st')
    (hr : Referable s st.slots) (hes : ∀ e ∈ es, g.Holds e.1 ∧ g.Holds e.2) :
    es.length < UInt64.size ∧ InTurn (EntryRestated s room) st.slots es st'.slots ∧
      Referable s st'.slots := by
  obtain ⟨count, rest, hcount, h⟩ := wire_bind_eq_ok (Sized.readCount_gives 2) h
  by_cases hzero : count = 0
  · rw [if_pos hzero] at h
    obtain ⟨rfl, rfl⟩ := pure_eq_ok h
    exact ⟨by decide, .nil _, hr⟩
  · rw [if_neg hzero] at h
    obtain ⟨keyTag, rest', hkeyTag, h⟩ := wire_bind_eq_ok Varint.read32_gives h
    obtain ⟨valueTag, rest', hvalueTag, h⟩ := wire_bind_eq_ok Varint.read32_gives h
    obtain ⟨rfl, hturn⟩ := repeated_eq_ok (R := EntryRestated s room) (I := Referable s)
      (fun _ _ _ hentry hr he => hb.entry hkeyTag hvalueTag hentry hr he) h hr hes
    exact ⟨hcount, hturn⟩

end Parts

section Written

variable {s : CodecSettings} {room : Nat} {slots slots' : List DecodeSlot}

/-- An element can be written under the tag of its container, and is read under it again. -/
theorem ElementRestated.written {v : Value} (h : ElementRestated s room slots v slots')
    (shared : Option Nat)
    (hs : ∀ classId, shared = some classId → v ≠ .null ∧ v.classId s.registry = .ok classId) :
    ∃ tag bytes, Encoder.elementTag s shared v = .ok tag ∧
      Encoder.body s room v (numbers slots) = .ok (bytes, numbers slots') ∧
      Takes (· = slots) (element (body s room) (Writing.tagNumber shared)) (tag ++ bytes) v
        (· = slots') := by
  cases shared with
  | none =>
    rcases h with ⟨rfl, rfl⟩ | ⟨classId, hrestated⟩
    · refine ⟨Varint.encode 0, [], rfl, by rw [Encoder.body]; rfl, ?_⟩
      rw [List.append_nil]
      exact .tagged_null
    · obtain ⟨bytes, hbytes, htakes⟩ := hrestated.spelled
      refine ⟨_, bytes, Encoder.valueTag_of_class hrestated.ne_null hrestated.class_eq, hbytes, ?_⟩
      exact .tagged_body hrestated.tag_lt htakes
  | some classId =>
    obtain ⟨hne, hclass⟩ := hs classId rfl
    obtain ⟨classId', hrestated⟩ := h.resolve_left fun hnull => hne hnull.1
    obtain rfl : classId' = classId := Except.ok.inj (hrestated.class_eq.symm.trans hclass)
    obtain ⟨bytes, hbytes, htakes⟩ := hrestated.spelled
    exact ⟨[], bytes, rfl, hbytes, htakes⟩

/-- Elements in turn can be written in a row, and are read in a row again. -/
theorem InTurn.elements_written {vs : List Value}
    (h : InTurn (ElementRestated s room) slots vs slots') (shared : Option Nat)
    (hs : ∀ classId, shared = some classId → ∀ v ∈ vs, v ≠ .null ∧
      v.classId s.registry = .ok classId) :
    ∃ bytes, Encoder.elements s room shared vs (numbers slots) = .ok (bytes, numbers slots') ∧
      Takes (· = slots) (repeated (element (body s room) (Writing.tagNumber shared)) vs.length)
        bytes vs (· = slots') := by
  induction h with
  | nil slots =>
    refine ⟨[], ?_, .pure []⟩
    rw [Encoder.elements]
    rfl
  | cons head tail ih =>
    rename_i v rest
    obtain ⟨tag, front, htag, hfront, htakes⟩ := head.written shared fun classId he =>
      hs classId he v List.mem_cons_self
    obtain ⟨back, hback, hrest⟩ := ih fun classId he w hw =>
      hs classId he w (List.mem_cons_of_mem v hw)
    exact ⟨_, Encoder.elements_cons htag hfront hback, htakes.bind (hrest.andThen (.pure _))⟩

/-- Entries in turn can be written in a row, and are read in a row again. -/
theorem InTurn.entries_written {es : List (Value × Value)}
    (h : InTurn (EntryRestated s room) slots es slots') {keys values : Option Nat}
    (hk : ∀ classId, keys = some classId → ∀ e ∈ es, e.1 ≠ .null ∧
      e.1.classId s.registry = .ok classId)
    (hv : ∀ classId, values = some classId → ∀ e ∈ es, e.2 ≠ .null ∧
      e.2.classId s.registry = .ok classId) :
    ∃ bytes, Encoder.entries s room keys values es (numbers slots) = .ok (bytes, numbers slots') ∧
      Takes (· = slots) (repeated (do
        let k ← element (body s room) (Writing.tagNumber keys)
        let v ← element (body s room) (Writing.tagNumber values)
        return (k, v)) es.length) bytes es (· = slots') := by
  induction h with
  | nil slots =>
    refine ⟨[], ?_, .pure []⟩
    rw [Encoder.entries]
    rfl
  | cons head tail ih =>
    rename_i e rest
    obtain ⟨k, v⟩ := e
    obtain ⟨slots₁, hkey, hvalue⟩ := head
    obtain ⟨keyTag, keyBytes, hkeyTag, hkeyBytes, hkeyTakes⟩ := hkey.written keys fun classId he =>
      hk classId he (k, v) List.mem_cons_self
    obtain ⟨valueTag, valueBytes, hvalueTag, hvalueBytes, hvalueTakes⟩ := hvalue.written
      values fun classId he => hv classId he (k, v) List.mem_cons_self
    obtain ⟨back, hback, hrest⟩ := ih
      (fun classId he d hd => hk classId he d (List.mem_cons_of_mem _ hd))
      (fun classId he d hd => hv classId he d (List.mem_cons_of_mem _ hd))
    refine ⟨_, Encoder.entries_cons hkeyTag hkeyBytes hvalueTag hvalueBytes hback, ?_⟩
    rw [List.append_assoc (keyTag ++ keyBytes)]
    exact (hkeyTakes.bind (hvalueTakes.andThen (.pure (k, v)))).bind (hrest.andThen (.pure _))

/-- A value can be announced by a tag: it is null, or its class leaves room for one. -/
def Announceable (s : CodecSettings) (v : Value) : Prop :=
  v = .null ∨ ∃ classId, v.classId s.registry = .ok classId ∧ classId + 1 < UInt32.size

/-- An element that is restated can be announced. -/
theorem ElementRestated.announceable {v : Value} (h : ElementRestated s room slots v slots') :
    Announceable s v :=
  h.imp And.left fun ⟨classId, hrestated⟩ => ⟨classId, hrestated.class_eq, hrestated.tag_lt⟩

/-- Values that can be announced each can be announced together. -/
theorem exists_sharedTag {vs : List Value} (h : ∀ v ∈ vs, Announceable s v) :
    ∃ shared, Encoder.sharedClass s.registry vs = .ok shared ∧
      (vs ≠ [] → Writing.tagNumber shared < UInt32.size) ∧
      ∀ classId, shared = some classId → ∀ v ∈ vs, v ≠ .null ∧
        v.classId s.registry = .ok classId := by
  obtain ⟨shared, hshared⟩ := Encoder.exists_sharedClass fun v hv =>
    (h v hv).imp id fun ⟨classId, hclass, _⟩ => ⟨classId, hclass⟩
  have hs : ∀ classId, shared = some classId → ∀ v ∈ vs, v ≠ .null ∧
      v.classId s.registry = .ok classId := by
    rintro classId rfl
    exact Encoder.sharedClass_eq_some hshared
  refine ⟨shared, hshared, fun hne => ?_, hs⟩
  refine Writing.tagNumber_lt hne hs fun v hv classId hnull hclass => ?_
  obtain ⟨classId', hclass', hlt⟩ := (h v hv).resolve_left hnull
  obtain rfl : classId' = classId := Except.ok.inj (hclass'.symm.trans hclass)
  exact hlt

/-- What holds of each step holds of each result. -/
theorem InTurn.forall {R : List DecodeSlot → α → List DecodeSlot → Prop} {P : α → Prop}
    (hR : ∀ slots a slots', R slots a slots' → P a) {as : List α} (h : InTurn R slots as slots') :
    ∀ a ∈ as, P a := by
  induction h with
  | nil => exact fun a ha => absurd ha List.not_mem_nil
  | cons head tail ih => exact List.forall_mem_cons.mpr ⟨hR _ _ _ head, ih⟩

/-- The elements of a collection can be written, and are read again. -/
theorem InTurn.collection_written {vs : List Value}
    (h : InTurn (ElementRestated s room) slots vs slots') (hlength : vs.length < UInt64.size) :
    ∃ shared bytes, Encoder.sharedClass s.registry vs = .ok shared ∧
      Encoder.elements s room shared vs (numbers slots) = .ok (bytes, numbers slots') ∧
      Takes (· = slots) (elements (body s room)) (Varint.encode vs.length ++
        ((if vs.isEmpty then [] else Encoder.sharedTag shared) ++ bytes)) vs (· = slots') := by
  obtain ⟨shared, hshared, htag, hs⟩ := exists_sharedTag
    (h.forall fun _ _ _ hv => ElementRestated.announceable hv)
  obtain ⟨bytes, hbytes, htakes⟩ := h.elements_written shared hs
  have hcount : vs.length ≤ bytes.length := Encoder.length_le_elements
    (fun v hv hsome => (hs _ (Option.some_get hsome).symm v hv).1) hbytes
  have hempty : vs = [] → bytes = [] := by
    rintro rfl
    exact (Encoder.pure_eq_ok hbytes).1.symm
  refine ⟨shared, bytes, hshared, hbytes, ?_⟩
  rw [Writing.sharedTag_eq]
  exact .elements hlength hcount htag hempty htakes

/-- The entries of a map can be written, and are read again. -/
theorem InTurn.map_written {es : List (Value × Value)}
    (h : InTurn (EntryRestated s room) slots es slots') (hlength : es.length < UInt64.size) :
    ∃ keys values bytes, Encoder.sharedClass s.registry (es.map (·.1)) = .ok keys ∧
      Encoder.sharedClass s.registry (es.map (·.2)) = .ok values ∧
      Encoder.entries s room keys values es (numbers slots) = .ok (bytes, numbers slots') ∧
      Takes (· = slots) (entries (body s room)) (Varint.encode es.length ++
        ((if es.isEmpty then [] else Encoder.sharedTag keys ++ Encoder.sharedTag values) ++ bytes))
        es (· = slots') := by
  have hparts : ∀ e ∈ es, Announceable s e.1 ∧ Announceable s e.2 :=
    h.forall fun _ _ _ ⟨_, hk, hv⟩ => ⟨hk.announceable, hv.announceable⟩
  obtain ⟨keys, hkeys, hkeyTag, hk⟩ := exists_sharedTag
    (List.forall_mem_map.mpr fun e he => (hparts e he).1)
  obtain ⟨values, hvalues, hvalueTag, hv⟩ := exists_sharedTag
    (List.forall_mem_map.mpr fun e he => (hparts e he).2)
  obtain ⟨bytes, hbytes, htakes⟩ := h.entries_written
    (fun classId he e hmem => hk classId he _ (List.mem_map_of_mem hmem))
    (fun classId he e hmem => hv classId he _ (List.mem_map_of_mem hmem))
  have hcount : es.length * 2 ≤ bytes.length := Encoder.length_le_entries
    (fun e he hsome => (hk _ (Option.some_get hsome).symm _ (List.mem_map_of_mem he)).1)
    (fun e he hsome => (hv _ (Option.some_get hsome).symm _ (List.mem_map_of_mem he)).1) hbytes
  have hempty : es = [] → bytes = [] := by
    rintro rfl
    exact (Encoder.pure_eq_ok hbytes).1.symm
  have hne {β : Type} (f : Value × Value → β) (h : es ≠ []) : es.map f ≠ [] :=
    fun hmap => h (List.map_eq_nil_iff.mp hmap)
  refine ⟨keys, values, bytes, hkeys, hvalues, hbytes, ?_⟩
  rw [Writing.sharedTag_eq, Writing.sharedTag_eq]
  exact .entries hlength hcount (fun h => ⟨hkeyTag (hne _ h), hvalueTag (hne _ h)⟩) hempty htakes

end Written

section Contents

variable {s : CodecSettings} {g : Graph} {room position classId : Nat} {kind : ValueKind}
  {slots slots' : List DecodeSlot}

/-- A collection begins with its head. -/
theorem Begun.collection {form : CollectionForm} {items : List Value} {head : List UInt8}
    (hclass : (Value.collection position form items).classId s.registry = .ok classId)
    (hkind : ValueKind.ofClassId s.registry classId = .ok kind)
    (hhead : Encoder.collectionHead s room form = .ok head)
    (hlength : items.length < UInt64.size)
    (hitems : InTurn (ElementRestated s room) slots items slots')
    (hfresh : ∀ bytes, Takes (· = slots) (elements (body s room)) bytes items (· = slots') →
      Takes (· = slots) (fresh s (room + 1) position classId) (head ++ bytes)
        (.collection position form items) (· = slots')) :
    Begun s (room + 1) position classId kind slots (.collection position form items) slots' := by
  obtain ⟨shared, bytes, hshared, hbytes, htakes⟩ := hitems.collection_written hlength
  have htracked : kind.isTracked = form.isTracked := by
    obtain rfl := Except.ok.inj (hkind.symm.trans (ValueKind.ofClassId_collection hclass))
    cases form.isTracked <;> rfl
  refine ⟨nofun, hclass, fun room => Encoder.collectionContents s room form items, _,
    fun room => ?_, Encoder.collectionContents_of_parts hhead hshared hbytes, ?_⟩
  · rw [Encoder.body_collection, htracked]
  · rw [List.append_assoc, List.append_assoc]
    exact hfresh _ htakes

/-- A map begins with its head. -/
theorem Begun.map {form : MapForm} {pairs : List (Value × Value)} {head : List UInt8}
    (hhead : Encoder.mapHead s form = .ok head) (hlength : pairs.length < UInt64.size)
    (hpairs : InTurn (EntryRestated s room) slots pairs slots')
    (hfresh : ∀ bytes, Takes (· = slots) (entries (body s room)) bytes pairs (· = slots') →
      Takes (· = slots) (fresh s (room + 1) position ClassId.map) (head ++ bytes)
        (.map position form pairs) (· = slots')) :
    Begun s (room + 1) position ClassId.map .map slots (.map position form pairs) slots' := by
  obtain ⟨keys, values, bytes, hkeys, hvalues, hbytes, htakes⟩ := hpairs.map_written hlength
  refine ⟨nofun, rfl, fun room => Encoder.mapContents s room form pairs, _, fun room => ?_,
    Encoder.mapContents_of_parts hhead hkeys hvalues hbytes, ?_⟩
  · rw [Encoder.body_map]
    rfl
  · rw [List.append_assoc, List.append_assoc]
    exact hfresh _ htakes

/-- An object begins with its fields. -/
theorem Begun.object {c : RegisteredClass} {names : List String} {fields : List Value}
    (hid : s.registry.classIdOf c.name = .ok classId) (hge : 64 ≤ classId)
    (hc : s.registry.byClassId classId = .ok c) (hshape : c.shape = .object names)
    (hcount : fields.length = names.length)
    (hfields : InTurn (ElementRestated s room) slots fields slots') :
    Begun s (room + 1) position classId .object slots (.object position c.name fields) slots' := by
  obtain ⟨bytes, hbytes, htakes⟩ := hfields.elements_written none nofun
  refine ⟨nofun, hid, fun room => Encoder.objectContents s room c.name names fields, bytes,
    fun room => Encoder.body_object hid hc hshape,
    Encoder.objectContents_of_parts hcount.symm hbytes, ?_⟩
  rw [fresh, contents_registered _ _ _ _ hge]
  refine .after (.known hc) ?_
  rw [hshape]
  change Takes _ (repeated (tagged _) names.length >>= _) _ _ _
  rw [← hcount]
  exact htakes.andThen (.pure _)

/-- A value that keeps no identity begins with itself. -/
theorem Begun.untracked {v : Value} {bytes : List UInt8} (hne : v ≠ .null)
    (hclass : v.classId s.registry = .ok classId) (htracked : kind.isTracked = false)
    (hbytes : Encoder.body s room v (numbers slots) = .ok (bytes, numbers slots))
    (htakes : Takes (· = slots) (fresh s room position classId) bytes v (· = slots)) :
    Begun s room position classId kind slots v slots := by
  refine ⟨hne, hclass, fun room => Encoder.body s room v, bytes, fun room => ?_, hbytes, htakes⟩
  rw [htracked]
  rfl

variable {st st' : DecodeState} {v : Value}

/-- A scalar that is read. -/
theorem scalar_begun {t : ScalarType}
    (h : (.scalar <$> wire (Scalar.read t) : Decoder Value) st = .ok v st') :
    Begun s (room + 1) position t.classId .value st.slots v st'.slots ∧ st'.slots = st.slots := by
  obtain ⟨a, ha, rfl⟩ := map_eq_ok h
  obtain ⟨rest, hrest, rfl⟩ := wire_eq_ok ha
  obtain ⟨rfl, hpayload⟩ := Scalar.read_gives t _ _ _ hrest
  have hwritten : Encoder.body s (room + 1) (.scalar a) (numbers st.slots) =
      .ok (a.encode, numbers st.slots) := by
    rw [Encoder.body]
    rfl
  refine ⟨.untracked (fun hnull => Value.noConfusion hnull) rfl rfl hwritten ?_, rfl⟩
  rw [fresh, contents_scalar]
  exact (Takes.wire (Scalar.read_takes a hpayload)).map Value.scalar

/-- An array that is read. -/
theorem array_begun (hs : s.registry.Regular) (hb : BodiesRestated s g room)
    (hkind : ValueKind.ofClassId s.registry classId = .ok kind)
    (h : array s room (body s room) position classId st = .ok v st') (hr : Referable s st.slots)
    (hv : g.Holds v) :
    Begun s (room + 1) position classId kind st.slots v st'.slots ∧ Referable s st'.slots := by
  obtain ⟨type, rest, ⟨hvoid, head, hhead⟩, h⟩ := wire_bind_eq_ok (typeRef_gives hs room) h
  obtain ⟨_, hcheck, h⟩ := known_bind_eq_ok h
  obtain ⟨items, st₁, hitems, h⟩ := bind_eq_ok h
  obtain ⟨hmade, rfl⟩ := known_eq_ok h
  obtain ⟨rfl, hkeeps⟩ := Value.ofArray_eq_ok_iff.mp hmade
  have hclass : ClassId.ofArray type = classId := by
    unfold checkElementType at hcheck
    split at hcheck
    case isTrue => cases hcheck
    case isFalse hnot => exact Decidable.not_not.mp fun hne => hnot (.inr hne)
  subst hclass
  obtain ⟨hlength, hturn, hr'⟩ := hb.elements hitems hr fun w hw => hv.child hw
  refine ⟨.collection rfl hkind hhead hlength hturn fun bytes htakes => ?_, hr'⟩
  rw [fresh, contents_array]
  refine (Takes.wire (typeRef_takes hs type hhead hvoid)).bind ?_
  refine .after (.known (checkElementType_ofArray hkeeps.1)) ?_
  exact htakes.andThen (.known hmade)

/-- A list or set that is read. -/
theorem collection_begun (hg : g.Unsorted) (hb : BodiesRestated s g room)
    (h : collection s (body s room) position st = .ok v st') (hr : Referable s st.slots)
    (hv : g.Holds v) :
    Begun s (room + 1) position ClassId.collection .collection st.slots v st'.slots ∧
      Referable s st'.slots := by
  obtain ⟨tag, rest, h⟩ := wire_bind_eq_ok_any h
  cases hform : CollectionKind.ofTag? tag with
  | none =>
    rw [hform] at h
    cases h
  | some form =>
    rw [hform] at h
    cases form with
    | list =>
      obtain ⟨items, st₁, hitems, h⟩ := bind_eq_ok h
      obtain ⟨rfl, rfl⟩ := pure_eq_ok h
      obtain ⟨hlength, hturn, hr'⟩ := hb.elements hitems hr fun w hw => hv.child hw
      refine ⟨.collection rfl rfl rfl hlength hturn fun bytes htakes => ?_, hr'⟩
      refine (Takes.wire (Reader.byte_takes CollectionKind.list.tag)).bind ?_
      rw [CollectionKind.ofTag?_tag]
      exact htakes.andThen (.pure _)
    | set =>
      obtain ⟨items, st₁, hitems, h⟩ := bind_eq_ok h
      obtain ⟨rfl, rfl⟩ := pure_eq_ok h
      obtain ⟨hlength, hturn, hr'⟩ := hb.elements hitems hr fun w hw => hv.child hw
      refine ⟨.collection rfl rfl rfl hlength hturn fun bytes htakes => ?_, hr'⟩
      refine (Takes.wire (Reader.byte_takes CollectionKind.set.tag)).bind ?_
      rw [CollectionKind.ofTag?_tag]
      exact htakes.andThen (.pure _)
    | sortedSet =>
      obtain ⟨order, rest', h⟩ := wire_bind_eq_ok_any h
      obtain ⟨items, st₁, hitems, h⟩ := bind_eq_ok h
      obtain ⟨rfl, rfl⟩ := pure_eq_ok h
      exact absurd hv (hg.sets _ _ _)

/-- A map that is read. -/
theorem map_begun (hg : g.Unsorted) (hb : BodiesRestated s g room)
    (h : map s (body s room) position st = .ok v st') (hr : Referable s st.slots)
    (hv : g.Holds v) :
    Begun s (room + 1) position ClassId.map .map st.slots v st'.slots ∧
      Referable s st'.slots := by
  obtain ⟨tag, rest, h⟩ := wire_bind_eq_ok_any h
  cases hform : MapKind.ofTag? tag with
  | none =>
    rw [hform] at h
    cases h
  | some form =>
    rw [hform] at h
    cases form with
    | plain =>
      obtain ⟨pairs, st₁, hpairs, h⟩ := bind_eq_ok h
      obtain ⟨rfl, rfl⟩ := pure_eq_ok h
      obtain ⟨hlength, hturn, hr'⟩ := hb.entries hpairs hr fun e he =>
        ⟨hv.child (Value.mem_children_of_entry he).1, hv.child (Value.mem_children_of_entry he).2⟩
      refine ⟨.map rfl hlength hturn fun bytes htakes => ?_, hr'⟩
      refine (Takes.wire (Reader.byte_takes MapKind.plain.tag)).bind ?_
      rw [MapKind.ofTag?_tag]
      exact htakes.andThen (.pure _)
    | sorted =>
      obtain ⟨order, rest', h⟩ := wire_bind_eq_ok_any h
      obtain ⟨pairs, st₁, hpairs, h⟩ := bind_eq_ok h
      obtain ⟨rfl, rfl⟩ := pure_eq_ok h
      exact absurd hv (hg.maps _ _ _)

/-- An object or a variant that is read. -/
theorem registered_begun (hs : s.registry.Regular) (hb : BodiesRestated s g room)
    (hkind : ValueKind.ofClassId s.registry classId = .ok kind)
    (h : registered s (body s room) position classId st = .ok v st') (hr : Referable s st.slots)
    (hv : g.Holds v) :
    Begun s (room + 1) position classId kind st.slots v st'.slots ∧ Referable s st'.slots := by
  obtain ⟨c, hc, h⟩ := known_bind_eq_ok h
  obtain ⟨hge, hid⟩ := hs.classIdOf_byClassId hc
  cases hshape : c.shape with
  | object names =>
    rw [hshape] at h
    obtain ⟨fields, st₁, hfields, h⟩ := bind_eq_ok h
    obtain ⟨rfl, rfl⟩ := pure_eq_ok h
    obtain rfl : kind = .object := Except.ok.inj
      (hkind.symm.trans (ValueKind.ofClassId_registered _ hge hc (by rw [hshape])))
    obtain ⟨hcount, hturn, hr'⟩ := repeated_eq_ok (fun _ _ _ hitem hr hw => hb.tagged hitem hr hw)
      hfields hr fun w hw => hv.child hw
    exact ⟨.object hid hge hc hshape hcount hturn, hr'⟩
  | enum variants =>
    rw [hshape] at h
    obtain ⟨ordinal, rest, hordinal, h⟩ := wire_bind_eq_ok Varint.read32_gives h
    obtain rfl : kind = .enum := Except.ok.inj
      (hkind.symm.trans (ValueKind.ofClassId_registered _ hge hc (by rw [hshape])))
    by_cases hlt : ordinal < variants.length
    · rw [if_pos hlt] at h
      obtain ⟨rfl, rfl⟩ := pure_eq_ok h
      have hordinal' : ordinal.toUInt32.toNat = ordinal := Nat.mod_eq_of_lt hordinal
      have hwritten : Encoder.body s (room + 1) (.variant c.name ordinal.toUInt32)
          (numbers st.slots) = .ok (Varint.encode ordinal.toUInt32.toNat, numbers st.slots) :=
        Encoder.variantBody_of_declared hid hc hshape (by rwa [hordinal'])
      refine ⟨.untracked (fun hnull => Value.noConfusion hnull) hid rfl hwritten ?_, hr⟩
      rw [fresh, contents_registered _ _ _ _ hge, hordinal']
      refine .after (.known hc) ?_
      rw [hshape]
      refine (Takes.wire (Varint.read32_takes hordinal)).andThen ?_
      rw [if_pos hlt]
      exact .pure _
    · rw [if_neg hlt] at h
      cases h

/-- Whatever begins at a position, one level above bodies that are restated. -/
theorem contents_begun (hs : s.registry.Regular) (hg : g.Unsorted) (hb : BodiesRestated s g room)
    (hkind : ValueKind.ofClassId s.registry classId = .ok kind)
    (h : contents s room (body s room) position classId st = .ok v st')
    (hr : Referable s st.slots) (hv : g.Holds v) :
    Begun s (room + 1) position classId kind st.slots v st'.slots ∧ Referable s st'.slots := by
  unfold contents at h
  cases htype : ScalarType.ofClassId? classId with
  | some t =>
    have hclass : t.classId = classId := by simpa using List.find?_some htype
    subst hclass
    obtain rfl := Except.ok.inj (hkind.symm.trans (ValueKind.ofClassId_scalar _ t))
    rw [htype] at h
    have hscalar : Begun s (room + 1) position t.classId .value st.slots v st'.slots ∧
        st'.slots = st.slots := scalar_begun h
    obtain ⟨hbegun, hsame⟩ := hscalar
    exact ⟨hbegun, hsame ▸ hr⟩
  | none =>
    rw [htype] at h
    dsimp only at h
    split at h
    case isTrue => exact array_begun hs hb hkind h hr hv
    split at h
    case isTrue hclass =>
      subst hclass
      cases hkind
      exact collection_begun hg hb h hr hv
    split at h
    case isTrue hclass =>
      subst hclass
      cases hkind
      exact map_begun hg hb h hr hv
    · exact registered_begun hs hb hkind h hr hv

end Contents

section Bodies

variable {s : CodecSettings} {g : Graph}

/-- An instance that begins in a new slot is complete behind it. -/
theorem Begun.complete {room position classId : Nat} {kind : ValueKind}
    {slots slots' : List DecodeSlot} {v : Value}
    (h : Begun s room position classId kind slots v slots') (htracked : kind.isTracked = true) :
    Complete s position classId v := by
  obtain ⟨contents, _, hbody, -⟩ := h.spelled
  exact ⟨h.ne_null, h.class_eq, fun room => ⟨contents room, by rw [hbody room, if_pos htracked]⟩⟩

/-- Filling a slot with a complete instance leaves nothing that cannot be referred to. -/
theorem Referable.set {slots : List DecodeSlot} (hr : Referable s slots) {position classId : Nat}
    {v : Value} (hv : Complete s position classId v) :
    Referable s (slots.set position ⟨classId, some v⟩) := by
  intro position' classId' w hw
  rw [List.getElem?_set] at hw
  split at hw
  case isFalse => exact hr position' classId' w hw
  case isTrue heq =>
    split at hw
    · obtain ⟨rfl, hval⟩ := DecodeSlot.mk.inj (Option.some.inj hw)
      obtain rfl := Option.some.inj hval
      exact heq ▸ hv
    · cases hw

/-- A slot without an instance adds nothing that can be referred to. -/
theorem Referable.concat {slots : List DecodeSlot} (hr : Referable s slots) (classId : Nat) :
    Referable s (slots ++ [⟨classId, none⟩]) := by
  intro position classId' w hw
  by_cases hlt : position < slots.length
  · rw [List.getElem?_append_left hlt] at hw
    exact hr position classId' w hw
  · rw [List.getElem?_append_right (Nat.le_of_not_lt hlt)] at hw
    cases hposition : position - slots.length with
    | zero =>
      rw [hposition] at hw
      cases hw
    | succ n =>
      rw [hposition] at hw
      cases hw

/-- A body is restated if whatever begins in it is. -/
theorem restated_of_begun {room classId : Nat} (hlt : classId + 1 < UInt32.size)
    (hfresh : ∀ position kind st v st', ValueKind.ofClassId s.registry classId = .ok kind →
      fresh s room position classId st = .ok v st' → Referable s st.slots → g.Holds v →
      Begun s room position classId kind st.slots v st'.slots ∧ Referable s st'.slots)
    {st st' : DecodeState} {v : Value} (h : body s room classId st = .ok v st')
    (hr : Referable s st.slots) (hv : g.Holds v) :
    Restated s room classId st.slots v st'.slots ∧ Referable s st'.slots := by
  rw [body_eq] at h
  obtain ⟨kind, hkind, hnot, hread⟩ := bodyWith_eq_ok h
  cases hread with
  | plain htracked hplain =>
    obtain ⟨hbegun, hr'⟩ := hfresh 0 kind _ _ _ hkind hplain hr hv
    obtain ⟨contents, inner, hbody, hinner, htakes⟩ := hbegun.spelled
    refine ⟨⟨hbegun.ne_null, hbegun.class_eq, hlt, inner, ?_, ?_⟩, hr'⟩
    · rw [hbody room, htracked, if_neg (by decide), hinner]
    · rw [body_eq]
      exact .plain hkind hnot htracked htakes
  | @again htracked position rest hmarker hslot =>
    have hcomplete := hr position classId v hslot
    obtain ⟨contents, hbody⟩ := hcomplete.tracked room
    have hposition : position < st.slots.length := (List.getElem?_eq_some_iff.mp hslot).1
    have hword : position + 1 < UInt32.size := Varint.read32_gives _ _ _ hmarker
    refine ⟨⟨hcomplete.ne_null, hcomplete.class_eq, hlt, Varint.encode (position + 1), ?_, ?_⟩, hr⟩
    · rw [hbody, Encoder.track_again (idxOf?_numbers hposition),
        Encoder.marker_of_lt (Nat.lt_of_succ_lt hword)]
    · rw [body_eq]
      exact .again hkind htracked hword fun slots he => he ▸ hslot
  | @first htracked rest st₁ hmarker hfirst =>
    obtain ⟨hbegun, hr'⟩ := hfresh _ kind _ _ _ hkind hfirst (hr.concat classId) hv
    obtain ⟨contents, inner, hbody, hinner, htakes⟩ := hbegun.spelled
    refine ⟨⟨hbegun.ne_null, hbegun.class_eq, hlt, 0 :: inner, ?_, ?_⟩,
      hr'.set (hbegun.complete htracked)⟩
    · rw [numbers_concat] at hinner
      rw [hbody room, if_pos htracked,
        Encoder.track_first (length_notMem_numbers st.slots) hinner, numbers_set]
    · rw [body_eq]
      refine .first hkind htracked fun slots he => ⟨(· = st₁.slots), ?_, fun slots' he' => ?_⟩
      · rw [he]
        exact htakes
      · rw [he', he]

/-- Whatever of a graph without sorted containers is read as a body is restated. -/
theorem bodiesRestated (hs : s.registry.Regular) (hg : g.Unsorted) (room : Nat) :
    BodiesRestated s g room := by
  induction room with
  | zero =>
    intro classId st v st' hlt h hr hv
    exact restated_of_begun hlt (fun _ _ _ _ _ _ hthrow => by cases hthrow) h hr hv
  | succ room ih =>
    intro classId st v st' hlt h hr hv
    refine restated_of_begun hlt (fun position kind st v st' hkind hfresh hr hv => ?_) h hr hv
    exact contents_begun hs hg ih hkind hfresh hr hv

end Bodies

end Decoder

end RemoteCall
