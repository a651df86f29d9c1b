import RemoteCall.Proofs.Codec.Accepting
import RemoteCall.Proofs.Codec.Declared
import RemoteCall.Proofs.Codec.Leaving
import RemoteCall.Proofs.Value.Built

/-!
# The trace of a reader

What a reader of contents does between two states is a row of bodies and nulls, with nothing but
the wire between them, and the parts of what it gives are found in the row. So what holds of every
body that is read holds of the contents by an induction on the row, whatever is read. The first such
fact is that a reader advances: it leaves an end of its input, and the slots that it finds in their
places.
-/

namespace RemoteCall

/-- Later in a run, with the slots that were opened since behind those that there were. -/
structure DecodeState.Advances (st st' : DecodeState) : Prop where
  rest : st'.rest <:+ st.rest
  slots : st.slots <+: st'.slots

namespace DecodeState

variable {st st₁ st' : DecodeState}

/-- A state advances to itself. -/
theorem Advances.refl (st : DecodeState) : st.Advances st := ⟨List.suffix_rfl, List.prefix_rfl⟩

/-- A state advances to what later states advance to. -/
theorem Advances.trans (h : st.Advances st₁) (h' : st₁.Advances st') : st.Advances st' :=
  ⟨h'.rest.trans h.rest, h.slots.trans h'.slots⟩

/-- Reading of the wire advances. -/
theorem advances_rest {rest : List UInt8} {read : Nat} (h : rest <:+ st.rest) :
    st.Advances ⟨rest, st.slots, read⟩ := ⟨h, List.prefix_rfl⟩

/-- Counting of values advances. -/
theorem advances_counted (st : DecodeState) (read : Nat) :
    st.Advances { st with valuesRead := read } := ⟨List.suffix_rfl, List.prefix_rfl⟩

/-- Behind a slot that has been opened nothing else stands in its place. -/
theorem Advances.slots_eq {rest : List UInt8} {read : Nat} {slot : DecodeSlot}
    (h : Advances ⟨rest, st.slots ++ [slot], read⟩ st₁) :
    ∃ added, st₁.slots = st.slots ++ slot :: added ∧
      ∀ slot', st₁.slots.set st.slots.length slot' = st.slots ++ slot' :: added := by
  obtain ⟨added, hadded⟩ := h.slots
  rw [List.append_assoc, List.singleton_append] at hadded
  refine ⟨added, hadded.symm, fun slot' => ?_⟩
  rw [← hadded, List.set_append_right _ _ (Nat.le_refl _), Nat.sub_self, List.set_cons_zero]

/-- An instance that begins in a slot, advances and is complete in that slot advances. -/
theorem Advances.fill {rest : List UInt8} {read read' classId : Nat} (v : Value)
    (hleft : rest <:+ st.rest)
    (h : Advances ⟨rest, st.slots ++ [⟨classId, none⟩], read⟩ st₁) :
    Advances st ⟨st₁.rest, st₁.slots.set st.slots.length ⟨classId, some v⟩, read'⟩ := by
  obtain ⟨added, -, hset⟩ := h.slots_eq
  refine ⟨h.rest.trans hleft, ?_⟩
  rw [hset]
  exact List.prefix_append _ _

end DecodeState

namespace Decoder

/-- Between two states these values are read, each as a body or as null. -/
inductive Reads (body : Nat → Decoder Value) : DecodeState → List Value → DecodeState → Prop
  /-- Nothing more is read. -/
  | done (st : DecodeState) : Reads body st [] st
  /-- Something of the wire is read that is no value. -/
  | wire {st st' : DecodeState} {rest : List UInt8} {vs : List Value} (left : rest <:+ st.rest)
      (after : Reads body { st with rest } vs st') : Reads body st vs st'
  /-- Null is counted. -/
  | null {st st' : DecodeState} {vs : List Value}
      (after : Reads body { st with valuesRead := st.valuesRead + 1 } vs st') :
      Reads body st (.null :: vs) st'
  /-- A body is read. -/
  | body {st st₁ st' : DecodeState} {classId : Nat} {v : Value} {vs : List Value}
      (read : body classId st = .ok v st₁) (after : Reads body st₁ vs st') :
      Reads body st (v :: vs) st'

section Rows

variable {body : Nat → Decoder Value} {st st₁ st' : DecodeState} {v : Value} {vs ws : List Value}

/-- A body on its own. -/
theorem Reads.one {classId : Nat} (h : body classId st = .ok v st') : Reads body st [v] st' :=
  .body h (.done st')

/-- One row after another. -/
theorem Reads.append (h : Reads body st vs st₁) (h' : Reads body st₁ ws st') :
    Reads body st (vs ++ ws) st' := by
  induction h with
  | done => exact h'
  | wire left _ ih => exact .wire left (ih h')
  | null _ ih => exact .null (ih h')
  | body read _ ih => exact .body read (ih h')

/-- A reader of the wire leaves an end of the input to the next step. -/
theorem wire_bind_leaves {r : Reader α} {f : α → Decoder β} {b : β} (hr : r.FromFront)
    (h : (wire r >>= f) st = .ok b st') :
    ∃ a rest, rest <:+ st.rest ∧ f a { st with rest } = .ok b st' := by
  obtain ⟨a, rest, hread, h⟩ := wire_bind_read h
  exact ⟨a, rest, hr.leaves _ _ _ hread, h⟩

/-- A tagged value is null or a body. -/
theorem tagged_reads (h : tagged body st = .ok v st') : Reads body st [v] st' := by
  obtain ⟨tag, rest, hleft, h⟩ := wire_bind_leaves Varint.read32_fromFront h
  refine .wire hleft ?_
  split at h
  · cases h
    exact .null (.done _)
  · exact .one h

/-- An element is null or a body. -/
theorem element_reads {tag : Nat} (h : element body tag st = .ok v st') :
    Reads body st [v] st' := by
  unfold element at h
  split at h
  · exact tagged_reads h
  · exact .one h

/-- What is repeated reads its rows in turn. -/
theorem repeated_reads {item : Decoder α} {row : α → List Value}
    (hitem : ∀ st a st', item st = .ok a st' → Reads body st (row a) st') {count : Nat}
    {as : List α} (h : repeated item count st = .ok as st') :
    Reads body st (as.flatMap row) st' := by
  induction count generalizing st as with
  | zero =>
    obtain ⟨rfl, rfl⟩ := pure_eq_ok h
    exact .done _
  | succ count ih =>
    obtain ⟨a, st₁, ha, h⟩ := bind_eq_ok h
    obtain ⟨rest, st₂, hrest, h⟩ := bind_eq_ok h
    obtain ⟨rfl, rfl⟩ := pure_eq_ok h
    exact (hitem _ _ _ ha).append (ih hrest)

/-- Repeated values are a row. -/
theorem repeated_reads_values {item : Decoder Value}
    (hitem : ∀ st v st', item st = .ok v st' → Reads body st [v] st') {count : Nat}
    (h : repeated item count st = .ok vs st') : Reads body st vs st' := by
  have hrow := repeated_reads hitem h
  rwa [List.flatMap_singleton'] at hrow

/-- The elements of a collection are a row. -/
theorem elements_reads (h : elements body st = .ok vs st') : Reads body st vs st' := by
  obtain ⟨count, rest, hleft, h⟩ := wire_bind_leaves (Sized.readCount_fromFront 1) h
  refine .wire hleft ?_
  split at h
  · obtain ⟨rfl, rfl⟩ := pure_eq_ok h
    exact .done _
  · obtain ⟨tag, rest', hleft', h⟩ := wire_bind_leaves Varint.read32_fromFront h
    exact .wire hleft' (repeated_reads_values (fun _ _ _ => element_reads) h)

/-- The entries of a map are a row, each key before its value. -/
theorem entries_reads {es : List (Value × Value)} (h : entries body st = .ok es st') :
    Reads body st (es.flatMap fun e => [e.1, e.2]) st' := by
  obtain ⟨count, rest, hleft, h⟩ := wire_bind_leaves (Sized.readCount_fromFront 2) h
  refine .wire hleft ?_
  split at h
  · obtain ⟨rfl, rfl⟩ := pure_eq_ok h
    exact .done _
  · obtain ⟨keyTag, rest₁, hleft₁, h⟩ := wire_bind_leaves Varint.read32_fromFront h
    obtain ⟨valueTag, rest₂, hleft₂, h⟩ := wire_bind_leaves Varint.read32_fromFront h
    refine .wire hleft₁ (.wire hleft₂ (repeated_reads (fun st e st' he => ?_) h))
    obtain ⟨k, st₁, hk, he⟩ := bind_eq_ok he
    obtain ⟨v, st₂, hv, he⟩ := bind_eq_ok he
    obtain ⟨rfl, rfl⟩ := pure_eq_ok he
    exact (element_reads hk).append (element_reads hv)

end Rows

section Contents

variable {s : CodecSettings} {body : Nat → Decoder Value} {st st' : DecodeState}
  {room position classId : Nat} {v : Value}

/-- How the contents of a value have been read, given the reader of the bodies inside, and what has
been checked on the way. -/
inductive ContentsRead (s : CodecSettings) (body : Nat → Decoder Value) (position : Nat)
    (st : DecodeState) : Value → DecodeState → Prop
  | scalar (a : Scalar) {rest : List UInt8} (left : rest <:+ st.rest) :
      ContentsRead s body position st (.scalar a) { st with rest }
  /-- A variant is one of those that its class declares. -/
  | variant {className : String} {variants : List String} {ordinal : UInt32} {rest : List UInt8}
      (declared : s.registry.Declares className (.enum variants))
      (inRange : ordinal.toNat < variants.length) (left : rest <:+ st.rest) :
      ContentsRead s body position st (.variant className ordinal) { st with rest }
  /-- The items of an array stand behind its element type, which accepts them. -/
  | array {type : TypeRef} {rest : List UInt8} {items : List Value} {st' : DecodeState}
      (declared : type.Declared s.registry) (keeps : (CollectionForm.array type).Keeps items)
      (left : rest <:+ st.rest) (read : elements body { st with rest } = .ok items st') :
      ContentsRead s body position st (.collection position (.array type) items) st'
  /-- The items of a list stand behind its kind. -/
  | list {rest : List UInt8} {items : List Value} {st' : DecodeState} (left : rest <:+ st.rest)
      (read : elements body { st with rest } = .ok items st') :
      ContentsRead s body position st (.collection position .list items) st'
  /-- The items of a set stand behind its kind. -/
  | set {rest : List UInt8} {items : List Value} {st' : DecodeState} (left : rest <:+ st.rest)
      (read : elements body { st with rest } = .ok items st') :
      ContentsRead s body position st (.collection position .set items) st'
  /-- What a sorted set is made from stands behind its comparator, which is permitted. -/
  | sortedSet {order : Comparator} {rest : List UInt8} {items : List Value} {st' : DecodeState}
      (permitted : s.comparators.permits order = true) (left : rest <:+ st.rest)
      (read : elements body { st with rest } = .ok items st') :
      ContentsRead s body position st (.ofSortedSet position order items) st'
  /-- The entries of a map stand behind its kind. -/
  | map {rest : List UInt8} {es : List (Value × Value)} {st' : DecodeState}
      (left : rest <:+ st.rest) (read : entries body { st with rest } = .ok es st') :
      ContentsRead s body position st (.map position .plain es) st'
  /-- What a sorted map is made from stands behind its comparator, which is permitted. -/
  | sortedMap {order : Comparator} {rest : List UInt8} {es : List (Value × Value)}
      {st' : DecodeState} (permitted : s.comparators.permits order = true)
      (left : rest <:+ st.rest) (read : entries body { st with rest } = .ok es st') :
      ContentsRead s body position st (.ofSortedEntries position order es) st'
  /-- An object is its fields, as many as its class declares. -/
  | object {className : String} {names : List String} {fields : List Value} {st' : DecodeState}
      (declared : s.registry.Declares className (.object names))
      (read : repeated (tagged body) names.length st = .ok fields st') :
      ContentsRead s body position st (.object position className fields) st'

/-- An array has been read with a type that is declared, and with elements that it keeps. -/
theorem array_contents (h : array s room body position classId st = .ok v st') :
    ContentsRead s body position st v st' := by
  obtain ⟨type, rest, htype, h⟩ := wire_bind_read h
  have hleft := (typeRef_fromFront s room).leaves _ _ _ htype
  obtain ⟨_, _, h⟩ := known_bind_eq_ok h
  obtain ⟨items, st₁, hitems, h⟩ := bind_eq_ok h
  obtain ⟨hv, rfl⟩ := known_eq_ok h
  obtain ⟨rfl, hkeeps⟩ := Value.ofArray_eq_ok_iff.mp hv
  exact .array (typeRef_declared s room _ _ _ htype) hkeeps hleft hitems

/-- A collection has been read by its kind, a sorted set by a comparator that is permitted. -/
theorem collection_contents (h : collection s body position st = .ok v st') :
    ContentsRead s body position st v st' := by
  obtain ⟨tag, rest, hleft, h⟩ := wire_bind_leaves Reader.byte_fromFront h
  cases hkind : CollectionKind.ofTag? tag with
  | none =>
    rw [hkind] at h
    cases h
  | some kind =>
    rw [hkind] at h
    cases kind with
    | list =>
      obtain ⟨items, st₁, hitems, h⟩ := bind_eq_ok h
      obtain ⟨rfl, rfl⟩ := pure_eq_ok h
      exact .list hleft hitems
    | set =>
      obtain ⟨items, st₁, hitems, h⟩ := bind_eq_ok h
      obtain ⟨rfl, rfl⟩ := pure_eq_ok h
      exact .set hleft hitems
    | sortedSet =>
      obtain ⟨order, rest', horder, h⟩ := wire_bind_read h
      have hleft' := (comparator_fromFront s).leaves _ _ _ horder
      obtain ⟨items, st₁, hitems, h⟩ := bind_eq_ok h
      obtain ⟨rfl, rfl⟩ := pure_eq_ok h
      exact .sortedSet (comparator_permitted s _ _ _ horder) (hleft'.trans hleft) hitems

/-- A map has been read by its kind, a sorted map by a comparator that is permitted. -/
theorem map_contents (h : map s body position st = .ok v st') :
    ContentsRead s body position st v st' := by
  obtain ⟨tag, rest, hleft, h⟩ := wire_bind_leaves Reader.byte_fromFront h
  cases hkind : MapKind.ofTag? tag with
  | none =>
    rw [hkind] at h
    cases h
  | some kind =>
    rw [hkind] at h
    cases kind with
    | plain =>
      obtain ⟨es, st₁, hes, h⟩ := bind_eq_ok h
      obtain ⟨rfl, rfl⟩ := pure_eq_ok h
      exact .map hleft hes
    | sorted =>
      obtain ⟨order, rest', horder, h⟩ := wire_bind_read h
      have hleft' := (comparator_fromFront s).leaves _ _ _ horder
      obtain ⟨es, st₁, hes, h⟩ := bind_eq_ok h
      obtain ⟨rfl, rfl⟩ := pure_eq_ok h
      exact .sortedMap (comparator_permitted s _ _ _ horder) (hleft'.trans hleft) hes

/-- An instance of a registered class has been read as the class declares. -/
theorem registered_contents (h : registered s body position classId st = .ok v st') :
    ContentsRead s body position st v st' := by
  obtain ⟨c, hc, h⟩ := known_bind_eq_ok h
  have hdeclared := Registry.declares_of_byClassId hc
  cases hshape : c.shape with
  | object names =>
    rw [hshape] at h hdeclared
    obtain ⟨fields, st₁, hfields, h⟩ := bind_eq_ok h
    obtain ⟨rfl, rfl⟩ := pure_eq_ok h
    exact .object hdeclared hfields
  | enum variants =>
    rw [hshape] at h hdeclared
    obtain ⟨ordinal, rest, hleft, h⟩ := wire_bind_leaves Varint.read32_fromFront h
    split at h
    case isTrue hlt =>
      obtain ⟨rfl, rfl⟩ := pure_eq_ok h
      have hword : ordinal.toUInt32.toNat ≤ ordinal := Nat.mod_le _ _
      exact .variant hdeclared (Nat.lt_of_le_of_lt hword hlt) hleft
    case isFalse => cases h

/-- Contents have been read in one of these ways. -/
theorem contents_read (h : contents s room body position classId st = .ok v st') :
    ContentsRead s body position st v st' := by
  unfold contents at h
  cases hscalar : ScalarType.ofClassId? classId with
  | some t =>
    rw [hscalar] at h
    obtain ⟨a, ha, rfl⟩ := map_eq_ok h
    obtain ⟨rest, hrest, rfl⟩ := wire_eq_ok ha
    exact .scalar a ((Scalar.read_fromFront t).leaves _ _ _ hrest)
  | none =>
    rw [hscalar] at h
    dsimp only at h
    split at h
    · exact array_contents h
    split at h
    · exact collection_contents h
    split at h
    · exact map_contents h
    · exact registered_contents h

/-- The parts of a value are found in the row that is read for its contents. -/
theorem ContentsRead.reads (h : ContentsRead s body position st v st') :
    ∃ vs, Reads body st vs st' ∧ v.children ⊆ vs := by
  cases h with
  | scalar a left => exact ⟨[], .wire left (.done _), List.nil_subset _⟩
  | variant declared inRange left => exact ⟨[], .wire left (.done _), List.nil_subset _⟩
  | array declared keeps left read =>
    exact ⟨_, .wire left (elements_reads read), List.Subset.refl _⟩
  | list left read => exact ⟨_, .wire left (elements_reads read), List.Subset.refl _⟩
  | set left read => exact ⟨_, .wire left (elements_reads read), List.Subset.refl _⟩
  | sortedSet permitted left read =>
    exact ⟨_, .wire left (elements_reads read), fun w hw => mem_of_mem_arrange hw⟩
  | map left read => exact ⟨_, .wire left (entries_reads read), List.Subset.refl _⟩
  | sortedMap permitted left read =>
    refine ⟨_, .wire left (entries_reads read), fun w hw => ?_⟩
    obtain ⟨e, he, hw⟩ := List.mem_flatMap.mp hw
    exact List.mem_flatMap.mpr ⟨e, List.mem_reverse.mp (mem_of_mem_arrange he), hw⟩
  | object declared read =>
    exact ⟨_, repeated_reads_values (fun _ _ _ => tagged_reads) read, List.Subset.refl _⟩

end Contents

section Advancing

variable {s : CodecSettings} {st st' : DecodeState}

/-- If bodies advance, so does a row of them. -/
theorem Reads.advances {body : Nat → Decoder Value} {vs : List Value}
    (hb : ∀ classId st v st', body classId st = .ok v st' → st.Advances st')
    (h : Reads body st vs st') : st.Advances st' := by
  induction h with
  | done st => exact .refl st
  | wire left after ih => exact (DecodeState.advances_rest left).trans ih
  | null after ih => exact (DecodeState.advances_counted _ _).trans ih
  | body read after ih => exact (hb _ _ _ _ read).trans ih

/-- A body advances if what is read for it does. -/
theorem BodyRead.advances {fresh : Nat → Nat → Decoder Value} {classId : Nat} {kind : ValueKind}
    {v : Value}
    (hf : ∀ position classId st v st', fresh position classId st = .ok v st' → st.Advances st')
    (h : BodyRead s fresh classId kind st v st') : st.Advances st' := by
  cases h with
  | plain htracked hfresh =>
    exact (hf _ _ _ _ _ hfresh).trans (DecodeState.advances_counted _ _)
  | again htracked hmarker hslot =>
    exact DecodeState.advances_rest (Varint.read32_fromFront.leaves _ _ _ hmarker)
  | first htracked hmarker hfresh =>
    exact (hf _ _ _ _ _ hfresh).fill v (Varint.read32_fromFront.leaves _ _ _ hmarker)

/-- Bodies advance. -/
theorem body_advances (room : Nat) :
    ∀ classId st v st', body s room classId st = .ok v st' → st.Advances st' := by
  induction room with
  | zero =>
    intro classId st v st' h
    obtain ⟨kind, -, -, hread⟩ := bodyWith_eq_ok h
    exact hread.advances fun _ _ _ _ _ hfresh => by cases hfresh
  | succ room ih =>
    intro classId st v st' h
    obtain ⟨kind, -, -, hread⟩ := bodyWith_eq_ok h
    refine hread.advances fun position classId st v st' hfresh => ?_
    obtain ⟨vs, hvs, -⟩ := (contents_read hfresh).reads
    exact hvs.advances ih

end Advancing

end Decoder

end RemoteCall
