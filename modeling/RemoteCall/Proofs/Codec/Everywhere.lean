import RemoteCall.Proofs.Codec.Tracing

/-!
# What holds everywhere in what is read

A property that null has, and that every value has whose contents are read on the way of a run,
holds everywhere in what the run gives: at any depth, and in the instances that references put there
too. The instances that are complete at a state of the run carry the induction: a reference gives
one of them, and an instance joins them when it is complete.
-/

namespace RemoteCall

/-- Later in a run: an end of the input is left, the slots stand where they were opened, and what is
complete stays as it is. -/
structure DecodeState.Leads (st st' : DecodeState) : Prop where
  rest : st'.rest <:+ st.rest
  slots : ∀ (position classId : Nat) (found : Option Value),
    st.slots[position]? = some ⟨classId, found⟩ → ∃ found', (found.isSome → found' = found) ∧
      st'.slots[position]? = some ⟨classId, found'⟩

namespace DecodeState

variable {st st₁ st' : DecodeState}

/-- A state leads on to what later states lead on to. -/
theorem Leads.trans (h : st.Leads st₁) (h' : st₁.Leads st') : st.Leads st' where
  rest := h'.rest.trans h.rest
  slots := by
    intro position classId found hslot
    obtain ⟨found₁, hfound₁, hslot₁⟩ := h.slots position classId found hslot
    obtain ⟨found', hfound', hslot'⟩ := h'.slots position classId found₁ hslot₁
    refine ⟨found', fun hsome => ?_, hslot'⟩
    rw [hfound' (hfound₁ hsome ▸ hsome), hfound₁ hsome]

/-- Whoever advances leads on. -/
theorem Advances.leads (h : st.Advances st') : st.Leads st' where
  rest := h.rest
  slots := by
    intro position classId found hslot
    obtain ⟨added, hadded⟩ := h.slots
    refine ⟨found, fun _ => rfl, ?_⟩
    rw [← hadded, List.getElem?_append_left (List.getElem?_eq_some_iff.mp hslot).1, hslot]

/-- Filling a slot that is still open leads on. -/
theorem Advances.leads_fill {rest : List UInt8} {read read' classId : Nat} (v : Value)
    (h : Advances ⟨rest, st.slots ++ [⟨classId, none⟩], read⟩ st₁) :
    Leads st₁ ⟨st₁.rest, st₁.slots.set st.slots.length ⟨classId, some v⟩, read'⟩ := by
  obtain ⟨added, hadded, hset⟩ := h.slots_eq
  refine ⟨List.suffix_rfl, fun position classId' found hslot => ?_⟩
  by_cases heq : position = st.slots.length
  · subst heq
    rw [hadded, List.getElem?_append_right (Nat.le_refl _), Nat.sub_self] at hslot
    cases hslot
    refine ⟨some v, fun hsome => absurd hsome (by decide), ?_⟩
    rw [hset, List.getElem?_append_right (Nat.le_refl _), Nat.sub_self]
    rfl
  · refine ⟨found, fun _ => rfl, ?_⟩
    rw [List.getElem?_set_ne (Ne.symm heq), hslot]

end DecodeState

/-- What holds of every value in the graph. -/
def Graph.Everywhere (P : Value → Prop) (g : Graph) : Prop := ∀ v, g.Holds v → P v

section Graphs

variable {P : Value → Prop}

/-- What holds of a value and everywhere in its parts holds everywhere in the value. -/
theorem Graph.Everywhere.of_children {v : Value} (hv : P v)
    (hparts : ∀ w ∈ v.children, Graph.Everywhere P [w]) : Graph.Everywhere P [v] := by
  intro u hu
  have hcases : u = v ∨ ∃ w ∈ v.children, Graph.Holds [w] u := by
    refine hu.induction (motive := fun u => u = v ∨ ∃ w ∈ v.children, Graph.Holds [w] u) ?_ ?_
    · intro w hw
      exact .inl (List.mem_singleton.mp hw)
    · rintro u (rfl | ⟨w, hw, hu⟩) part hpart
      · exact .inr ⟨part, hpart, Graph.holds_of_mem List.mem_cons_self⟩
      · exact .inr ⟨w, hw, hu.child hpart⟩
  rcases hcases with rfl | ⟨w, hw, hu⟩
  · exact hv
  · exact hparts w hw u hu

/-- What holds everywhere in the roots holds everywhere in the graph. -/
theorem Graph.Everywhere.of_roots {g : Graph} (h : ∀ v ∈ g, Graph.Everywhere P [v]) :
    Graph.Everywhere P g := by
  intro u hu
  obtain ⟨v, hv, hu⟩ : ∃ v ∈ g, Graph.Holds [v] u := by
    refine hu.induction (motive := fun u => ∃ v ∈ g, Graph.Holds [v] u) ?_ ?_
    · exact fun v hv => ⟨v, hv, Graph.holds_of_mem List.mem_cons_self⟩
    · exact fun u ⟨v, hv, hu⟩ w hw => ⟨v, hv, hu.child hw⟩
  exact h v hv u hu

end Graphs

namespace Decoder

/-- The property holds of null, and of every value whose contents are read between two states on the
way of a run over an input. -/
structure Granted (s : CodecSettings) (bytes : List UInt8) (final : DecodeState)
    (P : Value → Prop) : Prop where
  null : P .null
  contents : ∀ {room position : Nat} {st st' : DecodeState} {v : Value},
    ContentsRead s (Decoder.body s room) position st v st' →
    DecodeState.Leads ⟨bytes, [], 0⟩ st → st'.Leads final → P v

/-- It holds everywhere in every complete instance. -/
def SlotsKeep (P : Value → Prop) (slots : List DecodeSlot) : Prop :=
  ∀ classId v, ⟨classId, some v⟩ ∈ slots → Graph.Everywhere P [v]

/-- The way of a run from one state to another: from the start to the former, from the latter to
the end, and with complete instances that keep a property. -/
structure OnTheWay (bytes : List UInt8) (final : DecodeState) (P : Value → Prop)
    (st st' : DecodeState) : Prop where
  before : DecodeState.Leads ⟨bytes, [], 0⟩ st
  after : st'.Leads final
  slots : SlotsKeep P st.slots

/-- What is read as a body on the way of a run keeps the property, and so do the instances that are
complete then. -/
def BodiesKeep (bytes : List UInt8) (final : DecodeState) (P : Value → Prop)
    (body : Nat → Decoder Value) : Prop :=
  ∀ classId st v st', body classId st = .ok v st' → OnTheWay bytes final P st st' →
    Graph.Everywhere P [v] ∧ SlotsKeep P st'.slots

section Runs

variable {s : CodecSettings} {bytes : List UInt8} {final st st₁ st' : DecodeState}
  {P : Value → Prop} {body : Nat → Decoder Value} {v : Value} {vs : List Value}

/-- A row of bodies keeps what null and every body keep. -/
theorem BodiesKeep.reads (hb : BodiesKeep bytes final P body) (hnull : P .null)
    (hadvances : ∀ classId st v st', body classId st = .ok v st' → st.Advances st')
    (h : Reads body st vs st') (hway : OnTheWay bytes final P st st') :
    (∀ v ∈ vs, Graph.Everywhere P [v]) ∧ SlotsKeep P st'.slots := by
  induction h with
  | done st => exact ⟨fun v hv => absurd hv List.not_mem_nil, hway.slots⟩
  | wire left after ih =>
    exact ih ⟨hway.before.trans (DecodeState.advances_rest left).leads, hway.after, hway.slots⟩
  | null after ih =>
    obtain ⟨hvs, hslots⟩ := ih
      ⟨hway.before.trans (DecodeState.advances_counted _ _).leads, hway.after, hway.slots⟩
    refine ⟨fun v hv => ?_, hslots⟩
    rcases List.mem_cons.mp hv with rfl | hv
    · exact .of_children hnull fun w hw => absurd hw List.not_mem_nil
    · exact hvs v hv
  | body read after ih =>
    have hafter := (after.advances hadvances).leads
    obtain ⟨hfirst, hslots₁⟩ := hb _ _ _ _ read ⟨hway.before, hafter.trans hway.after, hway.slots⟩
    have hbefore := hway.before.trans (hadvances _ _ _ _ read).leads
    obtain ⟨hvs, hslots⟩ := ih ⟨hbefore, hway.after, hslots₁⟩
    refine ⟨fun v hv => ?_, hslots⟩
    rcases List.mem_cons.mp hv with rfl | hv
    · exact hfirst
    · exact hvs v hv

/-- A body keeps what is kept by whatever is read for it. -/
theorem BodyRead.keeps {fresh : Nat → Nat → Decoder Value} {classId : Nat} {kind : ValueKind}
    (hf : ∀ position st v st', fresh position classId st = .ok v st' →
      OnTheWay bytes final P st st' → Graph.Everywhere P [v] ∧ SlotsKeep P st'.slots)
    (hadvances : ∀ position st v st', fresh position classId st = .ok v st' → st.Advances st')
    (h : BodyRead s fresh classId kind st v st') (hway : OnTheWay bytes final P st st') :
    Graph.Everywhere P [v] ∧ SlotsKeep P st'.slots := by
  cases h with
  | plain htracked hfresh =>
    have hcounted := (DecodeState.advances_counted _ _).leads.trans hway.after
    have hresult := hf _ _ _ _ hfresh ⟨hway.before, hcounted, hway.slots⟩
    exact hresult
  | again htracked hmarker hslot =>
    exact ⟨hway.slots _ _ (List.mem_of_getElem? hslot), hway.slots⟩
  | first htracked hmarker hfresh =>
    have hleft := Varint.read32_fromFront.leaves _ _ _ hmarker
    have hfilled := ((hadvances _ _ _ _ hfresh).leads_fill v).trans hway.after
    have hopened : st.Advances ⟨_, st.slots ++ [⟨classId, none⟩], st.valuesRead⟩ :=
      ⟨hleft, List.prefix_append _ _⟩
    have hslots : SlotsKeep P (st.slots ++ [⟨classId, none⟩]) := by
      intro classId' w hw
      rcases List.mem_append.mp hw with hw | hw
      · exact hway.slots classId' w hw
      · cases List.mem_singleton.mp hw
    obtain ⟨hv, hslots₁⟩ := hf _ _ _ _ hfresh
      ⟨hway.before.trans hopened.leads, hfilled, hslots⟩
    refine ⟨hv, fun classId' w hw => ?_⟩
    rcases List.mem_or_eq_of_mem_set hw with hw | hw
    · exact hslots₁ classId' w hw
    · cases hw
      exact hv

/-- Bodies keep what is granted. -/
theorem Granted.bodies (hP : Granted s bytes final P) (room : Nat) :
    BodiesKeep bytes final P (Decoder.body s room) := by
  induction room with
  | zero =>
    intro classId st v st' h hway
    obtain ⟨kind, -, -, hread⟩ := bodyWith_eq_ok h
    refine hread.keeps ?_ ?_ hway
    · exact fun _ _ _ _ hfresh => by cases hfresh
    · exact fun _ _ _ _ hfresh => by cases hfresh
  | succ room ih =>
    intro classId st v st' h hway
    obtain ⟨kind, -, -, hread⟩ := bodyWith_eq_ok h
    refine hread.keeps (fun position st v st' hfresh hway => ?_) (fun position st v st' h => ?_)
      hway
    · have hcontents := contents_read hfresh
      obtain ⟨vs, hvs, hparts⟩ := hcontents.reads
      obtain ⟨hall, hslots⟩ := ih.reads hP.null (body_advances room) hvs hway
      exact ⟨.of_children (hP.contents hcontents hway.before hway.after)
        fun w hw => hall w (hparts hw), hslots⟩
    · obtain ⟨vs, hvs, -⟩ := (contents_read h).reads
      exact hvs.advances (body_advances room)

/-- A row of bodies from the beginning of an input to the end of a run keeps everywhere what is
granted. -/
theorem Granted.reads (hP : Granted s bytes final P) {left : List UInt8} (hleft : left <:+ bytes)
    (h : Reads (Decoder.body s s.maxDepth) ⟨left, [], 0⟩ vs final) : Graph.Everywhere P vs := by
  have hadvances : DecodeState.Advances ⟨bytes, [], 0⟩ ⟨left, [], 0⟩ := ⟨hleft, List.prefix_rfl⟩
  have hafter : final.Leads final := (DecodeState.Advances.refl final).leads
  have hnone : SlotsKeep P [] := fun _ _ hw => absurd hw List.not_mem_nil
  have hall := (hP.bodies s.maxDepth).reads hP.null (body_advances s.maxDepth) h
    ⟨hadvances.leads, hafter, hnone⟩
  exact .of_roots hall.1

/-- A run on a whole input ends in a state. -/
theorem exists_final {α : Type} {d : Decoder α} {a : α} (h : d.run bytes = .ok a) :
    ∃ final, d ⟨bytes, [], 0⟩ = .ok a final := by
  obtain ⟨final, hfinal, -⟩ := run_eq_ok h
  exact ⟨final, hfinal⟩

/-- What is granted holds everywhere in a decoded value. -/
theorem Granted.value (hP : Granted s bytes final P) (h : value s ⟨bytes, [], 0⟩ = .ok v final) :
    Graph.Everywhere P [v] :=
  hP.reads List.suffix_rfl (tagged_reads h)

/-- What is granted holds everywhere in the arguments of a decoded request. -/
theorem Granted.request (hP : Granted s bytes final P) {r : Request}
    (h : request s ⟨bytes, [], 0⟩ = .ok r final) : Graph.Everywhere P r.arguments := by
  obtain ⟨_, rest₁, hleft₁, h⟩ := wire_bind_leaves (envelopeTag_fromFront _ _) h
  obtain ⟨id, rest₂, hleft₂, h⟩ := wire_bind_leaves Varint.read_fromFront h
  obtain ⟨timestamp, rest₃, hleft₃, h⟩ := wire_bind_leaves Varint.readSigned_fromFront h
  obtain ⟨service, rest₄, hleft₄, h⟩ := wire_bind_leaves Sized.readText_fromFront h
  obtain ⟨method, rest₅, hleft₅, h⟩ := wire_bind_leaves Sized.readText_fromFront h
  obtain ⟨sig, rest₆, hleft₆, h⟩ := wire_bind_leaves (signature_fromFront s) h
  obtain ⟨count, rest₇, hleft₇, h⟩ := wire_bind_leaves (Sized.readCount_fromFront 1) h
  obtain ⟨arguments, st, harguments, h⟩ := bind_eq_ok h
  obtain ⟨rfl, rfl⟩ := pure_eq_ok h
  have hleft : rest₇ <:+ bytes := hleft₇.trans (hleft₆.trans (hleft₅.trans (hleft₄.trans
    (hleft₃.trans (hleft₂.trans hleft₁)))))
  exact hP.reads hleft (repeated_reads_values (fun _ _ _ => tagged_reads) harguments)

/-- What is granted holds everywhere in the payload of a decoded response. -/
theorem Granted.response (hP : Granted s bytes final P) {r : Response}
    (h : response s ⟨bytes, [], 0⟩ = .ok r final) : Graph.Everywhere P [r.payload] := by
  obtain ⟨_, rest₁, hleft₁, h⟩ := wire_bind_leaves (envelopeTag_fromFront _ _) h
  obtain ⟨id, rest₂, hleft₂, h⟩ := wire_bind_leaves Varint.read_fromFront h
  obtain ⟨timestamp, rest₃, hleft₃, h⟩ := wire_bind_leaves Varint.readSigned_fromFront h
  obtain ⟨result, rest₄, hleft₄, h⟩ := wire_bind_leaves status_fromFront h
  obtain ⟨message, rest₅, hleft₅, h⟩ := wire_bind_leaves Sized.readOptionalText_fromFront h
  obtain ⟨payload, st, hpayload, h⟩ := bind_eq_ok h
  obtain ⟨rfl, rfl⟩ := pure_eq_ok h
  have hleft : rest₅ <:+ bytes :=
    hleft₅.trans (hleft₄.trans (hleft₃.trans (hleft₂.trans hleft₁)))
  exact hP.reads hleft (tagged_reads hpayload)

end Runs

end Decoder

end RemoteCall
