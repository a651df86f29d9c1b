import RemoteCall.Codec.Decode
import RemoteCall.Proofs.Wire.Accepted

/-!
# What a reader has read

A decoder that succeeds has taken all of its steps, so its result comes apart into theirs. A value
is read in its place, as a reference to an instance that is complete, or into a slot of its own that
is filled behind it.
-/

namespace RemoteCall

namespace Decoder

variable {st st' : DecodeState}

/-- The second step begins where the first has ended. -/
theorem bind_of_ok {d : Decoder α} {f : α → Decoder β} {a : α} {st₁ : DecodeState}
    (h : d st = .ok a st₁) : (d >>= f) st = f a st₁ := by
  change EStateM.bind d f st = _
  rw [EStateM.bind, h]

/-- Two steps in a row both succeed. -/
theorem bind_eq_ok {d : Decoder α} {f : α → Decoder β} {b : β} (h : (d >>= f) st = .ok b st') :
    ∃ a st₁, d st = .ok a st₁ ∧ f a st₁ = .ok b st' := by
  change EStateM.bind d f st = _ at h
  rw [EStateM.bind] at h
  cases hd : d st with
  | error e st₁ =>
    rw [hd] at h
    cases h
  | ok a st₁ =>
    rw [hd] at h
    exact ⟨a, st₁, rfl, h⟩

/-- A known result changes nothing. -/
theorem pure_eq_ok {a b : α} (h : (pure a : Decoder α) st = .ok b st') : a = b ∧ st = st' := by
  cases h
  exact ⟨rfl, rfl⟩

/-- A datum that is rewrapped has been read. -/
theorem map_eq_ok {d : Decoder α} {f : α → β} {b : β} (h : (f <$> d) st = .ok b st') :
    ∃ a, d st = .ok a st' ∧ b = f a := by
  rw [← bind_pure_comp] at h
  obtain ⟨a, st₁, ha, h⟩ := bind_eq_ok h
  obtain ⟨rfl, rfl⟩ := pure_eq_ok h
  exact ⟨a, ha, rfl⟩

/-- A reader of the wire leaves a rest of the input. -/
theorem wire_eq_ok {r : Reader α} {a : α} (h : wire r st = .ok a st') :
    ∃ rest, r st.rest = .ok (a, rest) ∧ st' = { st with rest } := by
  unfold wire at h
  split at h
  case h_1 found rest hr =>
    cases h
    exact ⟨rest, hr, rfl⟩
  case h_2 => cases h

/-- A datum of the wire is read before the next step. -/
theorem wire_bind_read {r : Reader α} {f : α → Decoder β} {b : β}
    (h : (wire r >>= f) st = .ok b st') :
    ∃ a rest, r st.rest = .ok (a, rest) ∧ f a { st with rest } = .ok b st' := by
  obtain ⟨a, st₁, ha, h⟩ := bind_eq_ok h
  obtain ⟨rest, hrest, rfl⟩ := wire_eq_ok ha
  exact ⟨a, rest, hrest, h⟩

/-- A datum of the wire has the property that its reader gives. -/
theorem wire_bind_eq_ok {P : α → Prop} {r : Reader α} {f : α → Decoder β} {b : β}
    (hr : r.Gives P) (h : (wire r >>= f) st = .ok b st') :
    ∃ a rest, P a ∧ f a { st with rest } = .ok b st' := by
  obtain ⟨a, rest, hread, h⟩ := wire_bind_read h
  exact ⟨a, rest, hr _ _ _ hread, h⟩

/-- A datum of the wire of which nothing needs to be known. -/
theorem wire_bind_eq_ok_any {r : Reader α} {f : α → Decoder β} {b : β}
    (h : (wire r >>= f) st = .ok b st') : ∃ a rest, f a { st with rest } = .ok b st' := by
  obtain ⟨a, rest, -, h⟩ := wire_bind_read h
  exact ⟨a, rest, h⟩

/-- A check succeeds and changes nothing. -/
theorem known_bind_eq_ok {x : Except CodecError α} {f : α → Decoder β} {b : β}
    (h : (known x >>= f) st = .ok b st') : ∃ a, x = .ok a ∧ f a st = .ok b st' := by
  cases x with
  | error e => cases h
  | ok a => exact ⟨a, rfl, h⟩

/-- A last check succeeds and changes nothing. -/
theorem known_eq_ok {x : Except CodecError α} {a : α} (h : known x st = .ok a st') :
    x = .ok a ∧ st' = st := by
  cases x with
  | error e => cases h
  | ok b =>
    cases h
    exact ⟨rfl, rfl⟩

/-- A reference gives the complete instance of a slot that was announced under the same class. -/
theorem referenced_eq_ok {classId position : Nat} {v : Value}
    (h : referenced classId position st = .ok v st') :
    st.slots[position]? = some ⟨classId, some v⟩ ∧ st' = st := by
  unfold referenced at h
  obtain ⟨found, st₁, hget, h⟩ := bind_eq_ok h
  cases hget
  cases hslot : st.slots[position]? with
  | none =>
    rw [hslot] at h
    cases h
  | some slot =>
    obtain ⟨announced, value⟩ := slot
    rw [hslot] at h
    by_cases hclass : announced = classId
    · subst hclass
      cases value with
      | none =>
        simp only [ne_eq, not_true_eq_false, if_false] at h
        cases h
      | some w =>
        simp only [ne_eq, not_true_eq_false, if_false] at h
        cases h
        exact ⟨rfl, rfl⟩
    · simp only [ne_eq, hclass, not_false_eq_true, if_true] at h
      cases h

/-- How the body of a value has been read. -/
inductive BodyRead (s : CodecSettings) (fresh : Nat → Nat → Decoder Value) (classId : Nat)
    (kind : ValueKind) (st : DecodeState) (v : Value) : DecodeState → Prop
  /-- The value keeps no identity and stands here. -/
  | plain (htracked : kind.isTracked = false) {st₁ : DecodeState}
      (hfresh : fresh 0 classId st = .ok v st₁) :
      BodyRead s fresh classId kind st v { st₁ with valuesRead := st₁.valuesRead + 1 }
  /-- The value is the complete instance of an earlier slot. -/
  | again (htracked : kind.isTracked = true) {position : Nat} {rest : List UInt8}
      (hmarker : Varint.read32 st.rest = .ok (position + 1, rest))
      (hslot : st.slots[position]? = some ⟨classId, some v⟩) :
      BodyRead s fresh classId kind st v ⟨rest, st.slots, st.valuesRead + 1⟩
  /-- The value is an instance that begins here. -/
  | first (htracked : kind.isTracked = true) {rest : List UInt8} {st₁ : DecodeState}
      (hmarker : Varint.read32 st.rest = .ok (0, rest))
      (hfresh : fresh st.slots.length classId
        ⟨rest, st.slots ++ [⟨classId, none⟩], st.valuesRead⟩ = .ok v st₁) :
      BodyRead s fresh classId kind st v
        ⟨st₁.rest, st₁.slots.set st.slots.length ⟨classId, some v⟩, st₁.valuesRead + 1⟩

/-- A body is a value in its place, a reference, or an instance that begins. -/
theorem bodyWith_eq_ok {s : CodecSettings} {fresh : Nat → Nat → Decoder Value} {classId : Nat}
    {v : Value} (h : bodyWith s fresh classId st = .ok v st') :
    ∃ kind, ValueKind.ofClassId s.registry classId = .ok kind ∧ kind ≠ .comparator ∧
      BodyRead s fresh classId kind st v st' := by
  obtain ⟨kind, hkind, h⟩ := known_bind_eq_ok h
  split at h
  case isTrue => cases h
  rename_i hnot
  refine ⟨kind, hkind, hnot, ?_⟩
  split at h
  case isTrue htracked =>
    obtain ⟨w, st₁, hfresh, h⟩ := bind_eq_ok h
    cases h
    exact .plain (by simpa using htracked) hfresh
  case isFalse htracked =>
    have htracked : kind.isTracked = true := by simpa using htracked
    obtain ⟨marker, st₁, hmarker, h⟩ := bind_eq_ok h
    obtain ⟨rest, hrest, rfl⟩ := wire_eq_ok hmarker
    split at h
    case isTrue hne =>
      obtain ⟨position, rfl⟩ := Nat.exists_eq_succ_of_ne_zero hne
      obtain ⟨w, st₁, href, h⟩ := bind_eq_ok h
      obtain ⟨hslot, rfl⟩ := referenced_eq_ok href
      cases h
      exact .again htracked hrest hslot
    case isFalse hzero =>
      obtain rfl := Decidable.not_not.mp hzero
      obtain ⟨position, st₁, hopen, h⟩ := bind_eq_ok h
      cases hopen
      obtain ⟨w, st₁, hfresh, h⟩ := bind_eq_ok h
      obtain ⟨_, st₂, hfill, h⟩ := bind_eq_ok h
      cases hfill
      cases h
      exact .first htracked hrest hfresh

/-- A run gives what the decoder gives on the whole input. -/
theorem run_eq_ok {d : Decoder α} {bytes : List UInt8} {a : α} (h : run d bytes = .ok a) :
    ∃ st, d ⟨bytes, [], 0⟩ = .ok a st ∧ st.rest = [] := by
  unfold run EStateM.run at h
  cases hd : d ⟨bytes, [], 0⟩ with
  | error e st =>
    rw [hd] at h
    cases h
  | ok b st =>
    rw [hd] at h
    dsimp only at h
    split at h
    case isTrue hempty =>
      cases h
      exact ⟨st, rfl, List.isEmpty_iff.mp hempty⟩
    case isFalse => cases h

/-- Elements in a row, from one list of slots to another. -/
inductive InTurn (R : List DecodeSlot → α → List DecodeSlot → Prop) :
    List DecodeSlot → List α → List DecodeSlot → Prop
  | nil (slots : List DecodeSlot) : InTurn R slots [] slots
  | cons {slots slots₁ slots' : List DecodeSlot} {a : α} {rest : List α} (head : R slots a slots₁)
      (tail : InTurn R slots₁ rest slots') : InTurn R slots (a :: rest) slots'

/-- What each of several results keeps to, they keep to in turn. -/
theorem repeated_eq_ok {R : List DecodeSlot → α → List DecodeSlot → Prop}
    {I : List DecodeSlot → Prop} {C : α → Prop} {item : Decoder α}
    (hitem : ∀ st a st', item st = .ok a st' → I st.slots → C a →
      R st.slots a st'.slots ∧ I st'.slots)
    {count : Nat} {as : List α} (h : repeated item count st = .ok as st') (hI : I st.slots)
    (hC : ∀ a ∈ as, C a) :
    as.length = count ∧ InTurn R st.slots as st'.slots ∧ I st'.slots := by
  induction count generalizing st as with
  | zero =>
    obtain ⟨rfl, rfl⟩ := pure_eq_ok h
    exact ⟨rfl, .nil _, hI⟩
  | succ count ih =>
    obtain ⟨a, st₁, ha, h⟩ := bind_eq_ok h
    obtain ⟨rest, st₂, hrest, h⟩ := bind_eq_ok h
    obtain ⟨rfl, rfl⟩ := pure_eq_ok h
    obtain ⟨hR, hI₁⟩ := hitem _ _ _ ha hI (hC a List.mem_cons_self)
    obtain ⟨hlength, hturn, hI'⟩ := ih hrest hI₁ fun b hb => hC b (List.mem_cons_of_mem a hb)
    exact ⟨congrArg Nat.succ hlength, .cons hR hturn, hI'⟩

end Decoder

end RemoteCall
