import RemoteCall.Proofs.Codec.ReadBack
import RemoteCall.Proofs.Codec.Unmarking

/-!
# What reading costs

Every value that is read costs at least one byte of the input, whatever sizes the input declares. A
value under a class tag of its own pays with the tag. Elements under a shared tag have no tag, and
there the body pays: an instance that keeps its identity with its marker, a scalar with what is read
for it, a variant with its ordinal, and an array of scalars with its count. A byte that has been
consumed before its value is counted is kept as credit until then, and a step is described by the
credit that it starts with and the credit that it leaves.
-/

namespace RemoteCall

namespace Reader

/-- Whenever the reader succeeds, less is left than there was. -/
def Shortens (r : Reader α) : Prop :=
  ∀ input a rest, r input = .ok (a, rest) → rest.length < input.length

/-- A first step that shortens is enough. -/
theorem Shortens.bind {r : Reader α} {f : α → Reader β} (hr : Shortens r)
    (hf : ∀ a, FromFront (f a)) : Shortens (r >>= f) := by
  intro input b rest h
  obtain ⟨a, middle, ha, h⟩ := bind_eq_ok h
  exact Nat.lt_of_le_of_lt ((hf a).leaves _ _ _ h).length_le (hr _ _ _ ha)

/-- A datum that is only rewrapped. -/
theorem Shortens.map (f : α → β) {r : Reader α} (hr : Shortens r) : Shortens (f <$> r) := by
  rw [← bind_pure_comp]
  exact hr.bind fun a => .pure (f a)

/-- A failure never succeeds. -/
theorem Shortens.throw (e : CodecError) : Shortens (throw e : Reader α) := fun _ _ _ h => nomatch h

/-- Reading a byte takes it off the input. -/
theorem byte_shortens : Shortens byte := by
  intro input b rest h
  cases input with
  | nil => cases h
  | cons first tail =>
    cases h
    exact Nat.lt_succ_self _

/-- Reading a number of bytes takes them off the input. -/
theorem take_shortens {count : Nat} (hcount : 0 < count) : Shortens (take count) := by
  intro input bytes rest h
  obtain ⟨hle, -, rfl⟩ := take_eq_ok h
  rw [List.length_drop]
  omega

/-- A number of fixed width takes up its width. -/
theorem bigEndian_shortens {width : Nat} (hwidth : 0 < width) : Shortens (bigEndian width) :=
  .map _ (take_shortens hwidth)

end Reader

open Reader

namespace Varint

/-- A number of variable length takes up at least one byte. -/
theorem readGroups_shortens (groups : Nat) : Shortens (readGroups groups) := by
  cases groups with
  | zero => exact .throw _
  | succ groups =>
    have hlast (b : UInt8) : FromFront (if b.toNat < 128 then return b.toNat else do
        let high ← readGroups groups
        return b.toNat % 128 + 128 * high) :=
      .ite (.pure _) ((readGroups_fromFront groups).bind fun high => .pure _)
    exact byte_shortens.bind fun b => .ite (.throw _) (hlast b)

/-- So does a 64-bit number. -/
theorem read_shortens : Shortens read := readGroups_shortens 10

/-- So does a 32-bit number. -/
theorem read32_shortens : Shortens read32 :=
  read_shortens.bind fun _ => .ite (.pure _) (.throw _)

/-- So does a signed 64-bit number. -/
theorem readSigned_shortens : Shortens readSigned := .map _ read_shortens

/-- So does a signed 32-bit number. -/
theorem readSigned32_shortens : Shortens readSigned32 :=
  readSigned_shortens.bind fun _ => .ite (.pure _) (.throw _)

end Varint

namespace Sized

/-- A count takes up at least one byte. -/
theorem readCount_shortens (least : Nat) : Shortens (readCount least) :=
  fun _ _ _ h => Varint.read_shortens _ _ _ (readCount_eq_ok h).1

/-- Bytes take up their count at least. -/
theorem readBytes_shortens : Shortens readBytes :=
  (readCount_shortens 1).bind fun count => take_fromFront count

/-- A text takes up the count of its bytes at least. -/
theorem readText_shortens : Shortens readText :=
  readBytes_shortens.bind fun bytes => .lift (textOf bytes)

end Sized

namespace Scalar

/-- A date takes up its day count. -/
theorem readDate_shortens : Shortens readDate :=
  Varint.readSigned32_shortens.bind fun _ => demand_fromFront _ _ _

/-- There is no scalar without bytes. -/
theorem read_shortens (t : ScalarType) : Shortens (read t) := by
  cases t with
  | bool => exact .map _ (byte_shortens.bind fun _ => .ite (.pure _) (.ite (.pure _) (.throw _)))
  | byte => exact .map _ byte_shortens
  | short => exact .map _ (bigEndian_shortens (by decide))
  | int => exact .map _ Varint.readSigned32_shortens
  | long => exact .map _ Varint.readSigned_shortens
  | float => exact .map _ (bigEndian_shortens (by decide))
  | double => exact .map _ (bigEndian_shortens (by decide))
  | char => exact .map _ (Varint.read32_shortens.bind fun _ => .ite (.pure _) (.throw _))
  | string => exact .map _ Sized.readText_shortens
  | bigInteger => exact .map _ (.map _ Sized.readBytes_shortens)
  | bigDecimal =>
    refine Varint.readSigned32_shortens.bind fun _ => ?_
    exact readBigInteger_fromFront.bind fun _ => .pure _
  | uuid =>
    refine .map _ ((take_shortens (by decide)).bind fun bytes => ?_)
    split
    · exact .pure _
    · exact .throw _
  | date => exact .map _ readDate_shortens
  | time =>
    refine .map _ (Varint.read32_shortens.bind fun _ => ?_)
    exact Varint.read32_fromFront.bind fun _ => demand_fromFront _ _ _
  | dateTime => exact readDate_shortens.bind fun _ => readTime_fromFront.bind fun _ => .pure _
  | instant =>
    refine .map _ (Varint.readSigned_shortens.bind fun _ => ?_)
    exact Varint.read32_fromFront.bind fun _ => demand_fromFront _ _ _
  | duration =>
    refine .map _ (Varint.readSigned_shortens.bind fun _ => ?_)
    exact Varint.readSigned32_fromFront.bind fun _ => demand_fromFront _ _ _
  | charset => exact Sized.readText_shortens.bind fun _ => .bind (.lift _) fun _ => .pure _
  | bytes => exact .map _ Sized.readBytes_shortens

end Scalar

/-- From one state to a later one: a front part of the input is consumed, at least so many values
are counted, and the bytes consumed, with the credit there was before, pay for the values counted
and for the credit there is after. -/
structure DecodeState.Spends (before after least : Nat) (st st' : DecodeState) : Prop where
  rest : st'.rest <:+ st.rest
  counted : st.valuesRead + least ≤ st'.valuesRead
  paid : st'.valuesRead + st'.rest.length + after ≤ st.valuesRead + st.rest.length + before

namespace DecodeState.Spends

variable {st st₁ st' : DecodeState} {before between after least least' : Nat}

/-- A state spends nothing on the way to itself. -/
theorem refl (credit : Nat) (st : DecodeState) : st.Spends credit credit 0 st :=
  ⟨List.suffix_rfl, Nat.le_refl _, Nat.le_refl _⟩

/-- What is spent in two stretches is spent in both together. -/
theorem trans (h : st.Spends before between least st₁) (h' : st₁.Spends between after least' st') :
    st.Spends before after (least + least') st' where
  rest := h'.rest.trans h.rest
  counted := by
    have hfirst := h.counted
    have hsecond := h'.counted
    omega
  paid := Nat.le_trans h'.paid h.paid

/-- Credit may lapse. -/
theorem lapse (h : st.Spends before after least st') : st.Spends before 0 0 st' :=
  ⟨h.rest, Nat.le_trans (Nat.le_add_right _ _) h.counted,
    Nat.le_trans (Nat.le_add_right _ _) h.paid⟩

/-- Further credit is kept. -/
theorem keep (more : Nat) (h : st.Spends before after least st') :
    st.Spends (before + more) (after + more) least st' :=
  ⟨h.rest, h.counted, by have hpaid := h.paid; omega⟩

end DecodeState.Spends

namespace Decoder

/-- Every run of the step, however it ends, spends what it reads: one that succeeds leaves so much
credit and has counted at least so many values. -/
structure Pays (before after least : Nat) (d : Decoder α) : Prop where
  ok : ∀ {st a st'}, d st = .ok a st' → st.Spends before after least st'
  error : ∀ {st e st'}, d st = .error e st' → st.Spends before 0 0 st'

/-- Of two steps in a row the first fails, or the second does behind it. -/
theorem bind_eq_error {d : Decoder α} {f : α → Decoder β} {st st' : DecodeState} {e : CodecError}
    (h : (d >>= f) st = .error e st') :
    d st = .error e st' ∨ ∃ a st₁, d st = .ok a st₁ ∧ f a st₁ = .error e st' := by
  change EStateM.bind d f st = _ at h
  rw [EStateM.bind] at h
  cases hd : d st with
  | error e' st₁ =>
    rw [hd] at h
    cases h
    exact .inl rfl
  | ok a st₁ =>
    rw [hd] at h
    exact .inr ⟨a, st₁, rfl, h⟩

/-- A failed reading of the wire consumes nothing. -/
theorem wire_eq_error {r : Reader α} {st st' : DecodeState} {e : CodecError}
    (h : wire r st = .error e st') : st' = st := by
  unfold wire at h
  split at h
  case h_1 => cases h
  case h_2 =>
    cases h
    rfl

namespace Pays

variable {before between after least least' credit : Nat}

/-- Steps in sequence hand on their credit and add up what they count. -/
theorem bind {d : Decoder α} {f : α → Decoder β} (hd : Pays before between least d)
    (hf : ∀ a, Pays between after least' (f a)) : Pays before after (least + least') (d >>= f) where
  ok := by
    intro st b st' h
    obtain ⟨a, st₁, ha, h⟩ := bind_eq_ok h
    exact (hd.ok ha).trans ((hf a).ok h)
  error := by
    intro st e st' h
    rcases bind_eq_error h with h | ⟨a, st₁, ha, h⟩
    · exact hd.error h
    · exact ((hd.ok ha).trans ((hf a).error h)).lapse

/-- A step that counts nothing in front of one that may. -/
theorem andThen {d : Decoder α} {f : α → Decoder β} (hd : Pays before between 0 d)
    (hf : ∀ a, Pays between after least (f a)) : Pays before after least (d >>= f) := by
  have h := hd.bind hf
  rwa [Nat.zero_add] at h

/-- A known result costs nothing. -/
theorem pure (a : α) : Pays credit credit 0 (Pure.pure a : Decoder α) where
  ok := by
    intro st b st' h
    obtain ⟨-, rfl⟩ := pure_eq_ok h
    exact .refl _ _
  error := fun h => nomatch h

/-- A failure counts nothing. -/
theorem throw (e : CodecError) : Pays before after least (MonadExcept.throw e : Decoder α) where
  ok := fun h => nomatch h
  error := by
    intro st e' st' h
    cases h
    exact (DecodeState.Spends.refl _ _).lapse

/-- A result that is only rewrapped. -/
theorem map (f : α → β) {d : Decoder α} (hd : Pays before after least d) :
    Pays before after least (f <$> d) := by
  rw [← bind_pure_comp]
  exact hd.bind fun a => .pure (f a)

/-- A step that is chosen by a condition pays as both steps do. -/
theorem ite {p : Prop} [Decidable p] {d d' : Decoder α} (h : Pays before after least d)
    (h' : Pays before after least d') : Pays before after least (if p then d else d') := by
  split
  · exact h
  · exact h'

/-- A step that starts with more credit may leave more. -/
theorem keep (more : Nat) {d : Decoder α} (hd : Pays before after least d) :
    Pays (before + more) (after + more) least d where
  ok := fun h => (hd.ok h).keep more
  error := fun h => ((hd.error h).keep more).lapse

/-- A step may leave less credit and count less. -/
theorem lessen {d : Decoder α} (hd : Pays before after least d) {after' : Nat}
    (hafter : after' ≤ after) (hleast : least' ≤ least) : Pays before after' least' d where
  ok := fun h =>
    have hspent := hd.ok h
    ⟨hspent.rest, Nat.le_trans (Nat.add_le_add_left hleast _) hspent.counted,
      Nat.le_trans (Nat.add_le_add_left hafter _) hspent.paid⟩
  error := hd.error

/-- A check costs nothing. -/
theorem known (x : Except CodecError α) : Pays credit credit 0 (Decoder.known x) := by
  cases x with
  | error e => exact .throw e
  | ok a => exact .pure a

/-- A check whose result is at hand for what follows. -/
theorem known_bind {x : Except CodecError α} {f : α → Decoder β}
    (hf : ∀ a, x = .ok a → Pays before after least (f a)) :
    Pays before after least (Decoder.known x >>= f) := by
  cases x with
  | error e => exact throw e
  | ok a => exact hf a rfl

/-- Reading the wire keeps the credit. -/
theorem wire {r : Reader α} (hr : r.FromFront) : Pays credit credit 0 (Decoder.wire r) where
  ok := by
    intro st a st' h
    obtain ⟨rest, hread, rfl⟩ := wire_eq_ok h
    have hleft := hr.leaves _ _ _ hread
    exact ⟨hleft, Nat.le_refl _,
      Nat.add_le_add_right (Nat.add_le_add_left hleft.length_le _) _⟩
  error := by
    intro st e st' h
    rw [wire_eq_error h]
    exact (DecodeState.Spends.refl _ _).lapse

/-- A reader that shortens the input earns a byte of credit. -/
theorem earn {r : Reader α} (hr : r.FromFront) (hs : r.Shortens) :
    Pays credit (credit + 1) 0 (Decoder.wire r) where
  ok := by
    intro st a st' h
    obtain ⟨rest, hread, rfl⟩ := wire_eq_ok h
    refine ⟨hr.leaves _ _ _ hread, Nat.le_refl _, ?_⟩
    have hlt := hs _ _ _ hread
    change st.valuesRead + rest.length + (credit + 1) ≤ st.valuesRead + st.rest.length + credit
    omega
  error := (wire hr).error

/-- A value is counted for a byte of credit. -/
theorem counted (v : Value) : Pays (credit + 1) credit 1 (Decoder.counted v) where
  ok := by
    intro st a st' h
    cases h
    refine ⟨List.suffix_rfl, Nat.le_refl _, ?_⟩
    change st.valuesRead + 1 + st.rest.length + credit ≤ _
    omega
  error := fun h => nomatch h

/-- Opening a slot costs nothing. -/
theorem openSlot (classId : Nat) : Pays credit credit 0 (Decoder.openSlot classId) where
  ok := by
    intro st a st' h
    cases h
    exact ⟨List.suffix_rfl, Nat.le_refl _, Nat.le_refl _⟩
  error := fun h => nomatch h

/-- Filling a slot costs nothing. -/
theorem fillSlot (classId position : Nat) (v : Value) :
    Pays credit credit 0 (Decoder.fillSlot classId position v) where
  ok := by
    intro st a st' h
    cases h
    exact ⟨List.suffix_rfl, Nat.le_refl _, Nat.le_refl _⟩
  error := fun h => nomatch h

/-- Looking up an instance costs nothing. -/
theorem referenced (classId position : Nat) :
    Pays credit credit 0 (Decoder.referenced classId position) := by
  have hget : Pays credit credit 0 (get : Decoder DecodeState) := by
    refine ⟨fun {st a st'} h => ?_, fun h => nomatch h⟩
    cases h
    exact .refl _ _
  refine hget.andThen fun st => ?_
  split
  · exact .throw _
  · refine .ite (.throw _) ?_
    split
    · exact .pure _
    · exact .throw _

/-- Every pass of a loop counts as much. -/
theorem repeated {item : Decoder α} (h : Pays credit credit least item) (count : Nat) :
    Pays credit credit (count * least) (repeated item count) := by
  induction count with
  | zero =>
    rw [Nat.zero_mul]
    exact .pure _
  | succ count ih =>
    have hpasses : Pays credit credit (least + (count * least + 0))
        (Decoder.repeated item (count + 1)) := h.bind fun a => ih.bind fun as => .pure _
    rwa [Nat.add_zero, Nat.add_comm, ← Nat.succ_mul] at hpasses

end Pays

/-- An entry of a map under the tags of the keys and of the values. -/
def entry (body : Nat → Decoder Value) (keyTag valueTag : Nat) : Decoder (Value × Value) := do
  let k ← element body keyTag
  let v ← element body valueTag
  return (k, v)

/-- The entries of a map are a loop over one entry. -/
theorem entries_eq (body : Nat → Decoder Value) : entries body = (do
    let count ← wire (Sized.readCount 2)
    if count = 0 then return []
    let keyTag ← wire Varint.read32
    let valueTag ← wire Varint.read32
    repeated (entry body keyTag valueTag) count) := rfl

section Values

variable {body : Nat → Decoder Value} (hb : ∀ classId, Pays 0 0 1 (body classId))

include hb

/-- A value under its own tag pays with the tag. -/
theorem pays_tagged : Pays 0 0 1 (tagged body) := by
  refine (Pays.earn Varint.read32_fromFront Varint.read32_shortens).andThen fun tag => ?_
  exact .ite (.counted .null) (((hb (tag - 1)).keep 1).lessen (Nat.zero_le 1) (Nat.le_refl 1))

/-- An element pays with its tag or with its body. -/
theorem pays_element (tag : Nat) : Pays 0 0 1 (element body tag) :=
  .ite (pays_tagged hb) (hb (tag - 1))

/-- An entry pays for its key and for its value. -/
theorem pays_entry (keyTag valueTag : Nat) : Pays 0 0 2 (entry body keyTag valueTag) :=
  (pays_element hb keyTag).bind fun _ => (pays_element hb valueTag).bind fun _ => .pure _

/-- The elements pay for themselves, and their count is left as credit. -/
theorem pays_elements : Pays 0 1 0 (elements body) := by
  have hloop (tag count : Nat) : Pays 1 1 0 (repeated (element body tag) count) :=
    (((pays_element hb tag).repeated count).keep 1).lessen (Nat.le_refl 1) (Nat.zero_le _)
  have hcount := Sized.readCount_fromFront 1
  refine (Pays.earn hcount (Sized.readCount_shortens 1)).andThen fun count => .ite (.pure _) ?_
  exact (Pays.wire Varint.read32_fromFront).andThen fun tag => hloop tag count

/-- The entries pay for themselves, and their count is left as credit. -/
theorem pays_entries : Pays 0 1 0 (entries body) := by
  have hloop (keyTag valueTag count : Nat) :
      Pays 1 1 0 (repeated (entry body keyTag valueTag) count) :=
    (((pays_entry hb keyTag valueTag).repeated count).keep 1).lessen (Nat.le_refl 1)
      (Nat.zero_le _)
  have hcount := Sized.readCount_fromFront 2
  rw [entries_eq]
  refine (Pays.earn hcount (Sized.readCount_shortens 2)).andThen fun count => .ite (.pure _) ?_
  refine (Pays.wire Varint.read32_fromFront).andThen fun keyTag => ?_
  exact (Pays.wire Varint.read32_fromFront).andThen fun valueTag => hloop keyTag valueTag count

/-- An array leaves the count of its elements as credit. -/
theorem pays_array (s : CodecSettings) (room position classId : Nat) :
    Pays 0 1 0 (array s room body position classId) := by
  refine (Pays.wire (typeRef_fromFront s room)).andThen fun type => ?_
  refine (Pays.known _).andThen fun _ => ?_
  exact (pays_elements hb).andThen fun items => .known _

/-- A collection leaves the count of its elements as credit. -/
theorem pays_collection (s : CodecSettings) (position : Nat) :
    Pays 0 1 0 (collection s body position) := by
  have helements (finish : List Value → Value) :
      Pays 0 1 0 (do return finish (← elements body)) :=
    (pays_elements hb).andThen fun items => .pure _
  refine (Pays.wire byte_fromFront).andThen fun tag => ?_
  cases CollectionKind.ofTag? tag with
  | none => exact .throw _
  | some kind =>
    cases kind with
    | list => exact helements _
    | set => exact helements _
    | sortedSet => exact (Pays.wire (comparator_fromFront s)).andThen fun order => helements _

/-- A map leaves the count of its entries as credit. -/
theorem pays_map (s : CodecSettings) (position : Nat) : Pays 0 1 0 (map s body position) := by
  have hentries (finish : List (Value × Value) → Value) :
      Pays 0 1 0 (do return finish (← entries body)) :=
    (pays_entries hb).andThen fun items => .pure _
  refine (Pays.wire byte_fromFront).andThen fun tag => ?_
  cases MapKind.ofTag? tag with
  | none => exact .throw _
  | some kind =>
    cases kind with
    | plain => exact hentries _
    | sorted => exact (Pays.wire (comparator_fromFront s)).andThen fun order => hentries _

/-- A variant leaves its ordinal as credit. An object keeps its identity and may leave nothing. -/
theorem pays_registered (s : CodecSettings) (position : Nat) {classId : Nat} {kind : ValueKind}
    (hkind : ValueKind.ofClassId s.registry classId = .ok kind) :
    Pays 0 (if kind.isTracked then 0 else 1) 0 (registered s body position classId) := by
  refine Pays.known_bind fun c hc => ?_
  obtain ⟨hge, -, -⟩ := Registry.byClassId_eq_ok hc
  cases hshape : c.shape with
  | object names =>
    obtain rfl : kind = .object := Except.ok.inj
      (hkind.symm.trans (ValueKind.ofClassId_registered _ hge hc (by rw [hshape])))
    have hfields := (pays_tagged hb).repeated names.length
    exact (hfields.lessen (Nat.le_refl 0) (Nat.zero_le _)).andThen fun fields => .pure _
  | enum variants =>
    obtain rfl : kind = .enum := Except.ok.inj
      (hkind.symm.trans (ValueKind.ofClassId_registered _ hge hc (by rw [hshape])))
    refine (Pays.earn Varint.read32_fromFront Varint.read32_shortens).andThen fun ordinal => ?_
    exact .ite (.pure _) (.throw _)

/-- The contents of a value that keeps no identity leave a byte of credit. -/
theorem pays_contents (s : CodecSettings) (room position : Nat) {classId : Nat} {kind : ValueKind}
    (hkind : ValueKind.ofClassId s.registry classId = .ok kind) :
    Pays 0 (if kind.isTracked then 0 else 1) 0 (contents s room body position classId) := by
  have hle : (if kind.isTracked then 0 else 1) ≤ 1 := by split <;> decide
  have harray := (pays_array hb s room position classId).lessen hle (Nat.le_refl 0)
  have hcollection := (pays_collection hb s position).lessen hle (Nat.le_refl 0)
  have hmap := (pays_map hb s position).lessen hle (Nat.le_refl 0)
  have hregistered := pays_registered hb s position hkind
  unfold contents
  cases ScalarType.ofClassId? classId with
  | some t =>
    have hscalar : Pays 0 1 0 (Value.scalar <$> wire (Scalar.read t)) :=
      .map _ (.earn (Scalar.read_fromFront t) (Scalar.read_shortens t))
    exact hscalar.lessen hle (Nat.le_refl 0)
  | none => exact .ite harray (.ite hcollection (.ite hmap hregistered))

end Values

section Bodies

variable (s : CodecSettings)

/-- A body pays for the value that it is. An instance that keeps its identity, or a reference to it,
pays with its marker; any other value with its contents. -/
theorem pays_bodyWith {fresh : Nat → Nat → Decoder Value}
    (h : ∀ position {classId kind}, ValueKind.ofClassId s.registry classId = .ok kind →
      Pays 0 (if kind.isTracked then 0 else 1) 0 (fresh position classId)) (classId : Nat) :
    Pays 0 0 1 (bodyWith s fresh classId) := by
  refine Pays.known_bind fun kind hkind => .ite (.throw _) ?_
  have hfresh (position : Nat) := h position hkind
  cases htracked : kind.isTracked with
  | false =>
    rw [htracked] at hfresh
    exact (hfresh 0).andThen fun v => .counted v
  | true =>
    rw [htracked] at hfresh
    refine (Pays.earn Varint.read32_fromFront Varint.read32_shortens).andThen fun marker => ?_
    refine .ite ((Pays.referenced _ _).andThen fun v => .counted v) ?_
    refine (Pays.openSlot _).andThen fun position => ?_
    refine ((hfresh position).keep 1).andThen fun v => ?_
    exact (Pays.fillSlot _ _ v).andThen fun _ => .counted v

/-- Bodies pay. -/
theorem pays_body (room classId : Nat) : Pays 0 0 1 (body s room classId) := by
  induction room generalizing classId with
  | zero => exact pays_bodyWith s (fun _ _ _ _ => .throw _) classId
  | succ room ih => exact pays_bodyWith s (fun position => pays_contents ih s room position) classId

/-- Values pay. -/
theorem pays_value : Pays 0 0 1 (value s) := pays_tagged (pays_body s s.maxDepth)

/-- A request pays for its arguments. -/
theorem pays_request : Pays 0 0 0 (request s) := by
  refine (Pays.wire (envelopeTag_fromFront _ _)).andThen fun _ => ?_
  refine (Pays.wire Varint.read_fromFront).andThen fun id => ?_
  refine (Pays.wire Varint.readSigned_fromFront).andThen fun timestamp => ?_
  refine (Pays.wire Sized.readText_fromFront).andThen fun service => ?_
  refine (Pays.wire Sized.readText_fromFront).andThen fun method => ?_
  refine (Pays.wire (signature_fromFront s)).andThen fun sig => ?_
  refine (Pays.wire (Sized.readCount_fromFront 1)).andThen fun count => ?_
  have harguments := (pays_value s).repeated count
  exact (harguments.lessen (Nat.le_refl 0) (Nat.zero_le _)).andThen fun arguments => .pure _

/-- A response pays for its payload. -/
theorem pays_response : Pays 0 0 1 (response s) := by
  refine (Pays.wire (envelopeTag_fromFront _ _)).andThen fun _ => ?_
  refine (Pays.wire Varint.read_fromFront).andThen fun id => ?_
  refine (Pays.wire Varint.readSigned_fromFront).andThen fun timestamp => ?_
  refine (Pays.wire status_fromFront).andThen fun result => ?_
  refine (Pays.wire Sized.readOptionalText_fromFront).andThen fun message => ?_
  exact (pays_value s).bind fun payload => .pure _

end Bodies

end Decoder

end RemoteCall
