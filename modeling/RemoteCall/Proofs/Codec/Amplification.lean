import Mathlib.Algebra.Order.BigOperators.Group.List
import Mathlib.Algebra.Order.Ring.Nat
import RemoteCall.Proofs.Codec.Consumption
import RemoteCall.Proofs.Codec.DepthBound

/-!
# No amplification

A decoder never reads more values than bytes, on any input and however the reading ends: the bytes
that it has consumed pay for the values that it has counted. The count is no less than what was
read: on the way every completed pass of a loop counts its values, and in the end there are as many
counted as the decoded value is written with, where a reference is one value and not the instance
that it puts there again.
-/

namespace RemoteCall

namespace Value

mutual

/-- The number of values that a marked value is written with; a repeat is one. -/
def written : Value → Nat
  | null => 1
  | scalar _ => 1
  | variant _ _ => 1
  | collection id _ items => if isRepeat id then 1 else writtenOf items + 1
  | map id _ entries => if isRepeat id then 1 else writtenOfEntries entries + 1
  | object id _ fields => if isRepeat id then 1 else writtenOf fields + 1

/-- The number of values that values are written with. -/
def writtenOf : List Value → Nat
  | [] => 0
  | v :: vs => v.written + writtenOf vs

/-- The number of values that keys and values are written with. -/
def writtenOfEntries : List (Value × Value) → Nat
  | [] => 0
  | (k, v) :: rest => k.written + v.written + writtenOfEntries rest

end

/-- Values are written with as many values as all of them together. -/
theorem writtenOf_eq (vs : List Value) : writtenOf vs = (vs.map written).sum := by
  induction vs with
  | nil => rfl
  | cons v vs ih => rw [writtenOf, ih, List.map_cons, List.sum_cons]

/-- Entries are written with as many values as their keys and values together. -/
theorem writtenOfEntries_eq (entries : List (Value × Value)) :
    writtenOfEntries entries = (entries.map fun e => e.1.written + e.2.written).sum := by
  induction entries with
  | nil => rfl
  | cons e entries ih => rw [writtenOfEntries, ih, List.map_cons, List.sum_cons]

/-- Keys and values are written with what their row is written with. -/
theorem writtenOf_flatMap (entries : List (Value × Value)) :
    writtenOf (entries.flatMap fun e => [e.1, e.2]) = writtenOfEntries entries := by
  induction entries with
  | nil => rfl
  | cons e entries ih =>
    rw [List.flatMap_cons, List.cons_append, List.singleton_append, writtenOf, writtenOf, ih,
      writtenOfEntries, Nat.add_assoc]

/-- Whatever stands in its place is written with one value more than its parts. -/
theorem written_le (v : Value) : v.written ≤ writtenOf v.children + 1 := by
  have hif (p : Bool) (n : Nat) : (if p then 1 else n + 1) ≤ n + 1 := by
    split <;> omega
  cases v with
  | null => exact Nat.le_refl 1
  | scalar a => exact Nat.le_refl 1
  | variant c i => exact Nat.le_refl 1
  | collection id form items => exact hif (isRepeat id) (writtenOf items)
  | object id c fields => exact hif (isRepeat id) (writtenOf fields)
  | map id form entries =>
    rw [written, children, writtenOf_flatMap]
    exact hif (isRepeat id) (writtenOfEntries entries)

/-- A repeat is written with one value. -/
theorem written_markRepeat (v : Value) : v.markRepeat.written = 1 := by
  cases v with
  | null => rfl
  | scalar a => rfl
  | variant c i => rfl
  | collection id form items => rw [markRepeat, written, isRepeat_mark, if_pos rfl]
  | map id form entries => rw [markRepeat, written, isRepeat_mark, if_pos rfl]
  | object id c fields => rw [markRepeat, written, isRepeat_mark, if_pos rfl]

end Value

/-- Arranging may drop elements, so that what they weigh gets no more. -/
theorem sum_arrange_le {α : Type} (c : Comparator) (key : α → Value) (weight : α → Nat)
    (xs : List α) : ((arrange c key xs).map weight).sum ≤ (xs.map weight).sum := by
  unfold arrange
  split
  · exact Nat.le_refl _
  · let sorted := xs.mergeSort fun a b => c.sortOrder (key a) (key b) != .gt
    have hkept : (dropTies (fun a b => c.compare? (key a) (key b) == some .eq) sorted).Sublist
        sorted := dropTies_sublist _ _
    calc ((dropTies _ sorted).map weight).sum
        ≤ (sorted.map weight).sum := (hkept.map weight).sum_le_sum fun _ _ => Nat.zero_le _
      _ = (xs.map weight).sum := ((List.mergeSort_perm xs _).map weight).sum_eq

namespace Decoder

/-- What is read for a value is written with at least what its parts are written with. -/
theorem ContentsRead.reads_written {s : CodecSettings} {body : Nat → Decoder Value}
    {position : Nat} {st st' : DecodeState} {v : Value}
    (h : ContentsRead s body position st v st') :
    ∃ vs, Reads body st vs st' ∧ Value.writtenOf v.children ≤ Value.writtenOf vs := by
  cases h with
  | scalar a left => exact ⟨[], .wire left (.done _), Nat.le_refl _⟩
  | variant declared inRange left => exact ⟨[], .wire left (.done _), Nat.le_refl _⟩
  | array declared keeps left read =>
    exact ⟨_, .wire left (elements_reads read), Nat.le_refl _⟩
  | list left read => exact ⟨_, .wire left (elements_reads read), Nat.le_refl _⟩
  | set left read => exact ⟨_, .wire left (elements_reads read), Nat.le_refl _⟩
  | sortedSet permitted left read =>
    refine ⟨_, .wire left (elements_reads read), ?_⟩
    rw [Value.writtenOf_eq, Value.writtenOf_eq]
    exact sum_arrange_le _ _ _ _
  | map left read => exact ⟨_, .wire left (entries_reads read), Nat.le_refl _⟩
  | @sortedMap order rest es st' permitted left read =>
    refine ⟨_, .wire left (entries_reads read), ?_⟩
    rw [Value.ofSortedEntries, Value.children, Value.writtenOf_flatMap, Value.writtenOf_flatMap,
      Value.writtenOfEntries_eq, Value.writtenOfEntries_eq]
    calc _ ≤ (es.reverse.map fun e => e.1.written + e.2.written).sum := sum_arrange_le _ _ _ _
      _ = _ := ((List.reverse_perm es).map _).sum_eq
  | object declared read =>
    exact ⟨_, repeated_reads_values (fun _ _ _ => tagged_reads) read, Nat.le_refl _⟩

/-- Every completed run counts at least what its value is written with. -/
def CountsWritten (d : Decoder Value) : Prop :=
  ∀ st v st', d st = .ok v st' → st.valuesRead + v.written ≤ st'.valuesRead

/-- A row counts what its values are written with. -/
theorem Reads.counts {body : Nat → Decoder Value} (hb : ∀ classId, CountsWritten (body classId))
    {st st' : DecodeState} {vs : List Value} (h : Reads body st vs st') :
    st.valuesRead + Value.writtenOf vs ≤ st'.valuesRead := by
  induction h with
  | done st => exact Nat.le_refl _
  | wire left after ih => exact ih
  | null after ih =>
    rw [Value.writtenOf, Value.written, ← Nat.add_assoc]
    exact ih
  | body read after ih =>
    have hfirst := hb _ _ _ _ read
    rw [Value.writtenOf]
    omega

/-- A body ends with a value that has been read for it, or with a repeat of a complete instance, and
is counted itself. -/
theorem bodyThrough_eq_ok {s : CodecSettings} {number : Nat → Nat} {again : Value → Value}
    {fresh : Nat → Nat → Decoder Value} {classId : Nat} {st st' : DecodeState} {v : Value}
    (h : bodyThrough s number again fresh classId st = .ok v st') :
    (∃ position st₀ st₁, fresh position classId st₀ = .ok v st₁ ∧ st₀.valuesRead = st.valuesRead ∧
      st'.valuesRead = st₁.valuesRead + 1) ∨
    ∃ w, v = again w ∧ st'.valuesRead = st.valuesRead + 1 := by
  obtain ⟨kind, -, h⟩ := known_bind_eq_ok h
  split at h
  case isTrue => cases h
  split at h
  case isTrue =>
    obtain ⟨w, st₁, hfresh, h⟩ := bind_eq_ok h
    cases h
    exact .inl ⟨_, st, st₁, hfresh, rfl, rfl⟩
  case isFalse =>
    obtain ⟨marker, rest, -, h⟩ := wire_bind_read h
    split at h
    case isTrue =>
      obtain ⟨w, st₁, href, h⟩ := bind_eq_ok h
      obtain ⟨-, rfl⟩ := referenced_eq_ok href
      cases h
      exact .inr ⟨w, rfl, rfl⟩
    case isFalse =>
      obtain ⟨position, st₀, hopen, h⟩ := bind_eq_ok h
      cases hopen
      obtain ⟨w, st₁, hfresh, h⟩ := bind_eq_ok h
      obtain ⟨_, st₂, hfill, h⟩ := bind_eq_ok h
      cases hfill
      cases h
      exact .inl ⟨_, _, st₁, hfresh, rfl, rfl⟩

/-- Marked bodies count what they are written with. -/
theorem markedBody_counts (s : CodecSettings) (room classId : Nat) :
    CountsWritten (markedBody s room classId) := by
  have hthrough {fresh : Nat → Nat → Decoder Value} {classId : Nat}
      (hf : ∀ {position st v st'}, fresh position classId st = .ok v st' →
        st.valuesRead + Value.writtenOf v.children ≤ st'.valuesRead) :
      CountsWritten (bodyThrough s (2 * ·) Value.markRepeat fresh classId) := by
    intro st v st' h
    rcases bodyThrough_eq_ok h with ⟨position, st₀, st₁, hfresh, hbefore, hafter⟩ | ⟨w, rfl, hafter⟩
    · have hparts := hf hfresh
      have hself := v.written_le
      omega
    · rw [Value.written_markRepeat, hafter]
  induction room generalizing classId with
  | zero => exact hthrough fun h => nomatch h
  | succ room ih =>
    refine hthrough fun h => ?_
    obtain ⟨vs, hvs, hle⟩ := (contents_read h).reads_written
    exact Nat.le_trans (Nat.add_le_add_left hle _) (hvs.counts ih)

/-- Marked values count what they are written with. -/
theorem markedValue_counts (s : CodecSettings) : CountsWritten (markedValue s) := by
  intro st v st' h
  have hrow := (tagged_reads h).counts (markedBody_counts s s.maxDepth)
  rwa [Value.writtenOf, Value.writtenOf, Nat.add_zero] at hrow

/-- Where a run on an input ends, with a result or with an error. -/
def finalState (d : Decoder α) (bytes : List UInt8) : DecodeState :=
  match d ⟨bytes, [], 0⟩ with
  | .ok _ st => st
  | .error _ st => st

end Decoder

/-- From one state to a later one a front part of the input is consumed, and so many values are
counted at least, but no more than bytes are consumed. -/
def DecodeState.Covers (least : Nat) (st st' : DecodeState) : Prop :=
  ∃ consumed, st.rest = consumed ++ st'.rest ∧ st.valuesRead + least ≤ st'.valuesRead ∧
    st'.valuesRead ≤ st.valuesRead + consumed.length

/-- What is spent without credit is covered. -/
theorem DecodeState.Spends.covers {least : Nat} {st st' : DecodeState}
    (h : st.Spends 0 0 least st') : st.Covers least st' := by
  obtain ⟨consumed, hconsumed⟩ := h.rest
  refine ⟨consumed, hconsumed.symm, h.counted, ?_⟩
  have hpaid := h.paid
  rw [← hconsumed, List.length_append] at hpaid
  omega

namespace Decoder

/-- A loop over the step ends within the input: if all of its passes complete, each of them has
covered so many values, and if one of them fails, so have those before it. -/
def EndsWithin (least : Nat) (item : Decoder α) : Prop :=
  ∀ count st, match repeated item count st with
    | .ok _ st' => st.Covers (count * least) st'
    | .error e st' => ∃ passes < count, ∃ as middle,
        repeated item passes st = .ok as middle ∧ st.Covers (passes * least) middle ∧
          item middle = .error e st' ∧ middle.Covers 0 st'

/-- A loop that fails does so in a pass behind completed ones. -/
theorem repeated_eq_error {item : Decoder α} {count : Nat} {st st' : DecodeState} {e : CodecError}
    (h : repeated item count st = .error e st') :
    ∃ passes < count, ∃ as middle, repeated item passes st = .ok as middle ∧
      item middle = .error e st' := by
  induction count generalizing st with
  | zero => cases h
  | succ count ih =>
    rcases bind_eq_error h with h | ⟨a, st₁, ha, h⟩
    · exact ⟨0, Nat.succ_pos count, [], st, rfl, h⟩
    · rcases bind_eq_error h with h | ⟨as, st₂, has, h⟩
      · obtain ⟨passes, hlt, as, middle, has, hfail⟩ := ih h
        refine ⟨passes + 1, Nat.succ_lt_succ hlt, a :: as, middle, ?_, hfail⟩
        rw [repeated, bind_of_ok ha, bind_of_ok has]
        rfl
      · cases h

/-- Loops over a step that pays end within the input. -/
theorem Pays.endsWithin {least : Nat} {item : Decoder α} (h : Pays 0 0 least item) :
    EndsWithin least item := by
  intro count st
  cases hr : Decoder.repeated item count st with
  | ok as st' => exact ((h.repeated count).ok hr).covers
  | error e st' =>
    obtain ⟨passes, hlt, as, middle, has, hfail⟩ := repeated_eq_error hr
    exact ⟨passes, hlt, as, middle, has, ((h.repeated passes).ok has).covers, hfail,
      (h.error hfail).covers⟩

/-- A decoder that pays ends with no more values counted than bytes consumed. -/
theorem Pays.covers {least : Nat} {d : Decoder α} (h : Pays 0 0 least d) (bytes : List UInt8) :
    DecodeState.Covers 0 ⟨bytes, [], 0⟩ (d.finalState bytes) := by
  unfold finalState
  cases hd : d ⟨bytes, [], 0⟩ with
  | ok a st => exact (h.ok hd).lapse.covers
  | error e st => exact (h.error hd).covers

/-- With and without marks a run ends in the same place. -/
theorem Unmarks.finalState_eq {f : α → β} {d' : Decoder α} {d : Decoder β} (h : Unmarks f d' d)
    (bytes : List UInt8) : d.finalState bytes = (d'.finalState bytes).unmarked := by
  have hstart := h ⟨bytes, [], 0⟩
  change d ⟨bytes, [], 0⟩ = _ at hstart
  unfold finalState
  rw [hstart]
  cases d' ⟨bytes, [], 0⟩ with
  | ok a st => rfl
  | error e st => rfl

/-- A completed run ends in the state that it leaves. -/
theorem finalState_of_ok {d : Decoder α} {bytes : List UInt8} {a : α} {st : DecodeState}
    (h : d ⟨bytes, [], 0⟩ = .ok a st) : d.finalState bytes = st := by
  unfold finalState
  rw [h]

/-- What a decoder with marks counts, the one without has counted. -/
theorem Unmarks.counts {f : α → β} {d' : Decoder α} {d : Decoder β} (h : Unmarks f d' d)
    {weight : α → Nat} (hw : ∀ st a st', d' st = .ok a st' →
      st.valuesRead + weight a ≤ st'.valuesRead) {bytes : List UInt8} {b : β}
    (hr : d.run bytes = .ok b) :
    ∃ a, d'.run bytes = .ok a ∧ b = f a ∧ weight a ≤ (d.finalState bytes).valuesRead := by
  obtain ⟨a, ha, rfl⟩ := h.exists_marked hr
  obtain ⟨final, hfinal, -⟩ := run_eq_ok ha
  have hcounted := hw _ _ _ hfinal
  rw [Nat.zero_add] at hcounted
  refine ⟨a, ha, rfl, ?_⟩
  rw [h.finalState_eq, finalState_of_ok hfinal]
  exact hcounted

/-- A marked request counts what its arguments are written with. -/
theorem markedRequest_counts (s : CodecSettings) {st st' : DecodeState} {r : Request}
    (h : requestWith s (markedValue s) st = .ok r st') :
    st.valuesRead + Value.writtenOf r.arguments ≤ st'.valuesRead := by
  obtain ⟨_, rest₁, -, h⟩ := wire_bind_read h
  obtain ⟨id, rest₂, -, h⟩ := wire_bind_read h
  obtain ⟨timestamp, rest₃, -, h⟩ := wire_bind_read h
  obtain ⟨service, rest₄, -, h⟩ := wire_bind_read h
  obtain ⟨method, rest₅, -, h⟩ := wire_bind_read h
  obtain ⟨sig, rest₆, -, h⟩ := wire_bind_read h
  obtain ⟨count, rest₇, -, h⟩ := wire_bind_read h
  obtain ⟨arguments, st₁, harguments, h⟩ := bind_eq_ok h
  obtain ⟨rfl, rfl⟩ := pure_eq_ok h
  have hrow := repeated_reads_values (fun _ _ _ => tagged_reads) harguments
  exact hrow.counts (markedBody_counts s s.maxDepth)

/-- A marked response counts what its payload is written with. -/
theorem markedResponse_counts (s : CodecSettings) {st st' : DecodeState} {r : Response}
    (h : responseWith (markedValue s) st = .ok r st') :
    st.valuesRead + r.payload.written ≤ st'.valuesRead := by
  obtain ⟨_, rest₁, -, h⟩ := wire_bind_read h
  obtain ⟨id, rest₂, -, h⟩ := wire_bind_read h
  obtain ⟨timestamp, rest₃, -, h⟩ := wire_bind_read h
  obtain ⟨result, rest₄, -, h⟩ := wire_bind_read h
  obtain ⟨message, rest₅, -, h⟩ := wire_bind_read h
  obtain ⟨payload, st₁, hpayload, h⟩ := bind_eq_ok h
  obtain ⟨rfl, rfl⟩ := pure_eq_ok h
  have hcounted := markedValue_counts s _ _ _ hpayload
  exact hcounted

end Decoder

/-- Decoding an input never reads more than the input pays for. -/
structure CodecSettings.Unamplified (s : CodecSettings) (bytes : List UInt8) : Prop where
  /-- A value is decoded, or not, with no more values read than bytes consumed. -/
  value : DecodeState.Covers 0 ⟨bytes, [], 0⟩ ((Decoder.value s).finalState bytes)
  /-- So is a request. -/
  request : DecodeState.Covers 0 ⟨bytes, [], 0⟩ ((Decoder.request s).finalState bytes)
  /-- So is a response. -/
  response : DecodeState.Covers 0 ⟨bytes, [], 0⟩ ((Decoder.response s).finalState bytes)
  /-- Every value that a decoded value is written with is among those read. -/
  valueRead : ∀ v, s.decodeValue bytes = .ok v →
    ∃ marked, s.markedValue bytes = .ok marked ∧ v = marked.unmark ∧
      marked.written ≤ ((Decoder.value s).finalState bytes).valuesRead
  /-- So is every value that the arguments of a decoded request are written with. -/
  argumentsRead : ∀ r, s.decodeRequest bytes = .ok r →
    ∃ marked, s.markedRequest bytes = .ok marked ∧
      r = { marked with arguments := marked.arguments.map Value.unmark } ∧
      Value.writtenOf marked.arguments ≤ ((Decoder.request s).finalState bytes).valuesRead
  /-- So is every value that the payload of a decoded response is written with. -/
  payloadRead : ∀ r, s.decodeResponse bytes = .ok r →
    ∃ marked, s.markedResponse bytes = .ok marked ∧
      r = { marked with payload := marked.payload.unmark } ∧
      marked.payload.written ≤ ((Decoder.response s).finalState bytes).valuesRead
  /-- A loop over elements ends within the input, whatever count is declared. -/
  elements : ∀ room tag, Decoder.EndsWithin 1 (Decoder.element (Decoder.body s room) tag)
  /-- So does a loop over entries. -/
  entries : ∀ room keyTag valueTag,
    Decoder.EndsWithin 2 (Decoder.entry (Decoder.body s room) keyTag valueTag)
  /-- So does a loop over fields or arguments. -/
  fields : ∀ room, Decoder.EndsWithin 1 (Decoder.tagged (Decoder.body s room))

/-- No codec amplifies any input. -/
theorem decode_unamplified (s : CodecSettings) (bytes : List UInt8) : s.Unamplified bytes where
  value := (Decoder.pays_value s).covers bytes
  request := (Decoder.pays_request s).covers bytes
  response := (Decoder.pays_response s).covers bytes
  valueRead := fun _ hv => (Decoder.unmarks_value s).counts (Decoder.markedValue_counts s) hv
  argumentsRead := fun _ hr =>
    (Decoder.unmarks_request s).counts (fun _ _ _ => Decoder.markedRequest_counts s) hr
  payloadRead := fun _ hr =>
    (Decoder.unmarks_response s).counts (fun _ _ _ => Decoder.markedResponse_counts s) hr
  elements := fun room tag => (Decoder.pays_element (Decoder.pays_body s room) tag).endsWithin
  entries := fun room keyTag valueTag =>
    (Decoder.pays_entry (Decoder.pays_body s room) keyTag valueTag).endsWithin
  fields := fun room => (Decoder.pays_tagged (Decoder.pays_body s room)).endsWithin

/-- Three lists and the reference to one of them are four values. Without the byte of the reference
the input is refused when one value has been read. -/
theorem decode_unamplified_reference :
    (∃ v marked, Reference.settings.decodeValue Reference.bytes = .ok v ∧
      Reference.settings.markedValue Reference.bytes = .ok marked ∧ v = marked.unmark ∧
      marked.written ≤ 4) ∧
    ((Decoder.value Reference.settings).finalState Reference.bytes).valuesRead = 4 ∧
    DecodeState.Covers 0 ⟨Reference.bytes.dropLast, [], 0⟩
      ((Decoder.value Reference.settings).finalState Reference.bytes.dropLast) ∧
    ((Decoder.value Reference.settings).finalState Reference.bytes.dropLast).valuesRead = 1 := by
  have hread : (Reference.settings.decodeValue Reference.bytes).toOption.isSome = true := by
    decide +kernel
  have hcount : ((Decoder.value Reference.settings).finalState Reference.bytes).valuesRead = 4 := by
    decide +kernel
  have hcount' :
      ((Decoder.value Reference.settings).finalState Reference.bytes.dropLast).valuesRead = 1 := by
    decide +kernel
  refine ⟨?_, hcount, (decode_unamplified _ _).value, hcount'⟩
  cases hv : Reference.settings.decodeValue Reference.bytes with
  | error e =>
    rw [hv] at hread
    cases hread
  | ok v =>
    obtain ⟨marked, hmarked, hunmark, hle⟩ :=
      (decode_unamplified Reference.settings Reference.bytes).valueRead v hv
    exact ⟨v, marked, rfl, hmarked, hunmark, hcount ▸ hle⟩

end RemoteCall
