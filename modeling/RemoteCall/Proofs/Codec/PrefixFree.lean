import RemoteCall.Proofs.Codec.Leaving
import RemoteCall.Proofs.Codec.Taking
import RemoteCall.Proofs.Value.Graph

/-!
# No message begins another

A decoder that succeeds does the same with more input behind, and leaves the more as well. This
holds of every reader of the wire, it composes along the sequencing of decoders, and it passes from
the readers of the bodies inside to the reader of a body. So an input that is accepted says where it
ends: what is cut off is refused, and what stands behind is refused byte for byte.
-/

namespace RemoteCall

/-- The state with more input behind what is left. -/
def DecodeState.followedBy (st : DecodeState) (more : List UInt8) : DecodeState :=
  { st with rest := st.rest ++ more }

namespace Decoder

/-- Whenever the decoder succeeds, it does the same with more input behind. -/
def FromFront (d : Decoder α) : Prop :=
  ∀ st a st', d st = .ok a st' → ∀ more, d (st.followedBy more) = .ok a (st'.followedBy more)

namespace FromFront

/-- Decoders in sequence. -/
theorem bind {d : Decoder α} {f : α → Decoder β} (hd : FromFront d) (hf : ∀ a, FromFront (f a)) :
    FromFront (d >>= f) := by
  intro st b st' h more
  obtain ⟨a, st₁, ha, h⟩ := bind_eq_ok h
  rw [bind_of_ok (hd _ _ _ ha more)]
  exact hf a _ _ _ h more

/-- A known result is read from nothing. -/
theorem pure (a : α) : FromFront (Pure.pure a : Decoder α) := by
  intro st b st' h more
  cases h
  rfl

/-- A failure gives nothing. -/
theorem throw (e : CodecError) : FromFront (throw e : Decoder α) := by
  intro st b st' h
  cases h

/-- Either branch takes from the front. -/
theorem ite {p : Prop} [Decidable p] {d d' : Decoder α} (hd : FromFront d) (hd' : FromFront d') :
    FromFront (if p then d else d') := by
  split
  · exact hd
  · exact hd'

/-- A check reads nothing. -/
theorem known (x : Except CodecError α) : FromFront (Decoder.known x) := by
  cases x with
  | error e => exact .throw e
  | ok a => exact .pure a

/-- A result that is only rewrapped. -/
theorem map (f : α → β) {d : Decoder α} (hd : FromFront d) : FromFront (f <$> d) := by
  rw [← bind_pure_comp]
  exact hd.bind fun a => .pure (f a)

/-- A reader of the wire. -/
theorem wire {r : Reader α} (hr : r.FromFront) : FromFront (Decoder.wire r) := by
  intro st a st' h more
  obtain ⟨rest, hrest, rfl⟩ := wire_eq_ok h
  exact wire_of_eq_ok (hr.extended hrest more)

/-- Counting reads nothing. -/
theorem counted (v : Value) : FromFront (Decoder.counted v) := by
  intro st w st' h more
  cases h
  rfl

/-- Opening a slot reads nothing. -/
theorem openSlot (classId : Nat) : FromFront (Decoder.openSlot classId) := by
  intro st position st' h more
  cases h
  rfl

/-- Filling a slot reads nothing. -/
theorem fillSlot (classId position : Nat) (v : Value) :
    FromFront (Decoder.fillSlot classId position v) := by
  intro st a st' h more
  cases h
  rfl

/-- A reference is looked up and reads nothing. -/
theorem referenced (classId position : Nat) : FromFront (Decoder.referenced classId position) := by
  intro st v st' h more
  obtain ⟨hslot, rfl⟩ := referenced_eq_ok h
  exact referenced_of_slot hslot

/-- As many as a count says. -/
theorem repeated {item : Decoder α} (hitem : FromFront item) (count : Nat) :
    FromFront (Decoder.repeated item count) := by
  induction count with
  | zero => exact .pure []
  | succ count ih => exact hitem.bind fun a => ih.bind fun rest => .pure (a :: rest)

end FromFront

section Bodies

variable {body : Nat → Decoder Value} (hbody : ∀ classId, FromFront (body classId))

include hbody

/-- A tag with its contents is read from the front if contents are. -/
theorem tagged_fromFront : FromFront (tagged body) :=
  (FromFront.wire Varint.read32_fromFront).bind fun tag => .ite (.counted .null) (hbody (tag - 1))

/-- So is an element. -/
theorem element_fromFront (tag : Nat) : FromFront (element body tag) :=
  .ite (tagged_fromFront hbody) (hbody (tag - 1))

/-- So are elements behind their count. -/
theorem elements_fromFront : FromFront (elements body) := by
  refine (FromFront.wire (Sized.readCount_fromFront 1)).bind fun count => .ite (.pure []) ?_
  refine (FromFront.wire Varint.read32_fromFront).bind fun tag => ?_
  exact (element_fromFront hbody tag).repeated count

/-- So are entries behind their count. -/
theorem entries_fromFront : FromFront (entries body) := by
  refine (FromFront.wire (Sized.readCount_fromFront 2)).bind fun count => .ite (.pure []) ?_
  refine (FromFront.wire Varint.read32_fromFront).bind fun keyTag => ?_
  refine (FromFront.wire Varint.read32_fromFront).bind fun valueTag => ?_
  refine FromFront.repeated ?_ count
  exact (element_fromFront hbody keyTag).bind fun k =>
    (element_fromFront hbody valueTag).bind fun v => .pure (k, v)

variable (s : CodecSettings)

/-- So is an array. -/
theorem array_fromFront (room position classId : Nat) :
    FromFront (array s room body position classId) := by
  refine (FromFront.wire (typeRef_fromFront s room)).bind fun type => ?_
  refine (FromFront.known _).bind fun _ => ?_
  exact (elements_fromFront hbody).bind fun items => .known _

/-- So is a collection. -/
theorem collection_fromFront (position : Nat) : FromFront (collection s body position) := by
  refine (FromFront.wire Reader.byte_fromFront).bind fun tag => ?_
  cases CollectionKind.ofTag? tag with
  | none => exact .throw _
  | some kind =>
    cases kind with
    | list => exact (elements_fromFront hbody).bind fun items => .pure _
    | set => exact (elements_fromFront hbody).bind fun items => .pure _
    | sortedSet =>
      refine (FromFront.wire (comparator_fromFront s)).bind fun order => ?_
      exact (elements_fromFront hbody).bind fun items => .pure _

/-- So is a map. -/
theorem map_fromFront (position : Nat) : FromFront (map s body position) := by
  refine (FromFront.wire Reader.byte_fromFront).bind fun tag => ?_
  cases MapKind.ofTag? tag with
  | none => exact .throw _
  | some kind =>
    cases kind with
    | plain => exact (entries_fromFront hbody).bind fun es => .pure _
    | sorted =>
      refine (FromFront.wire (comparator_fromFront s)).bind fun order => ?_
      exact (entries_fromFront hbody).bind fun es => .pure _

/-- So is an instance of a registered class. -/
theorem registered_fromFront (position classId : Nat) :
    FromFront (registered s body position classId) := by
  refine (FromFront.known _).bind fun c => ?_
  cases c.shape with
  | object names =>
    exact ((tagged_fromFront hbody).repeated names.length).bind fun fields => .pure _
  | enum variants =>
    exact (FromFront.wire Varint.read32_fromFront).bind fun ordinal => .ite (.pure _) (.throw _)

/-- So are contents of every class. -/
theorem contents_fromFront (room position classId : Nat) :
    FromFront (contents s room body position classId) := by
  unfold contents
  cases ScalarType.ofClassId? classId with
  | some t => exact .map _ (.wire (Scalar.read_fromFront t))
  | none =>
    refine .ite (array_fromFront hbody s room position classId) (.ite ?_ (.ite ?_ ?_))
    · exact collection_fromFront hbody s position
    · exact map_fromFront hbody s position
    · exact registered_fromFront hbody s position classId

end Bodies

variable (s : CodecSettings)

/-- A body takes from the front if what begins does. -/
theorem bodyWith_fromFront {fresh : Nat → Nat → Decoder Value}
    (hfresh : ∀ position classId, FromFront (fresh position classId)) (classId : Nat) :
    FromFront (bodyWith s fresh classId) := by
  refine (FromFront.known _).bind fun kind => .ite (.throw _) (.ite ?untracked ?tracked)
  case untracked => exact (hfresh 0 classId).bind fun v => .counted v
  case tracked =>
    refine (FromFront.wire Varint.read32_fromFront).bind fun marker => .ite ?again ?first
    case again => exact (FromFront.referenced classId (marker - 1)).bind fun v => .counted v
    case first =>
      refine (FromFront.openSlot classId).bind fun position => ?_
      refine (hfresh position classId).bind fun v => ?_
      exact (FromFront.fillSlot classId position v).bind fun _ => .counted v

/-- What stands behind a tag is read from the front, at every depth. -/
theorem body_fromFront (room classId : Nat) : FromFront (body s room classId) := by
  induction room generalizing classId with
  | zero => exact bodyWith_fromFront s (fun _ _ => .throw _) classId
  | succ room ih => exact bodyWith_fromFront s (contents_fromFront ih s room) classId

/-- A value is read from the front. -/
theorem value_fromFront : FromFront (value s) := tagged_fromFront (body_fromFront s s.maxDepth)

/-- A request is read from the front. -/
theorem request_fromFront : FromFront (request s) := by
  refine (FromFront.wire (envelopeTag_fromFront _ _)).bind fun _ => ?_
  refine (FromFront.wire Varint.read_fromFront).bind fun id => ?_
  refine (FromFront.wire Varint.readSigned_fromFront).bind fun timestamp => ?_
  refine (FromFront.wire Sized.readText_fromFront).bind fun service => ?_
  refine (FromFront.wire Sized.readText_fromFront).bind fun method => ?_
  refine (FromFront.wire (signature_fromFront s)).bind fun sig => ?_
  refine (FromFront.wire (Sized.readCount_fromFront 1)).bind fun count => ?_
  exact ((value_fromFront s).repeated count).bind fun arguments => .pure _

/-- A response is read from the front. -/
theorem response_fromFront : FromFront (response s) := by
  refine (FromFront.wire (envelopeTag_fromFront _ _)).bind fun _ => ?_
  refine (FromFront.wire Varint.read_fromFront).bind fun id => ?_
  refine (FromFront.wire Varint.readSigned_fromFront).bind fun timestamp => ?_
  refine (FromFront.wire status_fromFront).bind fun result => ?_
  refine (FromFront.wire Sized.readOptionalText_fromFront).bind fun message => ?_
  exact (value_fromFront s).bind fun payload => .pure _

end Decoder

/-- What is accepted is accepted as a whole: no more and no less of it. -/
structure PrefixFree (decode : List UInt8 → Except CodecError α) : Prop where
  /-- A strict prefix of an accepted input is refused. -/
  cut : ∀ {bytes front : List UInt8} {a : α}, decode bytes = .ok a → front <+: bytes →
    front ≠ bytes → ∃ e, decode front = .error e
  /-- More bytes behind an accepted input are refused and counted. -/
  extended : ∀ {bytes : List UInt8} {a : α}, decode bytes = .ok a → ∀ more, more ≠ [] →
    decode (bytes ++ more) = .error (.trailingBytes more.length)
  /-- An accepted input is no prefix of another. -/
  eq_of_prefix : ∀ {bytes front : List UInt8} {a b : α}, decode bytes = .ok a →
    decode front = .ok b → front <+: bytes → front = bytes

/-- If more bytes behind an accepted input are refused, nothing accepted begins another. -/
theorem PrefixFree.of_extended {decode : List UInt8 → Except CodecError α}
    (h : ∀ {bytes a}, decode bytes = .ok a → ∀ more, more ≠ [] →
      decode (bytes ++ more) = .error (.trailingBytes more.length)) : PrefixFree decode := by
  have heq {bytes front : List UInt8} {a b : α} (hbytes : decode bytes = .ok a)
      (hfront : decode front = .ok b) (hbegins : front <+: bytes) : front = bytes := by
    obtain ⟨more, rfl⟩ := hbegins
    by_cases hmore : more = []
    · rw [hmore, List.append_nil]
    · rw [h hfront more hmore] at hbytes
      cases hbytes
  constructor
  case cut =>
    intro bytes front a hbytes hbegins hne
    cases hfront : decode front with
    | error e => exact ⟨e, rfl⟩
    | ok b => exact absurd (heq hbytes hfront hbegins) hne
  case extended => exact h
  case eq_of_prefix => exact heq

/-- A run of a decoder that takes from the front. -/
theorem Decoder.FromFront.run {d : Decoder α} (hd : FromFront d) : PrefixFree d.run := by
  refine .of_extended fun h more hmore => ?_
  obtain ⟨st, hst, hrest⟩ := run_eq_ok h
  have hmore' : EStateM.run d ⟨_ ++ more, [], 0⟩ = .ok _ (st.followedBy more) := hd _ _ _ hst more
  have hleft : (st.followedBy more).rest = more := by
    rw [DecodeState.followedBy, hrest, List.nil_append]
  have hnonempty : more.isEmpty = false := by simpa using hmore
  rw [Decoder.run, hmore']
  simp [hleft, hnonempty]

/-- **No message begins another.** Whatever a codec is set to, of an input that it accepts as a
value, as a request or as a response every strict prefix is refused, and with any bytes behind it is
refused with their number; so no accepted input is a strict prefix of another. -/
theorem accepted_prefixFree (s : CodecSettings) :
    PrefixFree s.decodeValue ∧ PrefixFree s.decodeRequest ∧ PrefixFree s.decodeResponse :=
  ⟨(Decoder.value_fromFront s).run, (Decoder.request_fromFront s).run,
    (Decoder.response_fromFront s).run⟩

namespace Flags

/-- A list of three flags under one tag. -/
def bytes : List UInt8 := [23, 0, 1, 3, 2, 1, 0, 1]

/-- The list. -/
def value : Value :=
  .collection 0 .list [.scalar (.bool true), .scalar (.bool false), .scalar (.bool true)]

/-- The bytes spell the list. -/
theorem decode_eq : CodecSettings.standard.decodeValue bytes = .ok value := by
  decide +kernel

end Flags

/-- A list that is cut behind its first flag, where already its count of three is refused, and with
two bytes behind it. -/
theorem accepted_prefixFree_flags :
    CodecSettings.standard.decodeValue Flags.bytes = .ok Flags.value ∧
    CodecSettings.standard.decodeValue [23, 0, 1, 3, 2, 1] = .error (.sizeOutOfBounds 3 2) ∧
    (∃ e, CodecSettings.standard.decodeValue [23, 0, 1, 3, 2, 1] = .error e) ∧
    CodecSettings.standard.decodeValue (Flags.bytes ++ [7, 7]) = .error (.trailingBytes 2) := by
  have hfree := (accepted_prefixFree CodecSettings.standard).1
  have hbegins : [23, 0, 1, 3, 2, 1] <+: Flags.bytes := ⟨[0, 1], rfl⟩
  refine ⟨Flags.decode_eq, by decide +kernel, ?_, ?_⟩
  · exact hfree.cut Flags.decode_eq hbegins (by decide)
  · exact hfree.extended Flags.decode_eq [7, 7] (by decide)

end RemoteCall
