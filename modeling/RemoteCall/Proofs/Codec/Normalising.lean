import RemoteCall.Proofs.Codec.Restating
import RemoteCall.Proofs.Codec.RoundTrip
import RemoteCall.Proofs.Value.Listing

/-!
# Accepted input has a normal form

What a codec accepts it can write, as long as no sorted container is in it. The bytes that it writes
are the normal form of the bytes that it accepted: they are read as the very same datum, bit by bit
and instance by instance, so writing that again changes nothing. Longer spellings of numbers, tags
that need not be there and flags that stand for nothing do not survive; references do.
-/

namespace RemoteCall

namespace Decoder

variable {s : CodecSettings} {g : Graph}

/-- No slot holds an instance that could not be referred to. -/
theorem referable_nil (s : CodecSettings) : Referable s [] := by
  intro position classId v h
  cases h

/-- A value that is read with its tag can be written, and is read again. -/
theorem value_written (hs : s.registry.Regular) (hg : g.Unsorted) {st st' : DecodeState}
    {v : Value} (h : value s st = .ok v st') (hr : Referable s st.slots) (hv : g.Holds v) :
    ∃ bytes, Encoder.value s s.maxDepth v (numbers st.slots) = .ok (bytes, numbers st'.slots) ∧
      Takes (· = st.slots) (value s) bytes v (· = st'.slots) := by
  obtain ⟨hrestated, -⟩ := (bodiesRestated hs hg s.maxDepth).tagged h hr hv
  obtain ⟨tag, bytes, htag, hbytes, htakes⟩ := hrestated.written none nofun
  exact ⟨tag ++ bytes, Encoder.value_of_parts htag hbytes, htakes⟩

/-- Values that are read with their tags in a row can be written, and are read again. -/
theorem values_written (hs : s.registry.Regular) (hg : g.Unsorted) {st st' : DecodeState}
    {vs : List Value} {count : Nat} (h : repeated (value s) count st = .ok vs st')
    (hr : Referable s st.slots) (hvs : ∀ v ∈ vs, g.Holds v) :
    vs.length = count ∧ ∃ bytes,
      Encoder.elements s s.maxDepth none vs (numbers st.slots) = .ok (bytes, numbers st'.slots) ∧
      Takes (· = st.slots) (repeated (value s) vs.length) bytes vs (· = st'.slots) := by
  have hb := bodiesRestated hs hg s.maxDepth
  obtain ⟨hcount, hturn, -⟩ := repeated_eq_ok (fun _ _ _ hitem hr hv => hb.tagged hitem hr hv) h hr
    hvs
  exact ⟨hcount, hturn.elements_written none nofun⟩

end Decoder

namespace CodecSettings

variable {s : CodecSettings}

/-- A value that is accepted can be written, and is read again. -/
theorem encodeValue_decodeValue (hs : s.registry.Regular) {bytes : List UInt8} {v : Value}
    (h : s.decodeValue bytes = .ok v) (hv : Graph.Unsorted [v]) :
    ∃ again, s.encodeValue v = .ok again ∧ s.decodeValue again = .ok v := by
  obtain ⟨st, hst, -⟩ := Decoder.run_eq_ok h
  obtain ⟨again, hagain, htakes⟩ := Decoder.value_written hs hv hst (Decoder.referable_nil s)
    (Graph.holds_of_mem List.mem_cons_self)
  exact ⟨again, Encoder.run_of_ok hagain, Decoder.run_of_takes htakes rfl⟩

/-- A response that is accepted can be written, and is read again. -/
theorem encodeResponse_decodeResponse (hs : s.registry.Regular) {bytes : List UInt8}
    {r : Response} (h : s.decodeResponse bytes = .ok r) (hr : Graph.Unsorted [r.payload]) :
    ∃ again, s.encodeResponse r = .ok again ∧ s.decodeResponse again = .ok r := by
  obtain ⟨st, h, -⟩ := Decoder.run_eq_ok h
  obtain ⟨_, _, h⟩ := Decoder.wire_bind_eq_ok_any h
  obtain ⟨id, _, h⟩ := Decoder.wire_bind_eq_ok_any h
  obtain ⟨timestamp, _, h⟩ := Decoder.wire_bind_eq_ok_any h
  obtain ⟨status, _, h⟩ := Decoder.wire_bind_eq_ok_any h
  obtain ⟨message, _, hmessage, h⟩ := Decoder.wire_bind_eq_ok Sized.readOptionalText_gives h
  obtain ⟨payload, st', hpayload, h⟩ := Decoder.bind_eq_ok h
  obtain ⟨rfl, rfl⟩ := Decoder.pure_eq_ok h
  obtain ⟨inner, hinner, htakes⟩ := Decoder.value_written hs hr hpayload (Decoder.referable_nil s)
    (Graph.holds_of_mem List.mem_cons_self)
  exact ⟨_, Encoder.run_of_ok (Encoder.response_of_parts hinner),
    Decoder.run_of_takes (Decoder.response_takes hmessage htakes) rfl⟩

/-- A request that is accepted can be written, and is read again. -/
theorem encodeRequest_decodeRequest (hs : s.registry.Regular) {bytes : List UInt8}
    {r : Request} (h : s.decodeRequest bytes = .ok r) (hr : Graph.Unsorted r.arguments) :
    ∃ again, s.encodeRequest r = .ok again ∧ s.decodeRequest again = .ok r := by
  obtain ⟨st, h, -⟩ := Decoder.run_eq_ok h
  obtain ⟨_, _, h⟩ := Decoder.wire_bind_eq_ok_any h
  obtain ⟨id, _, h⟩ := Decoder.wire_bind_eq_ok_any h
  obtain ⟨timestamp, _, h⟩ := Decoder.wire_bind_eq_ok_any h
  obtain ⟨service, _, hservice, h⟩ := Decoder.wire_bind_eq_ok Sized.readText_gives h
  obtain ⟨method, _, hmethod, h⟩ := Decoder.wire_bind_eq_ok Sized.readText_gives h
  obtain ⟨sig, _, ⟨sigBytes, hsig, hsigTakes⟩, h⟩ :=
    Decoder.wire_bind_eq_ok (Decoder.signature_gives hs) h
  obtain ⟨count, _, hcount, h⟩ := Decoder.wire_bind_eq_ok (Sized.readCount_gives 1) h
  obtain ⟨arguments, st', harguments, h⟩ := Decoder.bind_eq_ok h
  obtain ⟨rfl, rfl⟩ := Decoder.pure_eq_ok h
  obtain ⟨rfl, inner, hinner, htakes⟩ := Decoder.values_written hs hr harguments
    (Decoder.referable_nil s) fun v hv => Graph.holds_of_mem hv
  have hfit := Encoder.length_le_elements
    (fun v _ (hsome : (none : Option Nat).isSome) => absurd hsome (by decide)) hinner
  exact ⟨_, Encoder.run_of_ok (Encoder.request_of_parts hsig hinner),
    Decoder.run_of_takes
      (Decoder.request_takes hservice hmethod hsigTakes hcount hfit htakes) rfl⟩

end CodecSettings

/-- Writing some datum and reading it again gives the datum, and writing what was read gives the
same bytes. -/
def Normalised (encode : α → Except CodecError (List UInt8))
    (decode : List UInt8 → Except CodecError α) (a : α) : Prop :=
  ∃ again, encode a = .ok again ∧ decode again = .ok a ∧
    ∀ b, decode again = .ok b → encode b = .ok again

/-- A datum that is read again from what is written is normalised. -/
theorem normalised_of_read_again {encode : α → Except CodecError (List UInt8)}
    {decode : List UInt8 → Except CodecError α} {a : α}
    (h : ∃ again, encode a = .ok again ∧ decode again = .ok a) : Normalised encode decode a := by
  obtain ⟨again, hencode, hdecode⟩ := h
  refine ⟨again, hencode, hdecode, fun b hb => ?_⟩
  obtain rfl := Except.ok.inj (hdecode.symm.trans hb)
  exact hencode

/-- **Accepted input is normalised.** Whatever value or envelope a codec accepts, in whatever
spelling and with whatever references, it can write, if no sorted container stands in it; the bytes
are read as the same value or envelope, floating-point numbers bit by bit and instances number by
number, and that is written as the same bytes. -/
theorem normalised_of_accepted {s : CodecSettings} (hs : s.registry.Registered) :
    (∀ bytes v, s.decodeValue bytes = .ok v → Graph.Unsorted [v] →
      Normalised s.encodeValue s.decodeValue v) ∧
    (∀ bytes r, s.decodeRequest bytes = .ok r → Graph.Unsorted r.arguments →
      Normalised s.encodeRequest s.decodeRequest r) ∧
    ∀ bytes r, s.decodeResponse bytes = .ok r → Graph.Unsorted [r.payload] →
      Normalised s.encodeResponse s.decodeResponse r := by
  refine ⟨fun bytes v h hv => ?_, fun bytes r h hr => ?_, fun bytes r h hr => ?_⟩
  · exact normalised_of_read_again (CodecSettings.encodeValue_decodeValue hs.regular h hv)
  · exact normalised_of_read_again (CodecSettings.encodeRequest_decodeRequest hs.regular h hr)
  · exact normalised_of_read_again (CodecSettings.encodeResponse_decodeResponse hs.regular h hr)

namespace Respelled

/-- The standard settings with a nesting limit of two. -/
def settings : CodecSettings := { CodecSettings.standard with maxDepth := 2 }

/-- A list of an empty list and of a list with a reference to it. The count two has a longer
spelling than it needs, and every element has its own tag. -/
def bytes : List UInt8 := [23, 0, 1, 130, 0, 0, 23, 0, 1, 0, 23, 0, 1, 1, 0, 23, 2]

/-- The empty list. -/
def empty : Value := .collection 1 .list []

/-- The list with the reference. -/
def around : Value := .collection 2 .list [empty]

/-- The whole. -/
def value : Value := .collection 0 .list [empty, around]

/-- The bytes spell the whole. -/
theorem decode_eq : settings.decodeValue bytes = .ok value := by
  decide +kernel

/-- The whole holds lists only. -/
theorem unsorted : Graph.Unsorted [value] := by
  have hall : Graph.listedBy [value] [value, empty, around] = true := by decide
  constructor
  · intro id order items h
    have hmem := h.mem_of_listedBy hall
    simp [value, empty, around] at hmem
  · intro id order entries h
    have hmem := h.mem_of_listedBy hall
    simp [value, empty, around] at hmem

end Respelled

/-- The normal form of a longer spelling: a short count, a shared tag, and the reference, for which
the nesting limit leaves no room to write the list out again. -/
theorem normalised_of_accepted_respelled :
    Respelled.settings.registry.Registered ∧
    Respelled.settings.decodeValue Respelled.bytes = .ok Respelled.value ∧
    Graph.Unsorted [Respelled.value] ∧
    Respelled.settings.encodeValue Respelled.value =
      .ok [23, 0, 1, 2, 23, 0, 1, 0, 0, 1, 1, 23, 2] ∧
    Normalised Respelled.settings.encodeValue Respelled.settings.decodeValue Respelled.value := by
  have hregistered : Respelled.settings.registry.Registered := ⟨[], rfl⟩
  refine ⟨hregistered, Respelled.decode_eq, Respelled.unsorted, by decide +kernel, ?_⟩
  exact (normalised_of_accepted hregistered).1 _ _ Respelled.decode_eq Respelled.unsorted

end RemoteCall
