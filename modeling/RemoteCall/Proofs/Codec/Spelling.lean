import RemoteCall.Proofs.Codec.Everywhere
import RemoteCall.Proofs.Codec.RoundTrip
import RemoteCall.Proofs.Value.Distinct

/-!
# Sets and maps as they are spelled

The reader of a set gives the items that the bytes spell, and the reader of a map the entries, each
as often as it is spelled: neither looks for items or keys that are the same, as the constructors
do. So a decoded graph has no repeats exactly if none were spelled. Whoever writes what constructors
made spells none; other bytes may, and then the first of the entries with a key is found, where the
constructor would have kept the value of the last.
-/

namespace RemoteCall

/-- On the way from the start of a run over an input to the final state of the run, the decoder
gives a datum. -/
def Decoder.GivesOnTheWay (bytes : List UInt8) (final : DecodeState) (d : Decoder α) (a : α) :
    Prop :=
  ∃ st st', DecodeState.Leads ⟨bytes, [], 0⟩ st ∧ d st = .ok a st' ∧ st'.Leads final

/-- If the value is a set, its items are what is read somewhere as elements, and if it is a map in
order of insertion, its entries are what is read somewhere as entries. -/
def Value.AsSpelled (s : CodecSettings) (bytes : List UInt8) (final : DecodeState) : Value → Prop
  | collection _ .set items =>
    ∃ room, Decoder.GivesOnTheWay bytes final (Decoder.elements (Decoder.body s room)) items
  | map _ .plain entries =>
    ∃ room, Decoder.GivesOnTheWay bytes final (Decoder.entries (Decoder.body s room)) entries
  | _ => True

/-- The sets and maps of the graph are as an input spells them in a run that ends in a state. -/
def Graph.AsSpelled (s : CodecSettings) (bytes : List UInt8) (final : DecodeState) (g : Graph) :
    Prop := ∀ v, g.Holds v → v.AsSpelled s bytes final

namespace Decoder

variable {s : CodecSettings} {bytes : List UInt8} {final : DecodeState}

/-- A value whose contents are read is as it is spelled: of a set the items are given as they are,
and of a map the entries. -/
theorem asSpelled_granted (s : CodecSettings) (bytes : List UInt8) (final : DecodeState) :
    Granted s bytes final (Value.AsSpelled s bytes final) := by
  constructor
  case null => trivial
  case contents =>
    intro room position st st' v h hbefore hafter
    cases h with
    | set left read =>
      exact ⟨room, _, _, hbefore.trans (DecodeState.advances_rest left).leads, read, hafter⟩
    | map left read =>
      exact ⟨room, _, _, hbefore.trans (DecodeState.advances_rest left).leads, read, hafter⟩
    | _ => trivial

/-- A decoded value is as it is spelled. -/
theorem value_asSpelled {v : Value} (h : value s ⟨bytes, [], 0⟩ = .ok v final) :
    Graph.AsSpelled s bytes final [v] :=
  (asSpelled_granted s bytes final).value h

/-- The arguments of a decoded request are as they are spelled. -/
theorem request_asSpelled {r : Request} (h : request s ⟨bytes, [], 0⟩ = .ok r final) :
    Graph.AsSpelled s bytes final r.arguments :=
  (asSpelled_granted s bytes final).request h

/-- The payload of a decoded response is as it is spelled. -/
theorem response_asSpelled {r : Response} (h : response s ⟨bytes, [], 0⟩ = .ok r final) :
    Graph.AsSpelled s bytes final [r.payload] :=
  (asSpelled_granted s bytes final).response h

end Decoder

/-- What constructors made is distinct. -/
theorem Graph.Sendable.distinct {g : Graph} (hg : g.Sendable) : g.Distinct :=
  fun _ hv => (hg.built_of_holds hv).distinct

/-- In a distinct graph a map has one value for a key, from whichever side it is looked for. -/
theorem Graph.Distinct.findValue?_reverse {g : Graph} (hg : g.Distinct) {id : Nat}
    {entries : List (Value × Value)} (h : g.Holds (.map id .plain entries)) (key : Value) :
    findValue? key entries.reverse = findValue? key entries :=
  Unrepeated.findValue?_reverse (hg _ h) key

/-- **Uniqueness survives the way over the wire.** What constructors made is read back without
repeats. -/
theorem decode_encode_distinct {s : CodecSettings} (hs : s.CanAnnounce) :
    (∀ (v : Value) (bytes : List UInt8), Graph.Sendable [v] → s.encodeValue v = .ok bytes →
      bytes.length < UInt64.size → ∃ w, s.decodeValue bytes = .ok w ∧ Graph.Distinct [w]) ∧
    (∀ (r : Request) (bytes : List UInt8), Graph.Sendable r.arguments →
      (∀ spec ∈ r.signature.returns :: r.signature.params, spec.type.hasVoidArray = false) →
      s.encodeRequest r = .ok bytes → bytes.length < UInt64.size →
      ∃ ws, s.decodeRequest bytes = .ok { r with arguments := ws } ∧ Graph.Distinct ws) ∧
    ∀ (r : Response) (bytes : List UInt8), Graph.Sendable [r.payload] →
      s.encodeResponse r = .ok bytes → bytes.length < UInt64.size →
      ∃ w, s.decodeResponse bytes = .ok { r with payload := w } ∧ Graph.Distinct [w] := by
  refine ⟨fun v bytes hv h hlen => ?_, fun r bytes hv hvoid h hlen => ?_,
    fun r bytes hv h hlen => ?_⟩
  · obtain ⟨w, hw, halike⟩ := hs.decodeValue_encodeValue hv h hlen
    exact ⟨w, hw, halike.distinct_iff.mpr hv.distinct⟩
  · obtain ⟨ws, hws, halike⟩ := hs.decodeRequest_encodeRequest hv hvoid h hlen
    exact ⟨ws, hws, halike.distinct_iff.mpr hv.distinct⟩
  · obtain ⟨w, hw, halike⟩ := hs.decodeResponse_encodeResponse hv h hlen
    exact ⟨w, hw, halike.distinct_iff.mpr hv.distinct⟩

/-- **Sets and maps are decoded as they are spelled.** In whatever a codec accepts, the items of a
set are those that its bytes spell and the entries of a map likewise, repeats included. A value that
can be written is read back distinct exactly if it is so when its sorted containers are built anew.
Where a graph is distinct, the first value of a key in a map is also the last. -/
theorem decoded_asSpelled (s : CodecSettings) :
    (∀ bytes v, s.decodeValue bytes = .ok v → ∃ final,
      Decoder.value s ⟨bytes, [], 0⟩ = .ok v final ∧ Graph.AsSpelled s bytes final [v]) ∧
    (∀ bytes r, s.decodeRequest bytes = .ok r → ∃ final,
      Decoder.request s ⟨bytes, [], 0⟩ = .ok r final ∧
        Graph.AsSpelled s bytes final r.arguments) ∧
    (∀ bytes r, s.decodeResponse bytes = .ok r → ∃ final,
      Decoder.response s ⟨bytes, [], 0⟩ = .ok r final ∧
        Graph.AsSpelled s bytes final [r.payload]) ∧
    (∀ v bytes, s.CanAnnounce → Graph.Portable [v] → s.encodeValue v = .ok bytes →
      bytes.length < UInt64.size →
      ∃ w, s.decodeValue bytes = .ok w ∧ (Graph.Distinct [w] ↔ Graph.Distinct [v.rebuilt])) ∧
    ∀ g : Graph, g.Distinct → ∀ id entries, g.Holds (.map id .plain entries) →
      ∀ key, findValue? key entries.reverse = findValue? key entries := by
  refine ⟨fun bytes v h => ?_, fun bytes r h => ?_, fun bytes r h => ?_,
    fun v bytes hs hv h hlen => ?_, fun g hg id entries h key => hg.findValue?_reverse h key⟩
  · obtain ⟨final, hfinal⟩ := Decoder.exists_final h
    exact ⟨final, hfinal, Decoder.value_asSpelled hfinal⟩
  · obtain ⟨final, hfinal⟩ := Decoder.exists_final h
    exact ⟨final, hfinal, Decoder.request_asSpelled hfinal⟩
  · obtain ⟨final, hfinal⟩ := Decoder.exists_final h
    exact ⟨final, hfinal, Decoder.response_asSpelled hfinal⟩
  · obtain ⟨w, hw, halike⟩ := hs.decodeValue_rebuilt hv h hlen
    exact ⟨w, hw, halike.distinct_iff⟩

namespace Repeats

/-- A number. -/
def one : Value := .scalar (.int 1)

/-- Another number. -/
def two : Value := .scalar (.int 2)

/-- A set with an item that is spelled twice. -/
def set : Value := .collection 1 .set [one, one]

/-- Entries with a key that is spelled twice. -/
def entries : List (Value × Value) := [(one, one), (one, two)]

/-- A list of the set and a map with the entries. -/
def value : Value := .collection 0 .list [set, .map 2 .plain entries]

/-- The bytes of the list. -/
def bytes : List UInt8 :=
  [23, 0, 1, 2, 0, 23, 0, 2, 2, 5, 2, 2, 24, 0, 1, 2, 5, 5, 2, 2, 2, 4]

/-- All values in the list. -/
def all : List Value := [value, set, .map 2 .plain entries, one, two]

/-- The list can be written. -/
theorem portable : Graph.Portable [value] := by
  have hall : Graph.listedBy [value] all = true := by decide
  refine Graph.portable_of_listedBy hall (by decide) ?_ (by decide)
  simp [all, value, set, one, two]

/-- The map stands in the list. -/
theorem holds_map : Graph.Holds [value] (.map 2 .plain entries) := ⟨[0, 1], rfl⟩

end Repeats

/-- A set with an item twice and a map with a key twice are written and read as they are; of the key
the first value is found, where the constructor of the map would keep the last. -/
theorem decoded_asSpelled_repeats :
    CodecSettings.standard.decodeValue Repeats.bytes = .ok Repeats.value ∧
    (∃ final,
      Decoder.value CodecSettings.standard ⟨Repeats.bytes, [], 0⟩ = .ok Repeats.value final ∧
      Graph.AsSpelled CodecSettings.standard Repeats.bytes final [Repeats.value]) ∧
    CodecSettings.standard.encodeValue Repeats.value = .ok Repeats.bytes ∧
    (Graph.Distinct [Repeats.value] ↔ Graph.Distinct [Repeats.value.rebuilt]) ∧
    findValue? Repeats.one Repeats.entries = some Repeats.one ∧
    findValue? Repeats.one Repeats.entries.reverse = some Repeats.two ∧
    findValue? Repeats.one (distinctEntries Repeats.entries) = some Repeats.two ∧
    ¬ Graph.Distinct [Repeats.value] := by
  have hs : CodecSettings.standard.CanAnnounce := ⟨⟨[], rfl⟩, nofun⟩
  have hread : CodecSettings.standard.decodeValue Repeats.bytes = .ok Repeats.value := by
    decide +kernel
  have hwritten : CodecSettings.standard.encodeValue Repeats.value = .ok Repeats.bytes := by
    decide +kernel
  obtain ⟨hvalue, -, -, hback, hfind⟩ := decoded_asSpelled CodecSettings.standard
  have hspelled := hvalue _ _ hread
  obtain ⟨w, hw, hiff⟩ := hback _ _ hs Repeats.portable hwritten (by decide)
  obtain rfl := Except.ok.inj (hread.symm.trans hw)
  have hlast : findValue? Repeats.one Repeats.entries.reverse = some Repeats.two := by decide
  refine ⟨hread, hspelled, hwritten, hiff, by decide, hlast,
    (findValue?_distinctEntries _ _).trans hlast, fun hdistinct => ?_⟩
  have hsame := hfind _ hdistinct 2 Repeats.entries Repeats.holds_map Repeats.one
  exact absurd hsame (by decide)

end RemoteCall
