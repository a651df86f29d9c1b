import RemoteCall.Proofs.Codec.RoundTrip

/-!
# Sorted maps across the wire

The constructor of a sorted map looks at its entries from behind, so that the last value of a key is
kept, and the order of keys that tie is then the opposite of the given one. Who reads a sorted map
uses the constructor on the entries of the map, which turns such keys round once more: null, numbers
that are none, containers and all keys of a custom comparator. A sorted map without ties is read
as it was written, any other one has changed, and is itself again after the next reading.
-/

namespace RemoteCall

namespace Value

/-- The entries of a map. -/
def entries : Value → List (Value × Value)
  | map _ _ entries => entries
  | _ => []

variable (id : Nat) (c : Comparator) (es : List (Value × Value))

/-- The entries of a sorted map are arranged by their keys. -/
theorem arranged_ofSortedEntries : Arranged c (·.1) (ofSortedEntries id c es).entries :=
  arrange_arranged c (·.1) es.reverse

/-- A sorted map that is made of the entries of one has their ties turned round. -/
theorem ofSortedEntries_entries : ofSortedEntries id c (ofSortedEntries id c es).entries =
    map id (.sorted c) (turnTies c (·.1) (ofSortedEntries id c es).entries) := by
  rw [ofSortedEntries, (arranged_ofSortedEntries id c es).arrange_reverse_eq]

/-- A sorted map whose parts are the same when built anew is made of its own entries when it is
built anew itself. -/
theorem rebuilt_ofSortedEntries (h : ∀ e ∈ es, e.1.rebuilt = e.1 ∧ e.2.rebuilt = e.2) :
    (ofSortedEntries id c es).rebuilt =
      ofSortedEntries id c (ofSortedEntries id c es).entries := by
  have hparts : ∀ e ∈ (ofSortedEntries id c es).entries,
      e.1.rebuilt = e.1 ∧ e.2.rebuilt = e.2 := fun e he =>
    h e (List.mem_reverse.mp (mem_of_mem_arrange he))
  change map id (.sorted c) (MapForm.rebuild (.sorted c)
    (rebuiltEntries (ofSortedEntries id c es).entries)) = _
  rw [rebuiltEntries_eq_self hparts]
  rfl

end Value

/-- **Building a sorted map anew turns the ties among its keys round.** A sorted map made of the
entries of one is that map with each run of keys that tie turned round. So it is the same map
exactly if each run reads the same from behind, and made of the entries of the new map it is the
first one again. By a custom comparator a sorted map holds the given entries from behind, and anew
it holds them in the given order. A sorted map that can be written is read as it is when built anew
from the inside out, which is made of its own entries unless its parts change. -/
theorem sortedMap_turned (id : Nat) (c : Comparator) (es : List (Value × Value)) :
    let made := Value.ofSortedEntries id c es
    let again := Value.ofSortedEntries id c made.entries
    again.entries = turnTies c (·.1) made.entries ∧
    (again = made ↔ ∀ run ∈ tieRuns c (·.1) made.entries, run.reverse = run) ∧
    Value.ofSortedEntries id c again.entries = made ∧
    (c.isCustom = true → made.entries = es.reverse ∧ again.entries = es) ∧
    ∀ (s : CodecSettings) (bytes : List UInt8), s.CanAnnounce → Graph.Portable [made] →
      s.encodeValue made = .ok bytes → bytes.length < UInt64.size →
      ∃ w, s.decodeValue bytes = .ok w ∧ Graph.Alike [made.rebuilt] [w] ∧
        ((∀ e ∈ es, e.1.rebuilt = e.1 ∧ e.2.rebuilt = e.2) → Graph.Alike [again] [w]) := by
  intro made again
  have hmade : Arranged c (·.1) made.entries := Value.arranged_ofSortedEntries id c es
  have hagain : again = .map id (.sorted c) (turnTies c (·.1) made.entries) :=
    Value.ofSortedEntries_entries id c es
  refine ⟨by rw [hagain]; rfl, ?_, ?_, fun hc => ?_, fun s bytes hs hg h hlen => ?_⟩
  · have hiff : again = made ↔ turnTies c (·.1) made.entries = made.entries := by
      rw [hagain]
      exact ⟨congrArg Value.entries, fun he => by rw [he]; rfl⟩
    rw [hiff, turnTies_eq_self_iff]
  · have hback : arrange c (·.1) (turnTies c (·.1) made.entries).reverse = made.entries := by
      rw [hmade.turnTies.arrange_reverse_eq, (Sorted.inRuns hmade.sorted).turnTies_turnTies]
    rw [hagain, Value.entries, Value.ofSortedEntries, hback]
    rfl
  · have hentries : made.entries = es.reverse := if_pos hc
    refine ⟨hentries, ?_⟩
    change arrange c (·.1) made.entries.reverse = es
    rw [hentries, List.reverse_reverse, arrange, if_pos hc]
  · obtain ⟨w, hw, halike⟩ := hs.decodeValue_rebuilt hg h hlen
    refine ⟨w, hw, halike, fun hparts => ?_⟩
    rwa [Value.rebuilt_ofSortedEntries id c es hparts] at halike

namespace Turned

/-- A list of one number. -/
def one : Value := .ofList 1 [.scalar (.int 1)]

/-- A list of another number. -/
def two : Value := .ofList 2 [.scalar (.int 2)]

/-- Entries whose keys are lists, which tie. -/
def given : List (Value × Value) := [(one, .scalar (.bool false)), (two, .scalar (.bool true))]

/-- A sorted map that is made of the entries. -/
def made : Value := .map 0 (.sorted .natural) given.reverse

/-- The keys tie, so the entries are arranged as they are given. -/
theorem arranged : Arranged .natural (·.1) given := ⟨by decide, by decide⟩

/-- The constructor looks at the entries from behind. -/
theorem ofSortedEntries_given : Value.ofSortedEntries 0 .natural given = made := by
  have harranged : Arranged .natural (·.1) given.reverse := ⟨by decide, by decide⟩
  rw [Value.ofSortedEntries, harranged.arrange_eq, made]

/-- All values in the map. -/
def all : List Value := [made, one, two, .scalar (.int 1), .scalar (.int 2), .scalar (.bool false),
  .scalar (.bool true)]

/-- The map can be sent. -/
theorem portable : Graph.Portable [made] := by
  have hall : Graph.listedBy [made] all = true := by decide
  refine Graph.portable_of_listedBy hall (by decide) ?_ (by decide)
  simp [all, made, one, two, Value.ofList]

/-- The bytes of the map: the entry of the second list comes first. -/
def bytes : List UInt8 :=
  [24, 0, 2, 1, 2, 23, 2, 0, 1, 1, 5, 4, 1, 0, 1, 1, 5, 2, 0]

end Turned

/-- A sorted map by the natural order with two lists as keys is written from behind and read as it
was given, so it is not read as it was written. -/
theorem sortedMap_turned_lists :
    CodecSettings.standard.CanAnnounce ∧ Graph.Portable [Turned.made] ∧
    Value.ofSortedEntries 0 .natural Turned.given = Turned.made ∧
    CodecSettings.standard.encodeValue Turned.made = .ok Turned.bytes ∧
    ∃ w, CodecSettings.standard.decodeValue Turned.bytes = .ok w ∧
      Graph.Alike [.map 0 (.sorted .natural) Turned.given] [w] ∧
      ¬ Graph.Alike [Turned.made] [w] := by
  have hs : CodecSettings.standard.CanAnnounce := ⟨⟨[], rfl⟩, nofun⟩
  have hbytes : CodecSettings.standard.encodeValue Turned.made = .ok Turned.bytes := by
    decide +kernel
  have hagain : Value.ofSortedEntries 0 .natural Turned.made.entries =
      .map 0 (.sorted .natural) Turned.given := by
    rw [Value.ofSortedEntries, Turned.made, Value.entries, List.reverse_reverse,
      Turned.arranged.arrange_eq]
  have hparts : ∀ e ∈ Turned.given, e.1.rebuilt = e.1 ∧ e.2.rebuilt = e.2 := by
    intro e he
    rcases List.mem_cons.mp he with rfl | he
    · exact ⟨rfl, rfl⟩
    · rw [List.mem_singleton.mp he]
      exact ⟨rfl, rfl⟩
  have hturned := (sortedMap_turned 0 .natural Turned.given).2.2.2.2
  rw [Turned.ofSortedEntries_given, hagain] at hturned
  obtain ⟨w, hw, -, halike⟩ :=
    hturned CodecSettings.standard Turned.bytes hs Turned.portable hbytes (by decide)
  have hread := halike hparts
  refine ⟨hs, Turned.portable, Turned.ofSortedEntries_given, hbytes, w, hw, hread, fun hsame => ?_⟩
  have hcontents := hsame.contents.trans hread.contents.symm
  exact absurd hcontents (by decide)

end RemoteCall
