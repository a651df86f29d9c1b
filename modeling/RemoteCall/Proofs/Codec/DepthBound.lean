import RemoteCall.Proofs.Codec.Unmarking

/-!
# The depth of what is decoded

The nesting limit counts what is written one inside the other. A reference puts an instance inside
without spending any of the limit, so what is decoded is within the limit exactly if every instance
that a reference put inside is, together with the way to it. A list that is referred to from inside
another list shows that the limit can be passed.
-/

namespace RemoteCall

/-- Every repeat in a marked value is within a limit, together with the way to it. -/
def Value.RepeatsWithin (limit : Nat) (v : Value) : Prop :=
  ∀ path w id, v.at? path = some w → w.containerId? = some id → Value.isRepeat id = true →
    path.length + w.depth ≤ limit

/-- A marked value that is the decoded one but for the marks: what is written in it nests within
the limit, and the whole does exactly if its repeats do. -/
structure Value.MarkedWithin (limit : Nat) (v marked : Value) : Prop where
  /-- Without the marks it is the decoded value. -/
  unmark_eq : v = marked.unmark
  /-- What is written one inside the other is within the limit. -/
  fresh : marked.freshDepth ≤ limit
  /-- The value is within the limit exactly if its repeats are. -/
  depth_le_iff : v.depth ≤ limit ↔ marked.RepeatsWithin limit

namespace CodecSettings

/-- The value that bytes spell, with repeats marked. -/
def markedValue (s : CodecSettings) (bytes : List UInt8) : Except CodecError Value :=
  (Decoder.markedValue s).run bytes

/-- The request that bytes spell, with repeats marked. -/
def markedRequest (s : CodecSettings) (bytes : List UInt8) : Except CodecError Request :=
  (Decoder.requestWith s (Decoder.markedValue s)).run bytes

/-- The response that bytes spell, with repeats marked. -/
def markedResponse (s : CodecSettings) (bytes : List UInt8) : Except CodecError Response :=
  (Decoder.responseWith (Decoder.markedValue s)).run bytes

end CodecSettings

namespace Decoder

/-- A request unmarks with its arguments. -/
theorem unmarks_request (s : CodecSettings) :
    Unmarks (fun r : Request => { r with arguments := r.arguments.map Value.unmark })
      (requestWith s (markedValue s)) (request s) := by
  rw [request_eq]
  refine .wire_bind fun _ => .wire_bind fun id => .wire_bind fun timestamp => ?_
  refine .wire_bind fun service => .wire_bind fun method => .wire_bind fun sig => ?_
  refine .wire_bind fun count => .bind (.repeated (unmarks_value s) count) fun arguments => ?_
  exact .pure rfl

/-- A response unmarks with its payload. -/
theorem unmarks_response (s : CodecSettings) :
    Unmarks (fun r : Response => { r with payload := r.payload.unmark })
      (responseWith (markedValue s)) (response s) := by
  rw [response_eq]
  refine .wire_bind fun _ => .wire_bind fun id => .wire_bind fun timestamp => ?_
  refine .wire_bind fun result => .wire_bind fun message => ?_
  exact .bind (unmarks_value s) fun payload => .pure rfl

/-- The arguments of a marked request are written within the limit. -/
theorem freshDepth_markedRequest (s : CodecSettings) :
    Ensures (fun r : Request => ∀ v ∈ r.arguments, v.freshDepth ≤ s.maxDepth)
      (requestWith s (markedValue s)) := by
  refine .bind_any fun _ => .bind_any fun id => .bind_any fun timestamp => ?_
  refine .bind_any fun service => .bind_any fun method => .bind_any fun sig => ?_
  refine .bind_any fun count => ?_
  exact .bind (.repeated (freshDepth_markedValue s) count) fun arguments h => .pure h

/-- The payload of a marked response is written within the limit. -/
theorem freshDepth_markedResponse (s : CodecSettings) :
    Ensures (fun r : Response => r.payload.freshDepth ≤ s.maxDepth)
      (responseWith (markedValue s)) := by
  refine .bind_any fun _ => .bind_any fun id => .bind_any fun timestamp => ?_
  refine .bind_any fun result => .bind_any fun message => ?_
  exact .bind (freshDepth_markedValue s) fun payload h => .pure h

/-- A property that a decoder ensures is one of what it reads from any input. -/
theorem Ensures.of_run {P : α → Prop} {d : Decoder α} (h : Ensures P d) {bytes : List UInt8}
    {a : α} (hr : d.run bytes = .ok a) : P a := by
  obtain ⟨final, hd, -⟩ := run_eq_ok hr
  exact h _ _ _ hd

/-- What is read without marks is read with marks. -/
theorem Unmarks.exists_marked {f : α → β} {d' : Decoder α} {d : Decoder β} (h : Unmarks f d' d)
    {bytes : List UInt8} {b : β} (hr : d.run bytes = .ok b) :
    ∃ a, d'.run bytes = .ok a ∧ b = f a := by
  rw [h.run] at hr
  cases hd : d'.run bytes with
  | error e =>
    rw [hd] at hr
    cases hr
  | ok a =>
    rw [hd] at hr
    cases hr
    exact ⟨a, rfl, rfl⟩

end Decoder

/-- A value written within the limit is marked within it. -/
theorem Value.markedWithin_unmark {limit : Nat} {v : Value} (h : v.freshDepth ≤ limit) :
    Value.MarkedWithin limit v.unmark v :=
  ⟨rfl, h, Value.depth_unmark_le_iff h⟩

/-- What is decoded nests within the limit exactly if the instances do that references put into it.
-/
theorem decode_depth_le_iff (s : CodecSettings) (bytes : List UInt8) :
    (∀ v, s.decodeValue bytes = .ok v →
      ∃ marked, s.markedValue bytes = .ok marked ∧ v.MarkedWithin s.maxDepth marked) ∧
    (∀ r, s.decodeRequest bytes = .ok r →
      ∃ marked, s.markedRequest bytes = .ok { r with arguments := marked } ∧
        List.Forall₂ (Value.MarkedWithin s.maxDepth) r.arguments marked) ∧
    ∀ r, s.decodeResponse bytes = .ok r →
      ∃ marked, s.markedResponse bytes = .ok { r with payload := marked } ∧
        r.payload.MarkedWithin s.maxDepth marked := by
  refine ⟨fun v hv => ?_, fun r hr => ?_, fun r hr => ?_⟩
  · obtain ⟨marked, hm, rfl⟩ := (Decoder.unmarks_value s).exists_marked hv
    have hfresh := (Decoder.freshDepth_markedValue s).of_run hm
    exact ⟨marked, hm, Value.markedWithin_unmark hfresh⟩
  · obtain ⟨marked, hm, rfl⟩ := (Decoder.unmarks_request s).exists_marked hr
    have hfresh := (Decoder.freshDepth_markedRequest s).of_run hm
    refine ⟨marked.arguments, hm, List.forall₂_map_left_iff.mpr (List.forall₂_same.mpr ?_)⟩
    intro v hv
    exact Value.markedWithin_unmark (hfresh v hv)
  · obtain ⟨marked, hm, rfl⟩ := (Decoder.unmarks_response s).exists_marked hr
    have hfresh := (Decoder.freshDepth_markedResponse s).of_run hm
    exact ⟨marked.payload, hm, Value.markedWithin_unmark hfresh⟩

namespace Reference

/-- The standard settings with a nesting limit of two. -/
def settings : CodecSettings := { CodecSettings.standard with maxDepth := 2 }

/-- A list of an empty list and of a list with a reference to that empty list. -/
def bytes : List UInt8 := [23, 0, 1, 2, 23, 0, 1, 0, 0, 1, 1, 23, 2]

end Reference

/-- A reference to a list makes the decoded value deeper than the limit, by a repeat that is deeper
than the limit where it stands. -/
theorem decode_depth_beyond_limit :
    ∃ v marked, Reference.settings.decodeValue Reference.bytes = .ok v ∧
      v.text = "[[], [[]]]" ∧ v.depth = 3 ∧ Reference.settings.maxDepth = 2 ∧
      Reference.settings.markedValue Reference.bytes = .ok marked ∧
      v.MarkedWithin 2 marked ∧ ¬ marked.RepeatsWithin 2 := by
  have hread : (Reference.settings.decodeValue Reference.bytes).toOption.map
      (fun v => (v.text, v.depth)) = some ("[[], [[]]]", 3) := by
    decide +kernel
  cases hv : Reference.settings.decodeValue Reference.bytes with
  | error e =>
    rw [hv] at hread
    cases hread
  | ok v =>
    rw [hv] at hread
    obtain ⟨htext, hdepth⟩ := Prod.mk.inj (Option.some.inj hread)
    obtain ⟨marked, hmarked, hwithin⟩ :=
      (decode_depth_le_iff Reference.settings Reference.bytes).1 v hv
    refine ⟨v, marked, rfl, htext, hdepth, rfl, hmarked, hwithin, fun hrepeats => ?_⟩
    have hle : v.depth ≤ 2 := hwithin.depth_le_iff.mpr hrepeats
    omega

end RemoteCall
