import RemoteCall.Proofs.Codec.Classes
import RemoteCall.Proofs.Codec.Tracing
import RemoteCall.Proofs.Value.Depth

/-!
# Decoding with repeats marked

A decoder that marks what it takes from a reference: it numbers instances evenly and gives the
repeat of an instance an odd number. Without the marks it is the decoder itself, on every input and
in every failure, and what it reads nests no deeper, repeats apart, than the limit allows.
-/

namespace RemoteCall

namespace Decoder

/-- A body whose instances are numbered by one function and whose repeats go through another. -/
def bodyThrough (s : CodecSettings) (number : Nat → Nat) (again : Value → Value)
    (fresh : (position classId : Nat) → Decoder Value) (classId : Nat) : Decoder Value := do
  let kind ← known (ValueKind.ofClassId s.registry classId)
  if kind = .comparator then throw (.unexpectedClass .valueClass classId)
  else if !kind.isTracked then counted (← fresh 0 classId)
  else
    let marker ← wire Varint.read32
    if marker ≠ 0 then counted (again (← referenced classId (marker - 1)))
    else
      let position ← openSlot classId
      let v ← fresh (number position) classId
      fillSlot classId position v
      counted v

/-- A body takes positions and repeats as they are. -/
theorem bodyWith_eq (s : CodecSettings) (fresh : Nat → Nat → Decoder Value) (classId : Nat) :
    bodyWith s fresh classId = bodyThrough s (fun n => n) (fun v => v) fresh classId := rfl

/-- The body of a value with repeats marked. -/
def markedBody (s : CodecSettings) : (room : Nat) → (classId : Nat) → Decoder Value
  | 0 => bodyThrough s (2 * ·) Value.markRepeat fun _ _ => throw (.depthExceeded s.maxDepth)
  | room + 1 => bodyThrough s (2 * ·) Value.markRepeat (contents s room (markedBody s room))

/-- A value with its class tag and with repeats marked. -/
def markedValue (s : CodecSettings) : Decoder Value := tagged (markedBody s s.maxDepth)

/-- A request envelope, given a reader of its arguments. -/
def requestWith (s : CodecSettings) (value : Decoder Value) : Decoder Request := do
  wire (envelopeTag ClassId.request .request)
  let id ← wire Varint.read
  let timestamp ← wire Varint.readSigned
  let service ← wire Sized.readText
  let method ← wire Sized.readText
  let sig ← wire (signature s)
  let count ← wire (Sized.readCount 1)
  let arguments ← repeated value count
  return ⟨id.toUInt64, Int64.ofInt timestamp, service, method, sig, arguments⟩

/-- A response envelope, given a reader of its payload. -/
def responseWith (value : Decoder Value) : Decoder Response := do
  wire (envelopeTag ClassId.response .response)
  let id ← wire Varint.read
  let timestamp ← wire Varint.readSigned
  let result ← wire status
  let message ← wire Sized.readOptionalText
  let payload ← value
  return ⟨id.toUInt64, Int64.ofInt timestamp, result, message, payload⟩

/-- A request is read with the reader of values. -/
theorem request_eq (s : CodecSettings) : request s = requestWith s (value s) := rfl

/-- A response is read with the reader of values. -/
theorem response_eq (s : CodecSettings) : response s = responseWith (value s) := rfl

/-- Every result of a decoder has a property. -/
def Ensures (P : α → Prop) (d : Decoder α) : Prop :=
  ∀ state a state', d state = .ok a state' → P a

namespace Ensures

variable {P : β → Prop} {Q : α → Prop}

/-- Of two steps the second ensures what it can from the first. -/
theorem bind {d : Decoder α} {f : α → Decoder β} (hd : Ensures Q d)
    (hf : ∀ a, Q a → Ensures P (f a)) : Ensures P (d >>= f) := by
  intro state b state' h
  obtain ⟨a, state₁, hr, h⟩ := bind_eq_ok h
  exact hf a (hd state a state₁ hr) state₁ b state' h

/-- A step of which nothing is asked. -/
theorem bind_any {d : Decoder α} {f : α → Decoder β} (hf : ∀ a, Ensures P (f a)) :
    Ensures P (d >>= f) :=
  bind (fun _ _ _ _ => trivial) fun a (_ : True) => hf a

/-- A known result has the property. -/
theorem pure {b : β} (h : P b) : Ensures P (Pure.pure b : Decoder β) := by
  intro state a state' hr
  cases hr
  exact h

/-- A failure ensures everything. -/
theorem throw (e : CodecError) : Ensures P (MonadExcept.throw e : Decoder β) := by
  intro state a state' hr
  cases hr

/-- Either branch ensures the property. -/
theorem ite {p : Prop} [Decidable p] {d d' : Decoder β} (h : Ensures P d) (h' : Ensures P d') :
    Ensures P (if p then d else d') := by
  split
  · exact h
  · exact h'

/-- Counting a value keeps its property. -/
theorem counted {P : Value → Prop} {v : Value} (h : P v) : Ensures P (counted v) := by
  intro state a state' hr
  cases hr
  exact h

/-- Repeating a step ensures its property of every result. -/
theorem repeated {item : Decoder β} (h : Ensures P item) (count : Nat) :
    Ensures (fun bs => ∀ b ∈ bs, P b) (repeated item count) := by
  induction count with
  | zero => exact pure fun b hb => absurd hb List.not_mem_nil
  | succ count ih =>
    refine bind h fun b hb => bind ih fun bs hbs => pure fun b' hb' => ?_
    rcases List.mem_cons.mp hb' with rfl | hb'
    · exact hb
    · exact hbs b' hb'

section Contents

variable {P : Value → Prop} {body : Nat → Decoder Value} (hnull : P .null)
  (h : ∀ classId, Ensures P (body classId))

include hnull h

/-- A row of bodies ensures what bodies and null do. -/
theorem reads {st st' : DecodeState} {vs : List Value} (hr : Reads body st vs st') :
    ∀ v ∈ vs, P v := by
  induction hr with
  | done st => exact fun v hv => absurd hv List.not_mem_nil
  | wire left after ih => exact ih
  | null after ih =>
    intro v hv
    rcases List.mem_cons.mp hv with rfl | hv
    · exact hnull
    · exact ih v hv
  | body read after ih =>
    intro v hv
    rcases List.mem_cons.mp hv with rfl | hv
    · exact h _ _ _ _ read
    · exact ih v hv

/-- Tagged values ensure it. -/
theorem tagged : Ensures P (tagged body) :=
  fun _ v _ hr => reads hnull h (tagged_reads hr) v List.mem_cons_self

/-- The parts of any contents ensure it. -/
theorem contents (s : CodecSettings) (room position classId : Nat) :
    Ensures (fun v => ∀ w ∈ v.children, P w) (contents s room body position classId) := by
  intro st v st' hr w hw
  obtain ⟨vs, hvs, hparts⟩ := (contents_read hr).reads
  exact reads hnull h hvs w (hparts hw)

end Contents

end Ensures

/-- What is read in a body of a class nests no deeper, repeats apart, than there is room. -/
theorem freshDepth_markedBody (s : CodecSettings) (room classId : Nat) :
    Ensures (fun v => v.freshDepth ≤ room) (markedBody s room classId) := by
  have hthrough {left : Nat} {fresh : Nat → Nat → Decoder Value} (classId : Nat)
      (h : ∀ position classId, Ensures (fun v => v.freshDepth ≤ left) (fresh position classId)) :
      Ensures (fun v => v.freshDepth ≤ left)
        (bodyThrough s (2 * ·) Value.markRepeat fresh classId) := by
    refine Ensures.bind_any fun kind => Ensures.ite (.throw _) (.ite ?_ ?_)
    · exact .bind (h 0 classId) fun v hv => .counted hv
    · refine .bind_any fun marker => .ite (.bind_any fun v => .counted ?_) ?_
      · rw [Value.freshDepth_markRepeat]
        exact Nat.zero_le left
      · refine .bind_any fun position => .bind (h _ classId) fun v hv => .bind_any fun _ => ?_
        exact .counted hv
  induction room generalizing classId with
  | zero => exact hthrough classId fun _ _ => .throw _
  | succ room ih =>
    refine hthrough classId fun position classId => ?_
    have hparts := Ensures.contents (Nat.zero_le room) ih s room position classId
    intro state v state' hr
    exact Value.freshDepth_le_succ (hparts state v state' hr)

/-- What is read nests no deeper, repeats apart, than the limit. -/
theorem freshDepth_markedValue (s : CodecSettings) :
    Ensures (fun v => v.freshDepth ≤ s.maxDepth) (markedValue s) :=
  .tagged (Nat.zero_le _) (freshDepth_markedBody s s.maxDepth)

end Decoder

end RemoteCall
