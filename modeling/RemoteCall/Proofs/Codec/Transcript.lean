import RemoteCall.Proofs.Codec.Writing
import RemoteCall.Proofs.Value.Instances

/-!
# The transcript of a writer

The bytes of a graph come apart into a transcript: where instances begin and end, where they are
repeated and by which position, and whatever stands between. The transcript follows the graph from
the outside in and from the front to the back; an instance that has begun before is a repeat, and
one that has not begins, and has its parts between its beginning and its end.

In a coherent graph the instances that are still open around a place are larger than what stands
there, so that no repeat means one of them: everything that is repeated has ended.
-/

namespace RemoteCall

/-- A piece of what a writer has written. -/
inductive Mark
  /-- Bytes that belong to no marker of an instance. -/
  | plain (bytes : List UInt8)
  /-- The marker of an instance that is written here, in front of its contents. -/
  | begins (instanceId : Nat)
  /-- The end of the contents of an instance. -/
  | ends (instanceId : Nat)
  /-- The marker of an instance that is at a position among those begun before. -/
  | repeats (instanceId position : Nat)

/-- The pieces that a writer has written. -/
abbrev Transcript := List Mark

/-- The bytes of a piece. -/
def Mark.bytes : Mark → List UInt8
  | plain bytes => bytes
  | begins _ => [0]
  | ends _ => []
  | repeats _ position => Encoder.marker position

/-- The instance that begins. -/
def Mark.begun? : Mark → Option Nat
  | begins n => some n
  | _ => none

/-- The instance that ends. -/
def Mark.ended? : Mark → Option Nat
  | ends n => some n
  | _ => none

namespace Transcript

/-- The bytes that were written. -/
def spell (log : Transcript) : List UInt8 := log.flatMap Mark.bytes

/-- The instances that have begun, in order. -/
def begun (log : Transcript) : List Nat := log.filterMap Mark.begun?

/-- The instances that have ended, in order. -/
def ended (log : Transcript) : List Nat := log.filterMap Mark.ended?

/-- An empty transcript spells nothing. -/
@[simp] theorem spell_nil : spell [] = [] := rfl

/-- Nothing begins in an empty transcript. -/
@[simp] theorem begun_nil : begun [] = [] := rfl

/-- Plain bytes begin no instance. -/
@[simp] theorem begun_plain (bytes : List UInt8) (log : Transcript) :
    begun (.plain bytes :: log) = begun log := rfl

/-- An instance that begins is counted. -/
@[simp] theorem begun_begins (n : Nat) (log : Transcript) :
    begun (.begins n :: log) = n :: begun log := rfl

/-- An instance that ends has begun before. -/
@[simp] theorem begun_ends (n : Nat) (log : Transcript) :
    begun (.ends n :: log) = begun log := rfl

/-- A repeat begins no instance. -/
@[simp] theorem begun_repeats (n position : Nat) (log : Transcript) :
    begun (.repeats n position :: log) = begun log := rfl

/-- Instances begin one transcript after the other. -/
@[simp] theorem begun_append (log log' : Transcript) :
    begun (log ++ log') = begun log ++ begun log' := List.filterMap_append

/-- Nothing ends in an empty transcript. -/
@[simp] theorem ended_nil : ended [] = [] := rfl

/-- Plain bytes end no instance. -/
@[simp] theorem ended_plain (bytes : List UInt8) (log : Transcript) :
    ended (.plain bytes :: log) = ended log := rfl

/-- An instance that begins does not end yet. -/
@[simp] theorem ended_begins (n : Nat) (log : Transcript) :
    ended (.begins n :: log) = ended log := rfl

/-- An instance that ends is counted. -/
@[simp] theorem ended_ends (n : Nat) (log : Transcript) :
    ended (.ends n :: log) = n :: ended log := rfl

/-- A repeat ends no instance. -/
@[simp] theorem ended_repeats (n position : Nat) (log : Transcript) :
    ended (.repeats n position :: log) = ended log := rfl

/-- Instances end one transcript after the other. -/
@[simp] theorem ended_append (log log' : Transcript) :
    ended (log ++ log') = ended log ++ ended log' := List.filterMap_append

/-- An instance that has ended has its end in the transcript. -/
theorem ends_mem {n : Nat} {log : Transcript} (h : n ∈ ended log) : .ends n ∈ log := by
  obtain ⟨mark, hmark, hn⟩ := List.mem_filterMap.mp h
  cases mark with
  | ends m =>
    obtain rfl := Option.some.inj hn
    exact hmark
  | plain bytes => cases hn
  | begins m => cases hn
  | repeats m position => cases hn

end Transcript

namespace Encoder

/-- From one table to a later one these values are written in a row, with this transcript. -/
inductive Logs (s : CodecSettings) : List Nat → List Value → Transcript → List Nat → Prop
  /-- Nothing more is written. -/
  | done (t : List Nat) : Logs s t [] [] t
  /-- Something is written that is no value. -/
  | plain {t t' : List Nat} {vs : List Value} {log : Transcript} (bytes : List UInt8)
      (after : Logs s t vs log t') : Logs s t vs (.plain bytes :: log) t'
  /-- A value that keeps no identity is written in its place. -/
  | inPlace {t t₁ t' : List Nat} {v : Value} {vs : List Value} {log log' : Transcript}
      (untracked : v.instanceId? = none) (parts : Logs s t v.children log t₁)
      (after : Logs s t₁ vs log' t') : Logs s t (v :: vs) (log ++ log') t'
  /-- An instance is written that has begun before. -/
  | again {t t' : List Nat} {v : Value} {n position : Nat} {vs : List Value} {log : Transcript}
      (tracked : v.instanceId? = some n) (found : t.idxOf? n = some position)
      (after : Logs s t vs log t') : Logs s t (v :: vs) (.repeats n position :: log) t'
  /-- An instance is written for the first time, and these bytes are the whole of its body. -/
  | first {t t₁ t' : List Nat} {v : Value} {n room : Nat} {vs : List Value}
      {inner log : Transcript} (tracked : v.instanceId? = some n) (new : n ∉ t)
      (written : body s room v t = .ok (0 :: inner.spell, t₁))
      (parts : Logs s (t ++ [n]) v.children inner t₁) (after : Logs s t₁ vs log t') :
      Logs s t (v :: vs) (.begins n :: (inner ++ .ends n :: log)) t'

section Following

variable {s : CodecSettings} {t t₁ t' : List Nat} {v : Value} {vs ws : List Value}
  {log log' : Transcript} {bytes : List UInt8}

/-- One row after another. -/
theorem Logs.append (h : Logs s t vs log t₁) (h' : Logs s t₁ ws log' t') :
    Logs s t (vs ++ ws) (log ++ log') t' := by
  induction h with
  | done t => exact h'
  | plain bytes after ih => exact .plain bytes (ih h')
  | inPlace untracked parts after _ ih =>
    rw [List.cons_append, List.append_assoc]
    exact .inPlace untracked parts (ih h')
  | again tracked found after ih => exact .again tracked found (ih h')
  | first tracked new written parts after _ ih =>
    rw [List.cons_append, List.cons_append, List.append_assoc, List.cons_append]
    exact .first tracked new written parts (ih h')

/-- The transcript of a row spells these bytes. -/
def Spelled (s : CodecSettings) (t : List Nat) (vs : List Value) (bytes : List UInt8)
    (t' : List Nat) : Prop :=
  ∃ log : Transcript, bytes = log.spell ∧ Logs s t vs log t'

/-- Bytes in front of a row. -/
theorem Spelled.cons (front : List UInt8) (h : Spelled s t vs bytes t') :
    Spelled s t vs (front ++ bytes) t' := by
  obtain ⟨log, rfl, h⟩ := h
  exact ⟨.plain front :: log, rfl, .plain front h⟩

/-- A value that keeps no identity is spelled by its parts. -/
theorem Spelled.inPlace (hv : v.instanceId? = none) (h : Spelled s t v.children bytes t') :
    Spelled s t [v] bytes t' := by
  obtain ⟨log, rfl, h⟩ := h
  exact ⟨log ++ [], by rw [List.append_nil], .inPlace hv h (.done t')⟩

end Following

end Encoder

end RemoteCall
