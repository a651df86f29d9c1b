import Mathlib.Data.Nat.Digits.Defs
import RemoteCall.Proofs.Wire.Words

/-!
# Groups of seven bits

A number is spelled by bytes that carry seven bits each, least significant group first, and of
which only the last has its top bit clear. A reader of variable-length numbers accepts exactly these
spellings, up to ten bytes and below 2^64, and takes no byte more (`Varint.readGroups_eq_ok_iff`).
So what it gives is never cut: the narrower readers refuse what does not fit them. Everything else
it refuses for one of two reasons, an end of the input inside the number or a tenth byte above 1.
-/

namespace RemoteCall.Varint

/-- The number that bytes spell in their low seven bits, least significant first. -/
def numberOf (bytes : List UInt8) : Nat := Nat.ofDigits 128 (bytes.map fun b => b.toNat % 128)

/-- Of the bytes the last one, and no other, has its top bit clear. -/
def IsEnded (bytes : List UInt8) : Prop :=
  ∃ front last, bytes = front ++ [last] ∧ (∀ b ∈ front, 128 ≤ b.toNat) ∧ last.toNat < 128

/-- At most so many bytes spell a number that is below a bound. -/
structure Spells (most bound : Nat) (bytes : List UInt8) (n : Nat) : Prop where
  length_le : bytes.length ≤ most
  ended : IsEnded bytes
  number_eq : numberOf bytes = n
  fits : n < bound

/-- The first byte counts with its low seven bits, and the others for 128 times as much. -/
theorem numberOf_cons (b : UInt8) (rest : List UInt8) :
    numberOf (b :: rest) = b.toNat % 128 + 128 * numberOf rest :=
  Nat.ofDigits_cons ..

/-- No byte is no end. -/
theorem not_isEnded_nil : ¬ IsEnded [] := by
  rintro ⟨front, last, hparts, -⟩
  exact List.append_ne_nil_of_right_ne_nil front (List.cons_ne_nil last []) hparts.symm

/-- The first byte is the last one, or the others end behind it. -/
theorem isEnded_cons (b : UInt8) (rest : List UInt8) :
    IsEnded (b :: rest) ↔ (b.toNat < 128 ∧ rest = []) ∨ (128 ≤ b.toNat ∧ IsEnded rest) := by
  constructor
  · rintro ⟨front, last, hparts, hfront, hlast⟩
    cases front with
    | nil =>
      obtain ⟨rfl, rfl⟩ := List.cons.inj hparts
      exact .inl ⟨hlast, rfl⟩
    | cons c front =>
      obtain ⟨rfl, rfl⟩ := List.cons.inj hparts
      obtain ⟨hb, hrest⟩ := List.forall_mem_cons.mp hfront
      exact .inr ⟨hb, front, last, rfl, hrest, hlast⟩
  · rintro (⟨hb, rfl⟩ | ⟨hb, front, last, rfl, hfront, hlast⟩)
    · exact ⟨[], b, rfl, List.forall_mem_nil _, hb⟩
    · exact ⟨b :: front, last, rfl, List.forall_mem_cons.mpr ⟨hb, hfront⟩, hlast⟩

/-- A number of one byte. -/
theorem spells_cons_of_lt {most bound n : Nat} {b : UInt8} {rest : List UInt8}
    (hb : b.toNat < 128) :
    Spells (most + 1) bound (b :: rest) n ↔ rest = [] ∧ n = b.toNat ∧ n < bound := by
  have hvalue : numberOf [b] = b.toNat := by
    rw [numberOf_cons]
    exact Nat.mod_eq_of_lt hb
  constructor
  · rintro ⟨-, hended, hnumber, hfits⟩
    rcases (isEnded_cons b rest).mp hended with ⟨-, rfl⟩ | ⟨hmore, -⟩
    · exact ⟨rfl, hnumber.symm.trans hvalue, hfits⟩
    · omega
  · rintro ⟨rfl, rfl, hfits⟩
    exact ⟨Nat.le_add_left 1 most, (isEnded_cons b []).mpr (.inl ⟨hb, rfl⟩), hvalue, hfits⟩

/-- A number of more bytes: the first carries its low seven bits. -/
theorem spells_cons_of_le {most groups n : Nat} {b : UInt8} {rest : List UInt8}
    (hb : 128 ≤ b.toNat) :
    Spells (most + 1) (2 * 128 ^ (groups + 1)) (b :: rest) n ↔
      ∃ high, Spells most (2 * 128 ^ groups) rest high ∧ n = b.toNat % 128 + 128 * high := by
  have hpow : 128 ^ (groups + 1) = 128 ^ groups * 128 := Nat.pow_succ 128 groups
  constructor
  · rintro ⟨hlength, hended, hnumber, hfits⟩
    rcases (isEnded_cons b rest).mp hended with ⟨hlast, -⟩ | ⟨-, hrest⟩
    · omega
    · rw [numberOf_cons] at hnumber
      refine ⟨numberOf rest, ⟨Nat.le_of_succ_le_succ hlength, hrest, rfl, ?_⟩, hnumber.symm⟩
      omega
  · rintro ⟨high, ⟨hlength, hrest, rfl, hfits⟩, rfl⟩
    refine ⟨Nat.succ_le_succ hlength, (isEnded_cons b rest).mpr (.inr ⟨hb, hrest⟩),
      numberOf_cons b rest, ?_⟩
    omega

/-- One byte does not spell a number if its top bit is set. -/
theorem not_spells_one {bound n : Nat} {b : UInt8} {rest : List UInt8} (hb : 128 ≤ b.toNat) :
    ¬ Spells 1 bound (b :: rest) n := by
  rintro ⟨hlength, hended, -, -⟩
  obtain rfl : rest = [] := List.length_eq_zero_iff.mp (by rw [List.length_cons] at hlength; omega)
  rcases (isEnded_cons b []).mp hended with ⟨hlast, -⟩ | ⟨-, hnone⟩
  · omega
  · exact not_isEnded_nil hnone

/-- Nothing is spelled by the front of no input. -/
theorem not_exists_spells_nil {most bound n : Nat} {rest : List UInt8} :
    ¬ ∃ bytes, Spells most bound bytes n ∧ [] = bytes ++ rest := by
  rintro ⟨bytes, hbytes, hparts⟩
  obtain ⟨rfl, -⟩ := List.append_eq_nil_iff.mp hparts.symm
  exact not_isEnded_nil hbytes.ended

/-- No spelling is empty, so it has the first byte of the input. -/
theorem exists_spells_append_iff {most bound n : Nat} {b : UInt8} {tail rest : List UInt8} :
    (∃ bytes, Spells most bound bytes n ∧ b :: tail = bytes ++ rest) ↔
      ∃ others, Spells most bound (b :: others) n ∧ tail = others ++ rest := by
  constructor
  · rintro ⟨bytes, hbytes, hparts⟩
    cases bytes with
    | nil => exact absurd hbytes.ended not_isEnded_nil
    | cons c others =>
      obtain ⟨rfl, rfl⟩ := List.cons.inj hparts
      exact ⟨others, hbytes, rfl⟩
  · rintro ⟨others, hbytes, rfl⟩
    exact ⟨b :: others, hbytes, rfl⟩

/-- A byte with its top bit clear is a number by itself, unless it is a tenth byte above 1. -/
theorem readGroups_of_lt {groups : Nat} {b : UInt8} (hb : b.toNat < 128) (rest : List UInt8) :
    readGroups (groups + 1) (b :: rest) =
      if b.toNat < 2 * 128 ^ groups then .ok (b.toNat, rest) else .error .malformedVarint := by
  rw [readGroups_cons, if_pos hb]
  cases groups with
  | zero =>
    by_cases hone : 1 < b.toNat
    · rw [if_pos ⟨rfl, hone⟩, if_neg (by rw [Nat.pow_zero]; omega)]
    · rw [if_neg (fun h => hone h.2), if_pos (by rw [Nat.pow_zero]; omega)]
  | succ groups =>
    have hpos : 0 < 128 ^ groups := Nat.pow_pos (by decide)
    rw [if_neg (fun h => Nat.succ_ne_zero groups h.1), if_pos (by rw [Nat.pow_succ]; omega)]

/-- A byte with its top bit set is the low part of a number, unless it is a tenth byte. -/
theorem readGroups_of_le {groups : Nat} {b : UInt8} (hb : 128 ≤ b.toNat) (rest : List UInt8) :
    readGroups (groups + 1) (b :: rest) =
      if groups = 0 then .error .malformedVarint
      else (readGroups groups rest).map fun high => (b.toNat % 128 + 128 * high.1, high.2) := by
  rw [readGroups_cons]
  by_cases hlast : groups = 0
  · rw [if_pos ⟨hlast, by omega⟩, if_pos hlast]
  · rw [if_neg (fun h => hlast h.1), if_neg (Nat.not_lt.mpr hb), if_neg hlast]

/-- A number that is read in one byte is spelled by it. -/
theorem readGroups_eq_ok_iff_of_lt {groups n : Nat} {b : UInt8} {tail rest : List UInt8}
    (hb : b.toNat < 128) :
    readGroups (groups + 1) (b :: tail) = .ok (n, rest) ↔
      ∃ others, Spells (groups + 1) (2 * 128 ^ groups) (b :: others) n ∧ tail = others ++ rest := by
  rw [readGroups_of_lt hb]
  simp only [spells_cons_of_lt hb]
  split
  case isTrue hfits =>
    constructor
    · intro h
      cases h
      exact ⟨[], ⟨rfl, rfl, hfits⟩, rfl⟩
    · rintro ⟨_, ⟨rfl, rfl, -⟩, rfl⟩
      rfl
  case isFalse hfits =>
    refine iff_of_false (fun h => by cases h) ?_
    rintro ⟨_, ⟨-, rfl, hless⟩, -⟩
    exact hfits hless

/-- So many groups and one more read exactly the spellings of that length below twice the power of
128, from the front of the input. -/
theorem readGroups_eq_ok_iff {groups n : Nat} {input rest : List UInt8} :
    readGroups (groups + 1) input = .ok (n, rest) ↔
      ∃ bytes, Spells (groups + 1) (2 * 128 ^ groups) bytes n ∧ input = bytes ++ rest := by
  induction groups generalizing input n with
  | zero =>
    cases input with
    | nil => exact iff_of_false (fun h => by cases h) not_exists_spells_nil
    | cons b tail =>
      rw [exists_spells_append_iff]
      by_cases hb : b.toNat < 128
      · exact readGroups_eq_ok_iff_of_lt hb
      · have hle := Nat.not_lt.mp hb
        rw [readGroups_of_le hle, if_pos rfl]
        refine iff_of_false (fun h => by cases h) ?_
        rintro ⟨others, hspells, -⟩
        exact not_spells_one hle hspells
  | succ groups ih =>
    cases input with
    | nil => exact iff_of_false (fun h => by cases h) not_exists_spells_nil
    | cons b tail =>
      rw [exists_spells_append_iff]
      by_cases hb : b.toNat < 128
      · exact readGroups_eq_ok_iff_of_lt hb
      · -- the bytes behind spell the high part, in one group less
        have hle := Nat.not_lt.mp hb
        rw [readGroups_of_le hle, if_neg (Nat.succ_ne_zero groups)]
        simp only [spells_cons_of_le hle]
        constructor
        · intro h
          cases hhigh : readGroups (groups + 1) tail with
          | error e =>
            rw [hhigh] at h
            cases h
          | ok high =>
            rw [hhigh] at h
            cases h
            obtain ⟨others, hspells, htail⟩ := ih.mp hhigh
            exact ⟨others, ⟨high.1, hspells, rfl⟩, htail⟩
        · rintro ⟨others, ⟨high, hspells, rfl⟩, htail⟩
          rw [ih.mpr ⟨others, hspells, htail⟩]
          rfl

/-- A refusal has one of two causes: the input ends inside a number, or the last byte that a number
can have carries more than its lowest bit. All bytes before have their top bits set. -/
theorem readGroups_eq_error {groups : Nat} {input : List UInt8} {e : CodecError}
    (h : readGroups (groups + 1) input = .error e) :
    (e = .unexpectedEnd 1 ∧ input.length ≤ groups ∧ ∀ b ∈ input, 128 ≤ b.toNat) ∨
      (e = .malformedVarint ∧ ∃ front b rest, input = front ++ b :: rest ∧
        front.length = groups ∧ (∀ c ∈ front, 128 ≤ c.toNat) ∧ 1 < b.toNat) := by
  induction groups generalizing input with
  | zero =>
    cases input with
    | nil =>
      cases h
      exact .inl ⟨rfl, Nat.le_refl 0, List.forall_mem_nil _⟩
    | cons b rest =>
      rw [readGroups_cons] at h
      split at h
      case isTrue hone =>
        cases h
        exact .inr ⟨rfl, [], b, rest, rfl, rfl, List.forall_mem_nil _, hone.2⟩
      case isFalse hone =>
        -- a last byte of at most 1 is read
        rw [if_pos (by omega)] at h
        cases h
  | succ groups ih =>
    cases input with
    | nil =>
      cases h
      exact .inl ⟨rfl, Nat.zero_le _, List.forall_mem_nil _⟩
    | cons b rest =>
      rw [readGroups_cons, if_neg (fun hlast => Nat.succ_ne_zero groups hlast.1)] at h
      split at h
      case isTrue => cases h
      case isFalse hb =>
        have hle := Nat.not_lt.mp hb
        cases hrest : readGroups (groups + 1) rest with
        | ok high =>
          rw [hrest] at h
          cases h
        | error cause =>
          rw [hrest] at h
          cases h
          rcases ih hrest with
            ⟨rfl, hlength, hall⟩ | ⟨rfl, front, c, tail, rfl, hlength, hall, hone⟩
          · exact .inl ⟨rfl, Nat.succ_le_succ hlength, List.forall_mem_cons.mpr ⟨hle, hall⟩⟩
          · exact .inr ⟨rfl, b :: front, c, tail, rfl, congrArg (· + 1) hlength,
              List.forall_mem_cons.mpr ⟨hle, hall⟩, hone⟩

/-- A number of 64 bits is read exactly from its spellings in at most ten bytes. -/
theorem read_eq_ok_iff {n : Nat} {input rest : List UInt8} :
    read input = .ok (n, rest) ↔
      ∃ bytes, Spells 10 UInt64.size bytes n ∧ input = bytes ++ rest :=
  @readGroups_eq_ok_iff 9 n input rest

/-- An input of which no number is read ends inside of one, or its tenth byte is above 1. -/
theorem read_eq_error {input : List UInt8} {e : CodecError} (h : read input = .error e) :
    (e = .unexpectedEnd 1 ∧ input.length ≤ 9 ∧ ∀ b ∈ input, 128 ≤ b.toNat) ∨
      (e = .malformedVarint ∧ ∃ front b rest, input = front ++ b :: rest ∧
        front.length = 9 ∧ (∀ c ∈ front, 128 ≤ c.toNat) ∧ 1 < b.toNat) :=
  readGroups_eq_error h

/-- A number of 32 bits is one of 64 bits that fits. -/
theorem read32_eq (input : List UInt8) :
    read32 input = (read input).bind fun found =>
      if found.1 < UInt32.size then .ok found else .error .malformedVarint := by
  change Except.bind (read input) _ = _
  cases read input with
  | error e => rfl
  | ok found =>
    change (if found.1 < UInt32.size then _ else _ : Reader Nat) found.2 =
      if found.1 < UInt32.size then _ else _
    split <;> rfl

/-- A signed number is read as the one onto which it is folded. -/
theorem readSigned_eq (input : List UInt8) :
    readSigned input = (read input).map fun found => (unfold found.1, found.2) := by
  change Except.map _ (read input) = _
  cases read input <;> rfl

/-- A signed number of 32 bits is one of 64 bits that fits. -/
theorem readSigned32_eq (input : List UInt8) :
    readSigned32 input = (readSigned input).bind fun found =>
      if -2147483648 ≤ found.1 ∧ found.1 < 2147483648 then .ok found
      else .error .malformedVarint := by
  change Except.bind (readSigned input) _ = _
  cases readSigned input with
  | error e => rfl
  | ok found =>
    change (if -2147483648 ≤ found.1 ∧ found.1 < 2147483648 then _ else _ : Reader Int) found.2 =
      if -2147483648 ≤ found.1 ∧ found.1 < 2147483648 then _ else _
    split <;> rfl

/-- **Variable-length numbers lose nothing.** Every word of 64 bits and every signed one is taken
back from its spelling, and all that stands behind the spelling is left. On any input, a number is
read exactly if the input begins with at most ten bytes of which the last, and no other, has its top
bit clear, and whose low seven bits, least significant first, denote a number below 2^64; it is this
number then, and exactly these bytes are taken. A signed number is the one that is folded onto the
number read, and the readers of 32 bits fail on a number that does not fit, which is not cut. All of
this is what words of 64 bits do by shifts and masks. -/
theorem lossless (v : UInt64) (w : Int64) (n : Nat) (input rest : List UInt8) :
    read (encode v.toNat ++ rest) = .ok (v.toNat, rest) ∧
    readSigned (encodeSigned w.toInt ++ rest) = .ok (w.toInt, rest) ∧
    (read input = .ok (n, rest) ↔
      ∃ bytes, Spells 10 UInt64.size bytes n ∧ input = bytes ++ rest) ∧
    (readSigned input = (read input).map fun found => (unfold found.1, found.2)) ∧
    (read32 input = (read input).bind fun found =>
      if found.1 < UInt32.size then .ok found else .error .malformedVarint) ∧
    (readSigned32 input = (readSigned input).bind fun found =>
      if -2147483648 ≤ found.1 ∧ found.1 < 2147483648 then .ok found
      else .error .malformedVarint) ∧
    encodeWord v = encode v.toNat ∧
    (readWord input = (read input).map fun found => (UInt64.ofNat found.1, found.2)) ∧
    (foldWord w).toNat = fold w.toInt ∧
    (unfoldWord v).toInt = unfold v.toNat := by
  refine ⟨read_takes v.toNat_lt rest, readSigned_takes w.le_toInt w.toInt_lt rest, read_eq_ok_iff,
    readSigned_eq input, read32_eq input, readSigned32_eq input, ?_⟩
  exact ⟨encodeWord_eq v, readWord_eq input, toNat_foldWord w, toInt_unfoldWord v⟩

/-- A long spelling of a small number is accepted, and a number of more than 64 bits is not. -/
example : read [0x81, 0x80, 0x00, 7] = .ok (1, [7]) ∧
    read [0x80, 0x80, 0x80, 0x80, 0x80, 0x80, 0x80, 0x80, 0x80, 0x02] = .error .malformedVarint :=
  ⟨rfl, rfl⟩

end RemoteCall.Varint
