import Mathlib.Algebra.Group.Int.Defs
import Mathlib.Algebra.Group.Nat.Defs
import RemoteCall.Proofs.Wire.Reading

/-!
# Numbers as words

Variable-length numbers are words of 64 bits, and words can be taken apart and put together by
shifts and masks alone: `encodeWord` cuts seven bits off the low end as long as more are left,
`readWord` lays groups on top of each other, the tenth at the topmost bit, and `foldWord` moves the
sign of a word into its lowest bit. Here these are the same as the arithmetic of `Varint`: no shift
loses a bit of a number that is accepted.
-/

namespace RemoteCall.Varint

/-! ## The sign -/

/-- The fold of a signed word: one bit up, and all bits turned if the word is negative. -/
def foldWord (w : Int64) : UInt64 := ((w <<< 1) ^^^ (w >>> 63)).toUInt64

/-- The signed word that is folded to this one. -/
def unfoldWord (v : UInt64) : Int64 := (v >>> 1).toInt64 ^^^ -(v &&& 1).toInt64

/-- The number that a signed word stands for, by its bits. -/
theorem toInt_eq_ite (w : Int64) :
    w.toInt = if 2 * w.toUInt64.toNat < 2 ^ 64 then (w.toUInt64.toNat : Int)
      else w.toUInt64.toNat - 2 ^ 64 :=
  BitVec.toInt_eq_toNat_cond w.toBitVec

/-- Shifted down by 63, the sign fills all bits. -/
theorem shiftRight_eq_sign (w : Int64) : w >>> 63 = if w.toInt < 0 then -1 else 0 := by
  have hlow := w.le_toInt
  have hhigh := w.toInt_lt
  have hamount : ((63 : Int64).toBitVec.smod 64).toNat = 63 := by decide
  have hshifted : (w >>> 63).toInt = w.toInt / 2 ^ 63 := by
    change (w >>> 63).toBitVec.toInt = w.toBitVec.toInt / 2 ^ 63
    rw [Int64.toBitVec_shiftRight, BitVec.sshiftRight_eq', hamount, BitVec.toInt_sshiftRight,
      Int.shiftRight_eq_div_pow]
    rfl
  have hone : (-1 : Int64).toInt = -1 := by decide
  have hzero : (0 : Int64).toInt = 0 := by decide
  apply Int64.toInt_inj.mp
  rw [hshifted]
  split
  · omega
  · omega

/-- Shifted up by one, a word loses its topmost bit. -/
theorem toNat_shiftLeft_one (w : Int64) :
    (w <<< 1).toUInt64.toNat = 2 * w.toUInt64.toNat % 2 ^ 64 := by
  have hamount : (1 : Int64).toBitVec.smod 64 = 1#64 := by decide
  change (w <<< 1).toBitVec.toNat = 2 * w.toBitVec.toNat % 2 ^ 64
  rw [Int64.toBitVec_shiftLeft, hamount, BitVec.shiftLeft_eq', BitVec.toNat_shiftLeft,
    Nat.shiftLeft_eq, Nat.mul_comm]
  rfl

/-- Words are folded as their numbers are. -/
theorem toNat_foldWord (w : Int64) : (foldWord w).toNat = fold w.toInt := by
  have hvalue := toInt_eq_ite w
  have hword := w.toUInt64.toNat_lt
  rw [foldWord, shiftRight_eq_sign, fold]
  by_cases hneg : w.toInt < 0
  · -- all bits are turned, which takes the doubled word from the greatest one
    have hsize : UInt64.size = 2 ^ 64 := rfl
    rw [if_pos hneg, if_neg (Int.not_le.mpr hneg), Int64.xor_neg_one]
    change (~~~(w <<< 1).toUInt64).toNat = 2 * (-w.toInt).toNat - 1
    rw [UInt64.toNat_not, toNat_shiftLeft_one]
    split at hvalue
    · omega
    · omega
  · rw [if_neg hneg, if_pos (Int.not_lt.mp hneg), Int64.xor_zero, toNat_shiftLeft_one]
    split at hvalue
    · omega
    · omega

/-- Words are unfolded as their numbers are. -/
theorem toInt_unfoldWord (v : UInt64) : (unfoldWord v).toInt = unfold v.toNat := by
  have hword := v.toNat_lt
  have hhalf : (v >>> 1).toNat = v.toNat / 2 := by
    rw [UInt64.toNat_shiftRight]
    exact Nat.shiftRight_eq_div_pow v.toNat 1
  have hlow : (v &&& 1).toNat = v.toNat % 2 := by
    rw [UInt64.toNat_and]
    exact Nat.and_two_pow_sub_one_eq_mod v.toNat 1
  have hsigned : (v >>> 1).toInt64.toInt = (v.toNat / 2 : Nat) := by
    have hvalue := toInt_eq_ite (v >>> 1).toInt64
    change _ = if 2 * (v >>> 1).toNat < 2 ^ 64 then ((v >>> 1).toNat : Int) else _ at hvalue
    rw [hhalf, if_pos (by omega)] at hvalue
    exact hvalue
  rw [unfoldWord, unfold]
  by_cases heven : v.toNat % 2 = 0
  · have hzero : v &&& 1 = 0 := UInt64.toNat_inj.mp (hlow.trans heven)
    have hsign : -(0 : UInt64).toInt64 = 0 := by decide
    rw [if_pos heven, hzero, hsign, Int64.xor_zero, hsigned]
  · have hodd : v.toNat % 2 = 1 := by omega
    have hone : v &&& 1 = 1 := UInt64.toNat_inj.mp (hlow.trans hodd)
    have hsign : -(1 : UInt64).toInt64 = -1 := by decide
    rw [if_neg heven, hone, hsign, Int64.xor_neg_one, Int64.toInt_not, hsigned,
      Int.bmod_eq_of_le (by omega) (by omega)]

/-! ## Groups -/

/-- The groups of a word, from the low end: all but the last have their top bit set. -/
def encodeWord (v : UInt64) : List UInt8 :=
  if v < 128 then [v.toUInt8] else (v.toUInt8 ||| 128) :: encodeWord (v >>> 7)
termination_by v.toNat
decreasing_by
  rename_i hlarge
  have hmany : 128 ≤ v.toNat := Nat.not_lt.mp hlarge
  have hless : v.toNat / 128 < v.toNat := by omega
  rw [UInt64.toNat_shiftRight]
  exact Nat.lt_of_le_of_lt (Nat.le_of_eq (Nat.shiftRight_eq_div_pow v.toNat 7)) hless

/-- Reads so many further groups into a word, whose bits below the first of them are known. -/
def readWordFrom (v : UInt64) : (groups : Nat) → Reader UInt64
  | 0 => throw .malformedVarint
  | groups + 1 => do
    let b ← Reader.byte
    if groups = 0 ∧ 1 < b then throw .malformedVarint
    let v := v ||| ((b &&& 127).toUInt64 <<< (63 - 7 * groups).toUInt64)
    if b &&& 128 = 0 then return v
    readWordFrom v groups

/-- Reads a word, at most ten groups of it. -/
def readWord : Reader UInt64 := readWordFrom 0 10

/-- The low seven bits of a byte. -/
theorem toNat_and_low (b : UInt8) : (b &&& 127).toNat = b.toNat % 128 := by
  rw [UInt8.toNat_and]
  exact Nat.and_two_pow_sub_one_eq_mod b.toNat 7

/-- A byte with its top bit set. -/
theorem toNat_or_top (b : UInt8) : (b ||| 128).toNat = b.toNat % 128 + 128 := by
  have hall : ∀ i : Fin 256, i.val ||| 128 = i.val % 128 + 128 := by decide +kernel
  rw [UInt8.toNat_or]
  exact hall ⟨b.toNat, b.toNat_lt⟩

/-- Whether the top bit of a byte is clear. -/
theorem and_top_eq_zero_iff (b : UInt8) : b &&& 128 = 0 ↔ b.toNat < 128 := by
  have hall : ∀ i : Fin 256, i.val &&& 128 = 0 ↔ i.val < 128 := by decide +kernel
  rw [← UInt8.toNat_inj, UInt8.toNat_and]
  exact hall ⟨b.toNat, b.toNat_lt⟩

/-- The groups of a word are those of its number. -/
theorem encodeWord_eq (v : UInt64) : encodeWord v = encode v.toNat := by
  rw [encodeWord, encode]
  by_cases hsmall : v.toNat < 128
  · have hbyte : v.toUInt8 = v.toNat.toUInt8 := rfl
    rw [if_pos (show v < 128 from hsmall), if_pos hsmall, hbyte]
  · have hbyte : v.toUInt8 ||| 128 = (v.toNat % 128 + 128).toUInt8 := by
      apply UInt8.toNat_inj.mp
      rw [toNat_or_top, UInt64.toNat_toUInt8, Nat.toUInt8_eq, UInt8.toNat_ofNat']
      omega
    have hrest : (v >>> 7).toNat = v.toNat / 128 := by
      rw [UInt64.toNat_shiftRight]
      exact Nat.shiftRight_eq_div_pow v.toNat 7
    rw [if_neg (show ¬ v < 128 from hsmall), if_neg hsmall, hbyte, encodeWord_eq (v >>> 7), hrest]
termination_by v.toNat
decreasing_by
  omega

/-- One group is laid into the word, or it is a tenth that does not fit. -/
theorem readWordFrom_cons (v : UInt64) (groups : Nat) (b : UInt8) (rest : List UInt8) :
    readWordFrom v (groups + 1) (b :: rest) =
      if groups = 0 ∧ 1 < b then .error .malformedVarint
      else if b &&& 128 = 0 then
        .ok (v ||| ((b &&& 127).toUInt64 <<< (63 - 7 * groups).toUInt64), rest)
      else
        readWordFrom (v ||| ((b &&& 127).toUInt64 <<< (63 - 7 * groups).toUInt64)) groups rest := by
  change (if groups = 0 ∧ 1 < b then _ else _ : Reader UInt64) rest = _
  by_cases hlast : groups = 0 ∧ 1 < b
  · rw [if_pos hlast, if_pos hlast]
    rfl
  · rw [if_neg hlast, if_neg hlast]
    split <;> rfl

/-- A group that fits is laid above the bits that are known: nothing is lost, nothing overlaps. -/
theorem toNat_or_group {v : UInt64} {b : UInt8} {shift : Nat} (hshift : shift ≤ 63)
    (hv : v.toNat < 2 ^ shift) (hfits : b.toNat % 128 * 2 ^ shift < 2 ^ 64) :
    (v ||| ((b &&& 127).toUInt64 <<< shift.toUInt64)).toNat =
      v.toNat + 2 ^ shift * (b.toNat % 128) := by
  have hamount : shift.toUInt64.toNat % 64 = shift := by
    rw [Nat.toUInt64_eq, UInt64.toNat_ofNat']
    omega
  rw [UInt64.toNat_or, UInt64.toNat_shiftLeft, hamount, UInt8.toNat_toUInt64, toNat_and_low,
    Nat.shiftLeft_eq, Nat.mod_eq_of_lt hfits, Nat.or_comm, Nat.mul_comm,
    ← Nat.two_pow_add_eq_or_of_lt hv, Nat.add_comm]

/-- A group stays below the topmost bit, unless it is the tenth, which is at most 1. -/
theorem group_fits {groups : Nat} (hgroups : groups ≤ 9) {b : UInt8}
    (hlast : ¬ (groups = 0 ∧ 1 < b)) : b.toNat % 128 * 2 ^ (63 - 7 * groups) < 2 ^ 64 := by
  by_cases hzero : groups = 0
  · have hone : b.toNat ≤ 1 := Nat.not_lt.mp fun h => hlast ⟨hzero, h⟩
    subst hzero
    omega
  · have hshift : 63 - 7 * groups ≤ 56 := by omega
    have hpow : 2 ^ (63 - 7 * groups) ≤ 2 ^ 56 := Nat.pow_le_pow_right (by decide) hshift
    calc b.toNat % 128 * 2 ^ (63 - 7 * groups) ≤ 127 * 2 ^ 56 :=
          Nat.mul_le_mul (by omega) hpow
      _ < 2 ^ 64 := by decide

/-- A group further down has its place seven bits lower. -/
theorem scale_succ {fewer : Nat} (h : fewer + 1 ≤ 9) :
    2 ^ (63 - 7 * fewer) = 2 ^ (63 - 7 * (fewer + 1)) * 128 := by
  have hshift : 63 - 7 * fewer = 63 - 7 * (fewer + 1) + 7 := by omega
  rw [hshift, Nat.pow_add]

/-- What is known, a group above it, and what stands above the group. -/
theorem lay_group (known scale low high : Nat) :
    known + scale * low + scale * 128 * high = known + scale * (low + 128 * high) := by
  rw [Nat.mul_add, Nat.mul_assoc, Nat.add_assoc]

/-- Reading on into a word adds what the further groups spell, in its place. -/
theorem readWordFrom_eq {groups : Nat} (hgroups : groups ≤ 9) {v : UInt64}
    (hv : v.toNat < 2 ^ (63 - 7 * groups)) (input : List UInt8) :
    readWordFrom v (groups + 1) input = (readGroups (groups + 1) input).map fun found =>
      (UInt64.ofNat (v.toNat + 2 ^ (63 - 7 * groups) * found.1), found.2) := by
  match input with
  | [] => rfl
  | b :: rest =>
    rw [readWordFrom_cons, readGroups_cons]
    by_cases hlast : groups = 0 ∧ 1 < b
    · rw [if_pos hlast, if_pos (show groups = 0 ∧ 1 < b.toNat from hlast)]
      rfl
    rw [if_neg hlast, if_neg (show ¬ (groups = 0 ∧ 1 < b.toNat) from hlast)]
    have hgroup := toNat_or_group (by omega) hv (group_fits hgroups hlast)
    by_cases hb : b.toNat < 128
    · rw [if_pos ((and_top_eq_zero_iff b).mpr hb), if_pos hb, Except.map]
      rw [Nat.mod_eq_of_lt hb] at hgroup
      rw [← hgroup, UInt64.ofNat_toNat]
    · -- the groups behind go on above this one
      have hne : groups ≠ 0 := fun hzero => hlast ⟨hzero, show 1 < b.toNat by omega⟩
      obtain ⟨fewer, rfl⟩ : ∃ fewer, groups = fewer + 1 := ⟨groups - 1, by omega⟩
      have hpow := scale_succ hgroups
      have hnext : v.toNat + 2 ^ (63 - 7 * (fewer + 1)) * (b.toNat % 128) <
          2 ^ (63 - 7 * fewer) := by
        have hmul := Nat.mul_le_mul_left (2 ^ (63 - 7 * (fewer + 1)))
          (show b.toNat % 128 ≤ 127 by omega)
        omega
      rw [if_neg (fun h => hb ((and_top_eq_zero_iff b).mp h)), if_neg hb,
        readWordFrom_eq (by omega) (hgroup ▸ hnext), hgroup, hpow]
      cases readGroups (fewer + 1) rest with
      | error e => rfl
      | ok high => simp only [Except.map, lay_group]
termination_by groups

/-- A word is read as its number is, and fails to be read for the same reasons. -/
theorem readWord_eq (input : List UInt8) :
    readWord input = (read input).map fun found => (UInt64.ofNat found.1, found.2) := by
  have hread := readWordFrom_eq (Nat.le_refl 9) (show (0 : UInt64).toNat < 2 ^ 0 by decide) input
  change readWordFrom 0 (9 + 1) input = (readGroups (9 + 1) input).map _
  simpa only [UInt64.toNat_zero, Nat.mul_comm, Nat.mul_one, Nat.zero_add, Nat.pow_zero,
    Nat.sub_self] using hread

end RemoteCall.Varint
