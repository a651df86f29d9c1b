import Mathlib.Algebra.Order.Ring.Int
import Mathlib.Tactic.Ring
import RemoteCall.Number.BigInteger
import RemoteCall.Proofs.Value.Order
import RemoteCall.Proofs.Wire.WholeFrames

/-!
# Integers of any size are integers

Bytes denote an integer in two's complement, and the integer says how many bytes it needs. So the
bytes without redundant sign bytes are the only minimal ones of their integer, two minimal forms
order like the integers, and the integers of at most sixteen bytes are the words of 128 bits.
-/

namespace RemoteCall

/-- The number that bytes spell behind one more byte. -/
theorem ofBigEndian_cons (b : UInt8) (rest : List UInt8) :
    ofBigEndian (b :: rest) = b.toNat * 256 ^ rest.length + ofBigEndian rest := by
  induction rest using List.reverseRecOn with
  | nil => simp [ofBigEndian]
  | append_singleton rest c ih =>
    rw [← List.cons_append, ofBigEndian_append, ofBigEndian_append, ih, List.length_append,
      List.length_singleton, pow_succ]
    ring

namespace BigInteger

/-- A byte with its sign. -/
theorem toInt_toInt8 (b : UInt8) : b.toInt8.toInt = b.toNat - if 128 ≤ b then 256 else 0 := by
  have hb := b.toNat_lt
  have hle : 128 ≤ b ↔ 128 ≤ b.toNat := UInt8.le_iff_toNat_le
  have hword : b.toInt8.toInt = if 2 * b.toNat < 256 then (b.toNat : Int) else b.toNat - 256 :=
    BitVec.toInt_eq_toNat_cond b.toBitVec
  rw [hword]
  simp only [hle]
  split_ifs <;> omega

/-- Bytes behind a start carry it to their front. -/
theorem foldl_bytes (start : Int) (rest : List UInt8) :
    rest.foldl (fun value c => value * 256 + (c.toNat : Int)) start =
      start * 256 ^ rest.length + ofBigEndian rest := by
  induction rest using List.reverseRecOn with
  | nil => simp [ofBigEndian]
  | append_singleton rest c ih =>
    rw [List.foldl_append, List.foldl_cons, List.foldl_nil, ih, ofBigEndian_append,
      List.length_append, List.length_singleton, pow_succ]
    push_cast
    ring

/-- The first byte counts with its sign, the others without. -/
theorem twosComplement_cons (b : UInt8) (rest : List UInt8) : twosComplement (b :: rest) =
    (b.toNat - if 128 ≤ b then 256 else 0) * 256 ^ rest.length + ofBigEndian rest := by
  rw [twosComplement, foldl_bytes, toInt_toInt8]

/-- One more byte at the end of bytes. -/
theorem twosComplement_concat {bytes : List UInt8} (h : bytes ≠ []) (c : UInt8) :
    twosComplement (bytes ++ [c]) = twosComplement bytes * 256 + c.toNat := by
  cases bytes with
  | nil => exact absurd rfl h
  | cons b rest =>
    rw [List.cons_append, twosComplement, twosComplement, List.foldl_append, List.foldl_cons,
      List.foldl_nil]

/-- Whether the top bit of bytes is set. -/
def isNegativeBytes : List UInt8 → Bool
  | [] => false
  | b :: _ => 128 ≤ b

/-- The integer is the number that the bytes spell, less one turn if the top bit is set. -/
theorem twosComplement_eq (bytes : List UInt8) : twosComplement bytes =
    ofBigEndian bytes - if isNegativeBytes bytes then 256 ^ bytes.length else 0 := by
  cases bytes with
  | nil => rfl
  | cons b rest =>
    rw [twosComplement_cons, ofBigEndian_cons, isNegativeBytes, List.length_cons, pow_succ]
    push_cast
    by_cases hb : 128 ≤ b
    · simp only [hb, decide_true, if_true]
      ring
    · simp only [hb, decide_false, Bool.false_eq_true, if_false]
      ring

/-- The top bit is set in the upper half of the numbers. -/
theorem isNegativeBytes_iff (bytes : List UInt8) :
    isNegativeBytes bytes = true ↔ 256 ^ bytes.length ≤ 2 * ofBigEndian bytes := by
  cases bytes with
  | nil => simp [isNegativeBytes, ofBigEndian]
  | cons b rest =>
    have hrest := ofBigEndian_lt rest
    have hle : 128 ≤ b ↔ 128 ≤ b.toNat := UInt8.le_iff_toNat_le
    rw [isNegativeBytes, decide_eq_true_iff, hle, ofBigEndian_cons, List.length_cons, pow_succ]
    constructor
    · intro hb
      have hmul := Nat.mul_le_mul_right (256 ^ rest.length) hb
      omega
    · intro hhalf
      by_contra hb
      have hmul := Nat.mul_le_mul_right (256 ^ rest.length) (show b.toNat ≤ 127 by omega)
      omega

/-- Bytes denote the integer that a word of as many bits does. -/
theorem twosComplement_eq_toInt (bytes : List UInt8) :
    twosComplement bytes = (BitVec.ofNat (8 * bytes.length) (ofBigEndian bytes)).toInt := by
  have hlt := ofBigEndian_lt bytes
  have hpow : 2 ^ (8 * bytes.length) = 256 ^ bytes.length := by
    rw [pow_mul]
    norm_num
  have hcast : ((256 ^ bytes.length : Nat) : Int) = 256 ^ bytes.length := by push_cast; rfl
  have hsign := isNegativeBytes_iff bytes
  rw [BitVec.toInt_eq_toNat_cond, BitVec.toNat_ofNat, hpow, Nat.mod_eq_of_lt hlt,
    twosComplement_eq]
  by_cases hneg : isNegativeBytes bytes = true
  · have hhalf := hsign.mp hneg
    rw [if_pos hneg, if_neg (by omega), hcast]
  · have hhalf := mt hsign.mpr hneg
    rw [if_neg hneg, if_pos (by omega), sub_zero]

/-- An integer that so many bytes can denote. -/
def Fits (width : Nat) (n : Int) : Prop := -256 ^ width ≤ 2 * n ∧ 2 * n < 256 ^ width

/-- Bytes denote an integer that fits them. -/
theorem fits_twosComplement (bytes : List UInt8) : Fits bytes.length (twosComplement bytes) := by
  have hlt : (ofBigEndian bytes : Int) < 256 ^ bytes.length := by
    exact_mod_cast ofBigEndian_lt bytes
  have hsign : isNegativeBytes bytes = true ↔
      (256 : Int) ^ bytes.length ≤ 2 * ofBigEndian bytes := by
    exact_mod_cast isNegativeBytes_iff bytes
  rw [Fits, twosComplement_eq]
  by_cases hneg : isNegativeBytes bytes = true
  · have hhalf := hsign.mp hneg
    rw [if_pos hneg]
    omega
  · rw [if_neg hneg]
    rw [hsign] at hneg
    omega

/-- What fits some bytes fits more. -/
theorem Fits.mono {width wider : Nat} {n : Int} (h : Fits width n) (hle : width ≤ wider) :
    Fits wider n := by
  have hpow : (256 : Int) ^ width ≤ 256 ^ wider := pow_le_pow_right₀ (by norm_num) hle
  unfold Fits at h ⊢
  omega

/-- What minimal bytes denote does not fit fewer bytes. -/
theorem not_fits_of_minimal {a b : UInt8} {rest : List UInt8} (h : MinimalBytes (a :: b :: rest)) :
    ¬Fits (rest.length + 1) (twosComplement (a :: b :: rest)) := by
  obtain ⟨hzero, hones⟩ := h
  have ha := a.toNat_lt
  have hb := b.toNat_lt
  have hrest : (ofBigEndian rest : Int) < 256 ^ rest.length := by
    exact_mod_cast ofBigEndian_lt rest
  have hsign : 128 ≤ a ↔ 128 ≤ a.toNat := UInt8.le_iff_toNat_le
  rw [← UInt8.toNat_inj, UInt8.lt_iff_toNat_lt] at hzero
  rw [← UInt8.toNat_inj, UInt8.le_iff_toNat_le] at hones
  simp only [UInt8.reduceToNat] at hzero hones
  -- The first two bytes together are at least 128 or less than -128.
  have hfront : ∃ front : Int, (front ≤ -129 ∨ 128 ≤ front) ∧
      twosComplement (a :: b :: rest) = front * 256 ^ rest.length + ofBigEndian rest := by
    refine ⟨(a.toNat - if 128 ≤ a then 256 else 0) * 256 + b.toNat, ?_, ?_⟩
    · simp only [hsign]
      split_ifs <;> omega
    · rw [twosComplement_cons, ofBigEndian_cons, List.length_cons, pow_succ]
      push_cast
      ring
  obtain ⟨front, hfront, hvalue⟩ := hfront
  have hpos : (0 : Int) < 256 ^ rest.length := pow_pos (by decide) _
  rw [hvalue, Fits, pow_succ]
  rintro ⟨hlow, hhigh⟩
  rcases hfront with hneg | hlarge
  · have hmul := mul_le_mul_of_nonneg_right hneg hpos.le
    omega
  · have hmul := mul_le_mul_of_nonneg_right hlarge hpos.le
    omega

/-- Minimal bytes are as many as their integer needs. -/
theorem fits_iff_of_minimal {bytes : List UInt8} (h : MinimalBytes bytes) {width : Nat}
    (hwidth : 0 < width) : Fits width (twosComplement bytes) ↔ bytes.length ≤ width := by
  constructor
  · intro hfits
    match bytes, h with
    | [_], _ => exact hwidth
    | a :: b :: rest, h =>
      by_contra hlonger
      have hshort : width ≤ rest.length + 1 := by
        simp only [List.length_cons] at hlonger
        omega
      exact not_fits_of_minimal h (hfits.mono hshort)
  · exact fun hle => (fits_twosComplement bytes).mono hle

/-- Bytes of one number that denote one integer are the same. -/
theorem eq_of_length_eq {bytes other : List UInt8} (hlength : bytes.length = other.length)
    (h : twosComplement bytes = twosComplement other) : bytes = other := by
  have hlt := ofBigEndian_lt bytes
  have hlt' := ofBigEndian_lt other
  have hspelled : ofBigEndian bytes = ofBigEndian other := by
    rw [twosComplement_eq_toInt, twosComplement_eq_toInt, hlength, BitVec.toInt_inj,
      ← BitVec.toNat_inj, BitVec.toNat_ofNat, BitVec.toNat_ofNat] at h
    have hpow : 2 ^ (8 * other.length) = 256 ^ other.length := by
      rw [pow_mul]
      norm_num
    rwa [hpow, Nat.mod_eq_of_lt (hlength ▸ hlt), Nat.mod_eq_of_lt hlt'] at h
  rw [← bigEndianBytes_ofBigEndian bytes, ← bigEndianBytes_ofBigEndian other, hlength, hspelled]

/-- No bytes are not minimal. -/
theorem length_pos_of_minimal {bytes : List UInt8} (h : MinimalBytes bytes) : 0 < bytes.length := by
  match bytes, h with
  | _ :: _, _ => exact Nat.succ_pos _

/-- An integer has one minimal form. -/
theorem eq_of_minimal {bytes other : List UInt8} (h : MinimalBytes bytes)
    (h' : MinimalBytes other) (he : twosComplement bytes = twosComplement other) :
    bytes = other := by
  have hfits : Fits other.length (twosComplement bytes) := he ▸ fits_twosComplement other
  have hfits' : Fits bytes.length (twosComplement other) := he ▸ fits_twosComplement bytes
  have hle := (fits_iff_of_minimal h (length_pos_of_minimal h')).mp hfits
  have hge := (fits_iff_of_minimal h' (length_pos_of_minimal h)).mp hfits'
  exact eq_of_length_eq (Nat.le_antisymm hle hge) he

/-- A redundant sign byte says nothing. -/
theorem twosComplement_of_redundant {a b : UInt8} (rest : List UInt8)
    (h : (a = 0 ∧ b < 128) ∨ (a = 255 ∧ 128 ≤ b)) :
    twosComplement (a :: b :: rest) = twosComplement (b :: rest) := by
  have hfront : a.toInt8.toInt * 256 + (b.toNat : Int) = b.toInt8.toInt := by
    rw [toInt_toInt8 b]
    rcases h with ⟨rfl, hb⟩ | ⟨rfl, hb⟩
    · have hzero : (0 : UInt8).toInt8.toInt = 0 := rfl
      rw [if_neg (UInt8.not_le.mpr hb), hzero]
      omega
    · have hones : (255 : UInt8).toInt8.toInt = -1 := rfl
      rw [if_pos hb, hones]
      omega
  rw [twosComplement, twosComplement, List.foldl_cons, hfront]

/-- Dropping sign bytes keeps the integer. -/
theorem twosComplement_dropSignBytes (bytes : List UInt8) :
    twosComplement (dropSignBytes bytes) = twosComplement bytes := by
  fun_induction dropSignBytes bytes with
  | case1 => rfl
  | case2 a => rfl
  | case3 a b rest h ih => rw [ih, twosComplement_of_redundant rest h]
  | case4 a b rest h => rfl

/-- Bytes are kept as the integer that they denote. -/
theorem toInt_ofBytes (bytes : List UInt8) : (ofBytes bytes).toInt = twosComplement bytes :=
  twosComplement_dropSignBytes bytes

/-- The integer says everything. -/
theorem toInt_inj {a b : BigInteger} : a.toInt = b.toInt ↔ a = b := by
  constructor
  · intro h
    have hbytes : a.bytes = b.bytes := eq_of_minimal a.minimal b.minimal h
    cases a
    cases b
    cases hbytes
    rfl
  · exact congrArg toInt

/-- The sign is the top bit. -/
theorem isNegative_eq (n : BigInteger) : n.isNegative = isNegativeBytes n.bytes := by
  unfold isNegative isNegativeBytes
  cases n.bytes <;> rfl

/-- The sign is that of the integer. -/
theorem isNegative_iff (n : BigInteger) : n.isNegative = true ↔ n.toInt < 0 := by
  have hlt : (ofBigEndian n.bytes : Int) < 256 ^ n.bytes.length := by
    exact_mod_cast ofBigEndian_lt n.bytes
  rw [toInt, twosComplement_eq, isNegative_eq]
  cases isNegativeBytes n.bytes with
  | true =>
    simp only [if_true, true_iff]
    omega
  | false =>
    simp only [Bool.false_eq_true, if_false, false_iff]
    omega

/-- Of as many bytes those come first that spell a lesser number. -/
theorem compareLex_lt {bytes other : List UInt8} (hlength : bytes.length = other.length)
    (h : ofBigEndian bytes < ofBigEndian other) :
    List.compareLex Ord.compare bytes other = .lt := by
  induction bytes generalizing other with
  | nil =>
    cases List.length_eq_zero_iff.mp hlength.symm
    exact absurd h (Nat.lt_irrefl _)
  | cons a bytes ih =>
    obtain ⟨b, other, rfl⟩ := List.exists_cons_of_length_eq_add_one hlength.symm
    have hrest : bytes.length = other.length := Nat.succ.inj hlength
    have hlt := ofBigEndian_lt bytes
    have hlt' := ofBigEndian_lt other
    rw [ofBigEndian_cons, ofBigEndian_cons, hrest] at h
    rw [hrest] at hlt
    have hfirst : a.toNat ≤ b.toNat := by
      by_contra hgreater
      have hmul := Nat.mul_le_mul_right (256 ^ other.length) (Nat.lt_of_not_le hgreater)
      rw [Nat.succ_mul] at hmul
      omega
    rw [List.compareLex_cons_cons]
    rcases Nat.lt_or_eq_of_le hfirst with hless | hsame
    · rw [Std.compare_eq_lt.mpr (UInt8.lt_iff_toNat_lt.mpr hless), Ordering.lt_then]
    · have hb : a = b := UInt8.toNat_inj.mp hsame
      subst hb
      rw [Std.ReflOrd.compare_self, Ordering.eq_then]
      exact ih hrest (by omega)

/-- Of integers with one sign a lesser one comes first if its bytes are as many. -/
theorem compareLex_lt_of_toInt_lt {a b : BigInteger} (hsign : a.isNegative = b.isNegative)
    (hlength : a.bytes.length = b.bytes.length) (h : a.toInt < b.toInt) :
    List.compareLex Ord.compare a.bytes b.bytes = .lt := by
  refine compareLex_lt hlength ?_
  rw [toInt, toInt, twosComplement_eq, twosComplement_eq, ← isNegative_eq, ← isNegative_eq, hsign,
    hlength] at h
  omega

/-- A lesser integer comes first. -/
theorem compare_lt {a b : BigInteger} (h : a.toInt < b.toInt) : a.compare b = .lt := by
  have hneg := a.isNegative_iff
  have hneg' := b.isNegative_iff
  have hfits : Fits a.bytes.length a.toInt := fits_twosComplement a.bytes
  have hfits' : Fits b.bytes.length b.toInt := fits_twosComplement b.bytes
  have hlengths {m n : BigInteger} (hm : Fits n.bytes.length m.toInt) :
      m.bytes.length ≤ n.bytes.length :=
    (fits_iff_of_minimal m.minimal (length_pos_of_minimal n.minimal)).mp hm
  unfold Fits at hfits hfits' hlengths
  unfold BigInteger.compare
  cases hsign : a.isNegative <;> cases hsign' : b.isNegative <;>
    simp only [hsign, hsign', true_iff, false_iff, Bool.false_eq_true] at hneg hneg' ⊢
  case false.true => omega
  case false.false =>
    -- The integer that is nearer to zero has no more bytes.
    have hle := hlengths (m := a) (n := b) (by omega)
    rcases Nat.lt_or_eq_of_le hle with hless | hsame
    · rw [Std.compare_eq_lt.mpr hless, Ordering.lt_then]
    · rw [compareLex_lt_of_toInt_lt (hsign.trans hsign'.symm) hsame h, hsame,
        Std.ReflOrd.compare_self, Ordering.eq_then]
  case true.true =>
    have hle := hlengths (m := b) (n := a) (by omega)
    rcases Nat.lt_or_eq_of_le hle with hless | hsame
    · rw [Std.compare_eq_lt.mpr hless, Ordering.lt_then]
    · rw [compareLex_lt_of_toInt_lt (hsign.trans hsign'.symm) hsame.symm h, hsame,
        Std.ReflOrd.compare_self, Ordering.eq_then]

/-- Integers of any size compare like the integers they are. -/
theorem compare_eq_compare_toInt (a b : BigInteger) :
    a.compare b = Ord.compare a.toInt b.toInt := by
  rcases Int.lt_trichotomy a.toInt b.toInt with hlt | heq | hgt
  · rw [compare_lt hlt, Int.compare_eq_lt.mpr hlt]
  · rw [toInt_inj.mp heq, compare_eq, Std.ReflOrd.compare_self, Std.ReflOrd.compare_self]
  · have hswap : a.compare b = (b.compare a).swap := by
      rw [compare_eq, compare_eq]
      exact Std.OrientedCmp.eq_swap
    rw [hswap, compare_lt hgt, Int.compare_eq_gt.mpr hgt, Ordering.swap_lt]

/-- The integers of sixteen bytes or less are those of 128 bits. -/
theorem toInt128?_eq (n : BigInteger) : n.toInt128? =
    if -2 ^ 127 ≤ n.toInt ∧ n.toInt < 2 ^ 127 then some n.toInt else none := by
  have hfits : Fits 16 n.toInt ↔ n.bytes.length ≤ 16 :=
    fits_iff_of_minimal n.minimal (by decide)
  have hrange : Fits 16 n.toInt ↔ -2 ^ 127 ≤ n.toInt ∧ n.toInt < 2 ^ 127 := by
    unfold Fits
    omega
  rw [toInt128?]
  simp only [← hfits, hrange]

/-- The low bytes of an integer that fits them denote it. -/
theorem twosComplement_wordBytes {width : Nat} (hwidth : 0 < width) {n : Int} (h : Fits width n) :
    twosComplement (wordBytes width n) = n := by
  have hlow (n : Int) : ((n % 256).toNat.toUInt8.toNat : Int) = n % 256 := by
    rw [Nat.toUInt8_eq, UInt8.toNat_ofNat']
    omega
  induction width generalizing n with
  | zero => exact absurd hwidth (Nat.lt_irrefl 0)
  | succ width ih =>
    have hbyte := hlow n
    cases width with
    | zero =>
      have hle : 128 ≤ (n % 256).toNat.toUInt8 ↔ 128 ≤ (n % 256).toNat.toUInt8.toNat :=
        UInt8.le_iff_toNat_le
      unfold Fits at h
      rw [wordBytes, wordBytes, List.nil_append, twosComplement_cons, hbyte]
      simp only [hle, List.length_nil, pow_zero, mul_one, ofBigEndian, List.foldl_nil]
      split_ifs <;> omega
    | succ width =>
      have hne : wordBytes (width + 1) (n / 256) ≠ [] := by
        rw [wordBytes]
        exact List.append_ne_nil_of_right_ne_nil _ (List.cons_ne_nil _ _)
      have hrest : Fits (width + 1) (n / 256) := by
        unfold Fits at h ⊢
        rw [pow_succ] at h ⊢
        rw [pow_succ] at h
        omega
      rw [wordBytes, twosComplement_concat hne, ih (Nat.succ_pos width) hrest, hbyte]
      omega

/-- Every integer fits the bytes that it is written in. -/
theorem fits_width (n : Int) : Fits (n.natAbs.log2 / 8 + 2) n := by
  have hlog : n.natAbs < 2 ^ (n.natAbs.log2 + 1) := Nat.lt_log2_self
  have hwider : 2 ^ (n.natAbs.log2 + 1) ≤ 2 ^ (8 * (n.natAbs.log2 / 8 + 1)) :=
    Nat.pow_le_pow_right (by decide) (by omega)
  have hbytes : 2 ^ (8 * (n.natAbs.log2 / 8 + 1)) = 256 ^ (n.natAbs.log2 / 8 + 1) := by
    rw [pow_mul]
    norm_num
  have habs : (n.natAbs : Int) < 256 ^ (n.natAbs.log2 / 8 + 1) := by
    have hlt : n.natAbs < 256 ^ (n.natAbs.log2 / 8 + 1) := by omega
    exact_mod_cast hlt
  rw [Fits, pow_succ]
  omega

/-- An integer is kept. -/
theorem toInt_ofInt (n : Int) : (ofInt n).toInt = n := by
  rw [ofInt, toInt_ofBytes]
  exact twosComplement_wordBytes (Nat.succ_pos _) (fits_width n)

/-- The sixteen bytes of a word of 128 bits are those of its integer. -/
theorem ofInt_word (w : BitVec 128) : ofInt w.toInt = ofBytes (bigEndianBytes 16 w.toNat) := by
  refine toInt_inj.mp ?_
  have hlt : w.toNat < 256 ^ 16 := w.isLt
  rw [toInt_ofInt, toInt_ofBytes, twosComplement_eq_toInt, ofBigEndian_bigEndianBytes 16 _ hlt,
    length_bigEndianBytes, BitVec.ofNat_toNat, BitVec.setWidth_eq]

/-- Sign bytes in front say nothing. -/
theorem twosComplement_filled (n : BigInteger) (count : Nat) : twosComplement
    (List.replicate count (if n.isNegative then 255 else 0) ++ n.bytes) = n.toInt := by
  suffices hfilled : twosComplement
        (List.replicate count (if n.isNegative then 255 else 0) ++ n.bytes) = n.toInt ∧
      isNegativeBytes (List.replicate count (if n.isNegative then 255 else 0) ++ n.bytes) =
        n.isNegative from hfilled.1
  induction count with
  | zero => exact ⟨rfl, n.isNegative_eq.symm⟩
  | succ count ih =>
    obtain ⟨hvalue, hsign⟩ := ih
    have hne : List.replicate count (if n.isNegative then (255 : UInt8) else 0) ++ n.bytes ≠ [] :=
      List.append_ne_nil_of_right_ne_nil _
        (List.ne_nil_of_length_pos (length_pos_of_minimal n.minimal))
    rw [List.replicate_succ, List.cons_append]
    generalize List.replicate count (if n.isNegative then (255 : UInt8) else 0) ++ n.bytes =
      filled at hvalue hsign hne ⊢
    cases filled with
    | nil => exact absurd rfl hne
    | cons b rest =>
      rw [isNegativeBytes] at hsign
      cases hneg : n.isNegative with
      | true =>
        have hb : 128 ≤ b := of_decide_eq_true (hsign.trans hneg)
        exact ⟨(twosComplement_of_redundant rest (.inr ⟨rfl, hb⟩)).trans hvalue, rfl⟩
      | false =>
        have hb : b < 128 := UInt8.not_le.mp (of_decide_eq_false (hsign.trans hneg))
        exact ⟨(twosComplement_of_redundant rest (.inl ⟨rfl, hb⟩)).trans hvalue, rfl⟩

/-- What the integer that is made of bytes is. -/
structure Denotes (bytes : List UInt8) (n : BigInteger) : Prop where
  /-- It is the integer of the word of these bytes, zero if there are none. -/
  value : n.toInt = (BitVec.ofNat (8 * bytes.length) (ofBigEndian bytes)).toInt
  /-- Its own bytes are the only minimal ones of this integer. -/
  minimal : ∀ other, other = n.bytes ↔ MinimalBytes other ∧ twosComplement other = n.toInt
  /-- No others that denote it are fewer. -/
  shortest : ∀ other, twosComplement other = n.toInt → n.bytes.length ≤ max 1 other.length

/-- The integer of bytes is what they denote. -/
theorem denotes_ofBytes (bytes : List UInt8) : Denotes bytes (ofBytes bytes) := by
  constructor
  case value => rw [toInt_ofBytes, twosComplement_eq_toInt]
  case minimal =>
    intro other
    constructor
    · intro he
      rw [he]
      exact ⟨(ofBytes bytes).minimal, rfl⟩
    · rintro ⟨hminimal, hvalue⟩
      exact eq_of_minimal hminimal (ofBytes bytes).minimal hvalue
  case shortest =>
    intro other hvalue
    have hfits : Fits (max 1 other.length) (twosComplement other) :=
      (fits_twosComplement other).mono (Nat.le_max_right _ _)
    rw [hvalue] at hfits
    have hpos : 0 < max 1 other.length := Nat.lt_of_lt_of_le Nat.one_pos (Nat.le_max_left _ _)
    exact (fits_iff_of_minimal (ofBytes bytes).minimal hpos).mp hfits

/-- How integers of any size are exchanged for words of 128 bits. -/
structure ExchangesWords (n : BigInteger) : Prop where
  /-- The number is given exactly if it lies in the range of a word. -/
  range : n.toInt128? = if -2 ^ 127 ≤ n.toInt ∧ n.toInt < 2 ^ 127 then some n.toInt else none
  /-- It is read off sixteen bytes, with sign bytes in front of those that there are. -/
  filled : ∀ v, n.toInt128? = some v → v = twosComplement
    (List.replicate (16 - n.bytes.length) (if n.isNegative then 255 else 0) ++ n.bytes)
  /-- The integer of the number is the given one. -/
  back : ∀ v, n.toInt128? = some v → ofInt v = n

/-- A given number is the integer. -/
theorem toInt128?_eq_some {n : BigInteger} {v : Int} (h : n.toInt128? = some v) : v = n.toInt := by
  rw [toInt128?] at h
  split at h
  · exact (Option.some.inj h).symm
  · cases h

/-- **Integers of any size are integers.** Bytes are kept as the integer that they denote in two's
complement, in its only minimal form. Forms are equal if and only if their integers are, and
compare as these do. The number of a form is given exactly if it lies in the range of 128 bits; so
every word is given back, and a form whose number is given is the form of that number. -/
theorem bigInteger_isInteger (bytes : List UInt8) (a b : BigInteger) (w : BitVec 128) :
    Denotes bytes (ofBytes bytes) ∧ (a = b ↔ a.toInt = b.toInt) ∧
      a.compare b = Ord.compare a.toInt b.toInt ∧ ExchangesWords a ∧
      ofInt w.toInt = ofBytes (bigEndianBytes 16 w.toNat) ∧
      (ofInt w.toInt).toInt128? = some w.toInt := by
  have hword : -2 ^ 127 ≤ w.toInt ∧ w.toInt < 2 ^ 127 := ⟨w.le_toInt, w.toInt_lt⟩
  refine ⟨denotes_ofBytes bytes, toInt_inj.symm, compare_eq_compare_toInt a b, ?_, ofInt_word w, ?_⟩
  · constructor
    case range => exact toInt128?_eq a
    case filled =>
      intro v hv
      rw [toInt128?_eq_some hv, twosComplement_filled]
    case back =>
      intro v hv
      refine toInt_inj.mp ?_
      rw [toInt_ofInt, toInt128?_eq_some hv]
  · rw [toInt128?_eq, toInt_ofInt, if_pos hword]

/-- A leading byte stays where it holds the sign. -/
example : (ofBytes [0, 0, 128]).bytes = [0, 128] ∧ (ofBytes [255, 255, 128]).toInt = -128 := by
  decide

end BigInteger

end RemoteCall
