import Mathlib.Data.Nat.Digits.Defs
import Mathlib.Data.String.Basic
import RemoteCall.Proofs.Wire.Reading

/-!
# Lengths on the wire

How many bytes numbers and texts take. A number below a power of 128 takes no more bytes than the
exponent says. A text takes as many bytes as its parts, and a number that is spelled in a text takes
one byte for a digit.
-/

namespace RemoteCall

/-- A number below a power of 128 takes at most as many bytes as the exponent. -/
theorem Varint.length_encode_le {n k : Nat} (hk : 0 < k) (h : n < 128 ^ k) :
    (encode n).length ≤ k := by
  induction k generalizing n with
  | zero => exact absurd hk (Nat.lt_irrefl 0)
  | succ k ih =>
    rw [encode]
    split
    · exact Nat.succ_le_succ (Nat.zero_le k)
    · rename_i hlarge
      have hpow : 128 ^ (k + 1) = 128 ^ k * 128 := Nat.pow_succ 128 k
      have hrest : n / 128 < 128 ^ k := Nat.div_lt_of_lt_mul (by omega)
      have hpos : 0 < k := by
        refine Nat.pos_of_ne_zero fun hzero => ?_
        subst hzero
        omega
      exact Nat.succ_le_succ (ih hpos hrest)

/-- A word of 64 bits takes at most ten bytes. -/
theorem Varint.length_encode_word_le {n : Nat} (h : n < UInt64.size) : (encode n).length ≤ 10 :=
  length_encode_le (by decide) (Nat.lt_of_lt_of_le h (by decide))

/-- A signed word of 64 bits takes at most ten bytes. -/
theorem Varint.length_encodeSigned_le (n : Int64) : (encodeSigned n.toInt).length ≤ 10 := by
  have hlow := n.le_toInt
  have hhigh := n.toInt_lt
  refine length_encode_word_le ?_
  have hsize : UInt64.size = 2 ^ 64 := rfl
  unfold fold
  split
  · omega
  · omega

namespace Sized

/-- The parts of a text. -/
theorem length_bytesOf_append (text more : String) :
    (bytesOf (text ++ more)).length = (bytesOf text).length + (bytesOf more).length :=
  String.utf8ByteSize_append

/-- Characters of one byte each. -/
theorem length_bytesOf_ofList {chars : List Char} (h : ∀ c ∈ chars, c.utf8Size = 1) :
    (bytesOf (String.ofList chars)).length = chars.length := by
  refine (String.utf8ByteSize_ofList chars).trans ?_
  induction chars with
  | nil => rfl
  | cons c rest ih =>
    have hrest := ih fun c' hc' => h c' (List.mem_cons_of_mem c hc')
    rw [String.utf8Len, hrest, h c List.mem_cons_self]
    rfl

/-- A digit takes one byte. -/
theorem utf8Size_of_isDigit {c : Char} (h : c.isDigit = true) : c.utf8Size = 1 := by
  have hle : c.val ≤ 57 := (Bool.and_eq_true_iff.mp h).2 |> of_decide_eq_true
  exact Char.utf8Size_eq_one_iff.mpr (Nat.le_trans hle (by decide))

/-- A number in a text takes one byte for each digit. -/
theorem length_bytesOf_repr (n : Nat) :
    (bytesOf (toString n)).length = (Nat.toDigits 10 n).length :=
  length_bytesOf_ofList fun _ hc =>
    utf8Size_of_isDigit (Nat.isDigit_of_mem_toDigits (by decide) (by decide) hc)

end Sized

end RemoteCall
