import Mathlib.Algebra.Group.Nat.Defs
import RemoteCall.Wire.Sized

/-!
# Readers undo writers on the wire

A reader takes a spelling when it gives the meant datum for that spelling in front of any input,
and leaves the input after it. Taking composes along the sequencing of readers, so each format is
settled by the parts it is made of. Numbers are words of 64 bits; the counts in front of byte
strings and texts are such numbers, hence every part that is sized must be shorter than that.
-/

namespace RemoteCall

/-- The reader takes exactly these bytes from the front of any input and gives the datum. -/
def Reader.Takes (r : Reader α) (bytes : List UInt8) (a : α) : Prop :=
  ∀ rest, r (bytes ++ rest) = .ok (a, rest)

namespace Reader

/-- The second of two readers goes on where the first has stopped. -/
theorem bind_of_ok {r : Reader α} {f : α → Reader β} {input middle : List UInt8} {a : α}
    (h : r input = .ok (a, middle)) : (r >>= f) input = f a middle := by
  change Except.bind (r input) (fun p => f p.1 p.2) = _
  rw [h]
  rfl

/-- Two readers in a row have both succeeded. -/
theorem bind_eq_ok {r : Reader α} {f : α → Reader β} {input rest : List UInt8} {b : β}
    (h : (r >>= f) input = .ok (b, rest)) :
    ∃ a middle, r input = .ok (a, middle) ∧ f a middle = .ok (b, rest) := by
  change Except.bind (r input) (fun p => f p.1 p.2) = _ at h
  cases ha : r input with
  | error e =>
    rw [ha] at h
    cases h
  | ok p =>
    rw [ha] at h
    exact ⟨p.1, p.2, rfl, h⟩

end Reader

namespace Reader.Takes

/-- Readers in sequence take their spellings in sequence. -/
theorem bind {r : Reader α} {f : α → Reader β} {front back : List UInt8} {a : α} {b : β}
    (hr : r.Takes front a) (hf : (f a).Takes back b) : (r >>= f).Takes (front ++ back) b := by
  intro rest
  rw [List.append_assoc, bind_of_ok (hr (back ++ rest))]
  exact hf rest

/-- A reader whose result is only rewrapped takes the same spelling. -/
theorem map {r : Reader α} {bytes : List UInt8} {a : α} (f : α → β) (hr : r.Takes bytes a) :
    (f <$> r).Takes bytes (f a) := by
  intro rest
  change Except.map _ (r (bytes ++ rest)) = _
  rw [hr]
  rfl

/-- A known result is read from nothing. -/
theorem pure (a : α) : (Pure.pure a : Reader α).Takes [] a := fun _ => rfl

/-- A check that succeeds reads nothing. -/
theorem lift {x : Except CodecError α} {a : α} (hx : x = .ok a) :
    (liftM x : Reader α).Takes [] a := by
  intro rest
  subst hx
  rfl

/-- A last step that reads nothing leaves the spelling as it is. -/
theorem andThen {r : Reader α} {f : α → Reader β} {bytes : List UInt8} {a : α} {b : β}
    (hr : r.Takes bytes a) (hf : (f a).Takes [] b) : (r >>= f).Takes bytes b := by
  have h := bind hr hf
  rwa [List.append_nil] at h

end Reader.Takes

namespace Reader

/-- One byte is taken as it stands. -/
theorem byte_takes (b : UInt8) : byte.Takes [b] b := fun _ => rfl

/-- So many bytes are taken as they stand. -/
theorem take_takes (bytes : List UInt8) : (take bytes.length).Takes bytes bytes :=
  fun rest => take_append bytes rest

end Reader

/-- The number that bytes spell in front of one more byte. -/
theorem ofBigEndian_append (bytes : List UInt8) (b : UInt8) :
    ofBigEndian (bytes ++ [b]) = ofBigEndian bytes * 256 + b.toNat := by
  simp only [ofBigEndian, List.foldl_append, List.foldl_cons, List.foldl_nil]

/-- The bytes of a number that fits their width spell it. -/
theorem ofBigEndian_bigEndianBytes (width value : Nat) (hv : value < 256 ^ width) :
    ofBigEndian (bigEndianBytes width value) = value := by
  induction width generalizing value with
  | zero =>
    rw [Nat.pow_zero] at hv
    have h0 : value = 0 := by omega
    subst h0
    rfl
  | succ width ih =>
    have hd : value / 256 < 256 ^ width := by
      rw [Nat.pow_succ] at hv
      exact Nat.div_lt_of_lt_mul (by rwa [Nat.mul_comm] at hv)
    have hb : value.toUInt8.toNat = value % 256 := rfl
    rw [bigEndianBytes, ofBigEndian_append, ih _ hd, hb]
    omega

/-- A number of fixed width is taken back. -/
theorem Reader.bigEndian_takes (width : Nat) {value : Nat} (hv : value < 256 ^ width) :
    (bigEndian width).Takes (bigEndianBytes width value) value := by
  have ht := take_takes (bigEndianBytes width value)
  rw [length_bigEndianBytes] at ht
  have hm := ht.map ofBigEndian
  rwa [ofBigEndian_bigEndianBytes width value hv] at hm

namespace Varint

/-- One group is read: it is the last, or it stands below those that follow. -/
theorem readGroups_cons (groups : Nat) (b : UInt8) (rest : List UInt8) :
    readGroups (groups + 1) (b :: rest) =
      if groups = 0 ∧ 1 < b.toNat then .error .malformedVarint
      else if b.toNat < 128 then .ok (b.toNat, rest)
      else (readGroups groups rest).map fun high => (b.toNat % 128 + 128 * high.1, high.2) := by
  change (if groups = 0 ∧ 1 < b.toNat then _ else _ : Reader Nat) rest = _
  by_cases hlast : groups = 0 ∧ 1 < b.toNat
  · rw [if_pos hlast, if_pos hlast]
    rfl
  · rw [if_neg hlast, if_neg hlast]
    by_cases hb : b.toNat < 128
    · rw [if_pos hb, if_pos hb]
      rfl
    · rw [if_neg hb, if_neg hb]
      change Except.bind (readGroups groups rest) _ = _
      cases readGroups groups rest <;> rfl

/-- So many groups and one more take every number below twice the power of 128. -/
theorem readGroups_takes (groups n : Nat) (hn : n < 2 * 128 ^ groups) :
    (readGroups (groups + 1)).Takes (encode n) n := by
  intro rest
  induction groups generalizing n with
  | zero =>
    have h2 : n < 2 := by simpa using hn
    have hb : n.toUInt8.toNat = n := Nat.mod_eq_of_lt (by omega)
    rw [encode_of_lt (by omega), List.singleton_append, readGroups_cons, hb,
      if_neg (by omega), if_pos (by omega)]
  | succ groups ih =>
    by_cases h : n < 128
    · have hb : n.toUInt8.toNat = n := Nat.mod_eq_of_lt (by omega)
      rw [encode_of_lt h, List.singleton_append, readGroups_cons, hb, if_neg (by omega), if_pos h]
    · have hb : (n % 128 + 128).toUInt8.toNat = n % 128 + 128 := Nat.mod_eq_of_lt (by omega)
      have hd : n / 128 < 2 * 128 ^ groups := by
        rw [Nat.pow_succ] at hn
        omega
      have hs : (n % 128 + 128) % 128 + 128 * (n / 128) = n := by omega
      rw [encode, if_neg h, List.cons_append, readGroups_cons, hb, if_neg (by omega),
        if_neg (by omega), ih _ hd, Except.map, hs]

/-- Every 64-bit number is taken back from its spelling. -/
theorem read_takes {n : Nat} (hn : n < UInt64.size) : read.Takes (encode n) n :=
  readGroups_takes 9 n hn

/-- Every 32-bit number is taken back from its spelling. -/
theorem read32_takes {n : Nat} (hn : n < UInt32.size) : read32.Takes (encode n) n := by
  have h64 : n < UInt64.size := Nat.lt_trans hn (by decide)
  refine (read_takes h64).andThen ?_
  rw [if_pos hn]
  exact Reader.Takes.pure n

/-- The fold of a signed 64-bit number is an unsigned one. -/
theorem fold_lt {n : Int} (hlo : -9223372036854775808 ≤ n) (hhi : n < 9223372036854775808) :
    fold n < UInt64.size := by
  have hs : UInt64.size = 18446744073709551616 := rfl
  unfold fold
  split <;> omega

/-- Every signed 64-bit number is taken back from its spelling. -/
theorem readSigned_takes {n : Int} (hlo : -9223372036854775808 ≤ n)
    (hhi : n < 9223372036854775808) : readSigned.Takes (encodeSigned n) n := by
  have h := (read_takes (fold_lt hlo hhi)).map unfold
  rwa [unfold_fold] at h

/-- Every signed 32-bit number is taken back from its spelling. -/
theorem readSigned32_takes {n : Int} (hn : -2147483648 ≤ n ∧ n < 2147483648) :
    readSigned32.Takes (encodeSigned n) n := by
  refine (readSigned_takes (by omega) (by omega)).andThen ?_
  rw [if_pos hn]
  exact Reader.Takes.pure n

/-- A spelling has at least one byte. -/
theorem length_encode_pos (n : Nat) : 0 < (encode n).length :=
  List.length_pos_iff.mpr (encode_ne_nil n)

end Varint

namespace Sized

/-- A count is accepted if the elements that it announces can still follow. -/
theorem readCount_of_read {least n : Nat} {input rest : List UInt8}
    (h : Varint.read input = .ok (n, rest)) (hfit : n * max least 1 ≤ rest.length) :
    readCount least input = .ok (n, rest) := by
  unfold readCount
  rw [Reader.bind_of_ok h]
  change (if n * max least 1 > rest.length ∧ 0 < n then _ else _ : Reader Nat) rest = _
  rw [if_neg (by omega)]
  rfl

/-- A count is taken back if the elements that it announces can still follow. -/
theorem readCount_encode {least n : Nat} {rest : List UInt8} (hn : n < UInt64.size)
    (hfit : n * max least 1 ≤ rest.length) :
    readCount least (Varint.encode n ++ rest) = .ok (n, rest) :=
  readCount_of_read (Varint.read_takes hn rest) hfit

/-- A count is accepted in front of at least as many elements of the least size. -/
theorem readCount_bind_takes {least n : Nat} {f : Nat → Reader β} {back : List UInt8} {b : β}
    (hn : n < UInt64.size) (hfit : n * max least 1 ≤ back.length) (hf : (f n).Takes back b) :
    (readCount least >>= f).Takes (Varint.encode n ++ back) b := by
  intro rest
  have hlen : n * max least 1 ≤ (back ++ rest).length := by
    rw [List.length_append]
    omega
  rw [List.append_assoc]
  change Except.bind (readCount least (Varint.encode n ++ (back ++ rest))) _ = _
  rw [readCount_encode hn hlen]
  exact hf rest

/-- A byte string is taken back. -/
theorem readBytes_takes {bytes : List UInt8} (hb : bytes.length < UInt64.size) :
    readBytes.Takes (encodeBytes bytes) bytes :=
  readCount_bind_takes hb (by simp) (Reader.take_takes bytes)

/-- The bytes of a text spell it. -/
theorem textOf_bytesOf (text : String) : textOf (bytesOf text) = .ok text := by
  have hb : (bytesOf text).toByteArray = text.toByteArray := by
    apply ByteArray.ext
    rw [List.data_toByteArray, bytesOf, String.toUTF8_eq_toByteArray, Array.toArray_toList]
  have ht : String.fromUTF8? text.toByteArray = some text := dif_pos text.isValidUTF8
  rw [textOf, hb, ht]

/-- A text is taken back. -/
theorem readText_takes {text : String} (ht : (bytesOf text).length < UInt64.size) :
    readText.Takes (encodeText text) text :=
  (readBytes_takes ht).andThen (.lift (textOf_bytesOf text))

/-- A text that may be absent is taken back. -/
theorem readOptionalText_takes {text : Option String}
    (ht : ∀ t, text = some t → (bytesOf t).length + 1 < UInt64.size) :
    readOptionalText.Takes (encodeOptionalText text) text := by
  cases text with
  | none => exact (Varint.read_takes (by decide : 0 < UInt64.size)).andThen (.pure none)
  | some t =>
    have hr : (liftM (textOf (bytesOf t)) >>= fun t => pure (some t) : Reader (Option String)).Takes
        [] (some t) := (Reader.Takes.lift (textOf_bytesOf t)).andThen (.pure (some t))
    exact (Varint.read_takes (ht t rfl)).bind ((Reader.take_takes (bytesOf t)).andThen hr)

end Sized

end RemoteCall
