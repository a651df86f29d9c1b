import RemoteCall.Codec.Scalar
import RemoteCall.Proofs.Wire.Accepted

/-!
# Scalars are read back

The reader of a scalar type takes every scalar of that type from its spelling: the bits of a
floating-point number, the sign bytes of an integer of any size and a leap second included. The
only limit is that a byte string or text is shorter than a 64-bit count can say, and what a reader
gives keeps to it.
-/

namespace RemoteCall

namespace Scalar

/-- A reading that stands for a datum is accepted. -/
theorem demand_takes {subject : Subject} {reading : String} {found : Option α} {a : α}
    (h : found = some a) : (demand subject reading found).Takes [] a := by
  subst h
  exact .pure a

/-- A date is taken back. -/
theorem readDate_takes (d : Date) : readDate.Takes (Varint.encodeSigned d.days) d := by
  have hd := d.inRange
  exact (Varint.readSigned32_takes (by omega)).andThen (demand_takes d.ofDays?_days)

/-- A time of day is taken back, a leap second included. -/
theorem readTime_takes (t : Time) :
    readTime.Takes (Varint.encode t.seconds ++ Varint.encode t.nanos) t := by
  have h32 : UInt32.size = 4294967296 := rfl
  have hs := t.seconds_lt
  have hn : t.nanos < UInt32.size := by
    have hv := t.validNanos
    unfold ValidNanos at hv
    omega
  exact (Varint.read32_takes (by omega)).bind
    ((Varint.read32_takes hn).andThen (demand_takes t.ofParts?_parts))

/-- An instant is taken back. -/
theorem readInstant_takes (i : Instant) :
    readInstant.Takes (Varint.encodeSigned i.unixSeconds ++ Varint.encode i.nanos) i := by
  have h32 : UInt32.size = 4294967296 := rfl
  have hd := i.utc.date.inRange
  have hs := i.utc.time.seconds_lt
  have hn : i.nanos < UInt32.size := by
    have hv := i.utc.time.validNanos
    unfold ValidNanos at hv
    unfold Instant.nanos
    omega
  have hu : -9223372036854775808 ≤ i.unixSeconds ∧ i.unixSeconds < 9223372036854775808 := by
    unfold Instant.unixSeconds Instant.epochDay
    omega
  exact (Varint.readSigned_takes hu.1 hu.2).bind
    ((Varint.read32_takes hn).andThen (demand_takes i.ofUnix?_unixSeconds))

/-- A duration is taken back. -/
theorem readDuration_takes (d : Duration) :
    readDuration.Takes (Varint.encodeSigned d.seconds ++ Varint.encodeSigned d.nanos) d := by
  have hd := d.inRange
  unfold Duration.limit at hd
  have hlo : -1000000000 < d.nanos := Int.lt_tmod_of_pos d.total (by decide)
  have hhi : d.nanos < 1000000000 := Int.tmod_lt_of_pos d.total (by decide)
  have hsum : 1000000000 * d.seconds + d.nanos = d.total := Int.mul_tdiv_add_tmod _ _
  have hs : -9223372036854775808 ≤ d.seconds ∧ d.seconds < 9223372036854775808 := by omega
  have hn : -2147483648 ≤ d.nanos ∧ d.nanos < 2147483648 := by omega
  exact (Varint.readSigned_takes hs.1 hs.2).bind
    ((Varint.readSigned32_takes hn).andThen (demand_takes d.ofParts?_parts))

/-- A character is taken back. -/
theorem readChar_takes (c : Char) : readChar.Takes (Varint.encode c.toNat) c := by
  have h32 : c.toNat < UInt32.size := c.val.toNat_lt
  have hv : c.toNat.isValidChar := c.valid
  refine (Varint.read32_takes h32).andThen ?_
  rw [if_pos hv, Char.ofNat_toNat]
  exact .pure c

/-- An identifier is taken back. -/
theorem readUuid_takes (u : Uuid) : readUuid.Takes u.bytes u := by
  have ht := Reader.take_takes u.bytes
  rw [u.length_eq] at ht
  refine ht.andThen ?_
  rw [dif_pos u.length_eq]
  exact .pure u

/-- An integer of any size is taken back. -/
theorem readBigInteger_takes {n : BigInteger} (hn : n.bytes.length < UInt64.size) :
    readBigInteger.Takes (Sized.encodeBytes n.bytes) n := by
  have h := (Sized.readBytes_takes hn).map BigInteger.ofBytes
  rwa [BigInteger.ofBytes_bytes] at h

/-- The payload of a sized part is shorter than the part. -/
theorem length_lt_encodeBytes (bytes : List UInt8) :
    bytes.length < (Sized.encodeBytes bytes).length := by
  have h := Varint.length_encode_pos bytes.length
  rw [Sized.encodeBytes, List.length_append]
  omega

/-- The bytes of a scalar that stand behind a count. -/
def payload : Scalar → List UInt8
  | string v => Sized.bytesOf v
  | bigInteger v => v.bytes
  | bigDecimal v => v.unscaled.bytes
  | charset v => Sized.bytesOf v.name
  | bytes v => v
  | _ => []

/-- The payload of a scalar is a part of its spelling. -/
theorem length_payload_le (v : Scalar) : v.payload.length ≤ v.encode.length := by
  cases v with
  | string v => exact Nat.le_of_lt (length_lt_encodeBytes (Sized.bytesOf v))
  | bigInteger v => exact Nat.le_of_lt (length_lt_encodeBytes v.bytes)
  | charset v => exact Nat.le_of_lt (length_lt_encodeBytes (Sized.bytesOf v.name))
  | bytes v => exact Nat.le_of_lt (length_lt_encodeBytes v)
  | bigDecimal v =>
    have hlt := length_lt_encodeBytes v.unscaled.bytes
    rw [payload, encode, List.length_append]
    omega
  | _ => exact Nat.zero_le _

/-- The reader of its type takes a scalar back. -/
theorem read_takes (v : Scalar) (hv : v.payload.length < UInt64.size) :
    (read v.type).Takes v.encode v := by
  cases v with
  | bool v =>
    intro rest
    cases v <;> rfl
  | byte v =>
    have h := (Reader.byte_takes v.toUInt8).map fun b => Scalar.byte b.toInt8
    rwa [Int8.toInt8_toUInt8] at h
  | short v =>
    have h := (Reader.bigEndian_takes 2 v.toUInt16.toNat_lt).map
      fun n => Scalar.short n.toUInt16.toInt16
    rwa [Nat.toUInt16_eq, UInt16.ofNat_toNat, Int16.toInt16_toUInt16] at h
  | int v =>
    have h := (Varint.readSigned32_takes ⟨v.le_toInt, v.toInt_lt⟩).map
      fun n => Scalar.int (Int32.ofInt n)
    rwa [Int32.ofInt_toInt] at h
  | long v =>
    have h := (Varint.readSigned_takes v.le_toInt v.toInt_lt).map
      fun n => Scalar.long (Int64.ofInt n)
    rwa [Int64.ofInt_toInt] at h
  | float bits =>
    have h := (Reader.bigEndian_takes 4 bits.toNat_lt).map
      fun n => Scalar.float n.toUInt32
    rwa [Nat.toUInt32_eq, UInt32.ofNat_toNat] at h
  | double bits =>
    have h := (Reader.bigEndian_takes 8 bits.toNat_lt).map
      fun n => Scalar.double n.toUInt64
    rwa [Nat.toUInt64_eq, UInt64.ofNat_toNat] at h
  | char v => exact (readChar_takes v).map Scalar.char
  | string v => exact (Sized.readText_takes hv).map Scalar.string
  | bigInteger v => exact (readBigInteger_takes hv).map Scalar.bigInteger
  | bigDecimal v =>
    have h : (do
        let unscaled ← readBigInteger
        return Scalar.bigDecimal ⟨unscaled, Int32.ofInt v.scale.toInt⟩).Takes
          (Sized.encodeBytes v.unscaled.bytes) (.bigDecimal v) := by
      refine (readBigInteger_takes hv).andThen ?_
      rw [Int32.ofInt_toInt]
      exact .pure _
    exact (Varint.readSigned32_takes ⟨v.scale.le_toInt, v.scale.toInt_lt⟩).bind h
  | uuid v => exact (readUuid_takes v).map Scalar.uuid
  | date v => exact (readDate_takes v).map Scalar.date
  | time v => exact (readTime_takes v).map Scalar.time
  | dateTime v =>
    have h : (do
        let time ← readTime
        return Scalar.dateTime ⟨v.date, time⟩).Takes
          (Varint.encode v.time.seconds ++ Varint.encode v.time.nanos) (.dateTime v) :=
      (readTime_takes v.time).andThen (.pure _)
    rw [encode, List.append_assoc]
    exact (readDate_takes v.date).bind h
  | instant v => exact (readInstant_takes v).map Scalar.instant
  | duration v => exact (readDuration_takes v).map Scalar.duration
  | charset v =>
    exact (Sized.readText_takes hv).andThen
      ((Reader.Takes.lift v.ofName_name).andThen (.pure _))
  | bytes v => exact (Sized.readBytes_takes hv).map Scalar.bytes

/-- Dropping redundant sign bytes makes no integer longer, but for a zero without bytes. -/
theorem length_dropSignBytes_le (bytes : List UInt8) :
    (dropSignBytes bytes).length ≤ max 1 bytes.length := by
  fun_induction dropSignBytes bytes with
  | case1 => decide
  | case2 a => exact Nat.le_max_left 1 _
  | case3 a b rest h ih =>
    simp only [List.length_cons] at ih ⊢
    omega
  | case4 a b rest h => omega

/-- The length of an integer of any size is a count. -/
theorem readBigInteger_gives :
    Reader.Gives (fun n => n.bytes.length < UInt64.size) readBigInteger := by
  refine .map BigInteger.ofBytes (Sized.readBytes_gives.mono fun bytes hbytes => ?_)
  have hle := length_dropSignBytes_le bytes
  have h64 : UInt64.size = 18446744073709551616 := rfl
  change (dropSignBytes bytes).length < UInt64.size
  omega

/-- The reader of a type gives scalars of that type, with payloads that a count can announce. -/
theorem read_gives (t : ScalarType) :
    Reader.Gives (fun v => v.type = t ∧ v.payload.length < UInt64.size) (read t) := by
  have hzero : 0 < UInt64.size := by decide
  have hplain {α : Type} {r : Reader α} (f : α → Scalar)
      (hf : ∀ a, (f a).type = t ∧ (f a).payload = []) :
      Reader.Gives (fun v => v.type = t ∧ v.payload.length < UInt64.size) (f <$> r) := by
    refine .map f fun input a rest _ => ⟨(hf a).1, ?_⟩
    rwa [(hf a).2]
  cases t with
  | string => exact .map _ (Sized.readText_gives.mono fun _ h => ⟨rfl, h⟩)
  | bigInteger => exact .map _ (readBigInteger_gives.mono fun _ h => ⟨rfl, h⟩)
  | bytes => exact .map _ (Sized.readBytes_gives.mono fun _ h => ⟨rfl, h⟩)
  | bigDecimal =>
    exact .bind_any fun scale => .bind readBigInteger_gives fun unscaled h => .pure ⟨rfl, h⟩
  | dateTime =>
    exact .bind_any fun date => .bind_any fun time => .pure ⟨rfl, hzero⟩
  | charset =>
    refine .bind Sized.readText_gives fun name hname => ?_
    refine .bind (P := fun c => c.name = name) (.lift fun c hc => ?_) fun c hc => .pure ⟨rfl, ?_⟩
    · unfold Charset.ofName at hc
      split at hc
      · rw [← Except.ok.inj hc]
      · cases hc
    · change (Sized.bytesOf c.name).length < UInt64.size
      rwa [hc]
  | _ => exact hplain _ fun _ => ⟨rfl, rfl⟩

/-- A scalar is spelled by at least one byte. -/
theorem length_encode_pos (v : Scalar) : 0 < v.encode.length := by
  have hn (n : Nat) := Varint.length_encode_pos n
  have hs (n : Int) : 0 < (Varint.encodeSigned n).length := Varint.length_encode_pos _
  have hb (b : List UInt8) : 0 < (Sized.encodeBytes b).length :=
    Nat.lt_of_le_of_lt (Nat.zero_le _) (length_lt_encodeBytes b)
  cases v with
  | uuid v => rw [encode, v.length_eq]; omega
  | int v => exact hs _
  | long v => exact hs _
  | char v => exact hn _
  | string v => exact hb _
  | bigInteger v => exact hb _
  | charset v => exact hb _
  | bytes v => exact hb _
  | date v => exact hs _
  | short v => rw [encode, length_bigEndianBytes]; omega
  | float v => rw [encode, length_bigEndianBytes]; omega
  | double v => rw [encode, length_bigEndianBytes]; omega
  | bool v => exact Nat.one_pos
  | byte v => exact Nat.one_pos
  | bigDecimal v => rw [encode, List.length_append]; have h := hs v.scale.toInt; omega
  | time v => rw [encode, List.length_append]; have h := hn v.seconds; omega
  | dateTime v =>
    rw [encode, List.length_append, List.length_append]
    have h := hs v.date.days
    omega
  | instant v => rw [encode, List.length_append]; have h := hs v.unixSeconds; omega
  | duration v => rw [encode, List.length_append]; have h := hs v.seconds; omega

end Scalar

end RemoteCall
