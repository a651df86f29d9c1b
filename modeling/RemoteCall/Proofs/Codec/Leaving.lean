import RemoteCall.Codec.Decode
import RemoteCall.Proofs.Wire.Reading

/-!
# What readers leave

A reader takes from the front of its input and does not look behind what it takes. So what it leaves
is an end of its input, and if there is more input behind, it gives the same and leaves that much
more. This holds of the readers of the wire one by one, and composes along their sequencing. A
declared count is checked against everything that is left, but only to refuse it, and more input is
refused less often.
-/

namespace RemoteCall

namespace Reader

/-- Whenever the reader succeeds, it leaves an end of its input. -/
def Leaves (r : Reader α) : Prop := ∀ input a rest, r input = .ok (a, rest) → rest <:+ input

/-- A reader that takes from the front of its input. -/
structure FromFront (r : Reader α) : Prop where
  /-- What is left is an end of the input. -/
  leaves : Leaves r
  /-- With more input behind, the same is given and the more is left too. -/
  extended : ∀ {input a rest}, r input = .ok (a, rest) → ∀ more,
    r (input ++ more) = .ok (a, rest ++ more)

namespace FromFront

/-- Readers in sequence. -/
theorem bind {r : Reader α} {f : α → Reader β} (hr : FromFront r) (hf : ∀ a, FromFront (f a)) :
    FromFront (r >>= f) where
  leaves := by
    intro input b rest h
    obtain ⟨a, middle, ha, h⟩ := bind_eq_ok h
    exact ((hf a).leaves _ _ _ h).trans (hr.leaves _ _ _ ha)
  extended := by
    intro input b rest h more
    obtain ⟨a, middle, ha, h⟩ := bind_eq_ok h
    rw [bind_of_ok (hr.extended ha more), (hf a).extended h more]

/-- A known datum leaves everything. -/
theorem pure (a : α) : FromFront (Pure.pure a : Reader α) where
  leaves := by
    intro input b rest h
    cases h
    exact List.suffix_rfl
  extended := by
    intro input b rest h more
    cases h
    rfl

/-- A failure leaves nothing to ask for. -/
theorem throw (e : CodecError) : FromFront (throw e : Reader α) where
  leaves := fun _ _ _ h => by cases h
  extended := fun h => by cases h

/-- A check leaves everything. -/
theorem lift (x : Except CodecError α) : FromFront (liftM x : Reader α) := by
  cases x with
  | error e => exact .throw e
  | ok a => exact .pure a

/-- Either branch takes from the front. -/
theorem ite {p : Prop} [Decidable p] {r q : Reader α} (hr : FromFront r) (hq : FromFront q) :
    FromFront (if p then r else q) := by
  split
  · exact hr
  · exact hq

/-- A datum that is only rewrapped. -/
theorem map (f : α → β) {r : Reader α} (hr : FromFront r) : FromFront (f <$> r) := by
  rw [← bind_pure_comp]
  exact hr.bind fun a => .pure (f a)

end FromFront

/-- A byte is taken from the front. -/
theorem byte_fromFront : FromFront byte where
  leaves := by
    intro input b rest h
    cases input with
    | nil => cases h
    | cons first tail =>
      cases h
      exact List.suffix_cons _ _
  extended := by
    intro input b rest h more
    cases input with
    | nil => cases h
    | cons first tail =>
      cases h
      rfl

/-- So many bytes are taken if there are as many. -/
theorem take_eq_ok {count : Nat} {input bytes rest : List UInt8}
    (h : take count input = .ok (bytes, rest)) :
    count ≤ input.length ∧ bytes = input.take count ∧ rest = input.drop count := by
  simp only [take] at h
  split at h
  case isTrue hlength =>
    cases h
    rw [List.length_take] at hlength
    exact ⟨by omega, rfl, rfl⟩
  case isFalse => cases h

/-- A number of bytes is taken from the front. -/
theorem take_fromFront (count : Nat) : FromFront (take count) where
  leaves := by
    intro input bytes rest h
    obtain ⟨_, _, rfl⟩ := take_eq_ok h
    exact List.drop_suffix count input
  extended := by
    intro input bytes rest h more
    obtain ⟨hle, rfl, rfl⟩ := take_eq_ok h
    have hlength : ((input ++ more).take count).length = count := by
      rw [List.length_take, List.length_append]
      omega
    simp only [take]
    rw [if_pos hlength, List.take_append_of_le_length hle, List.drop_append_of_le_length hle]

/-- A number of fixed width is taken from the front. -/
theorem bigEndian_fromFront (width : Nat) : FromFront (bigEndian width) :=
  .map _ (take_fromFront width)

end Reader

open Reader

namespace Varint

/-- A number of variable length is taken from the front: it shows itself where it ends. -/
theorem readGroups_fromFront (groups : Nat) : FromFront (readGroups groups) := by
  induction groups with
  | zero => exact .throw _
  | succ groups ih =>
    have hlast (b : UInt8) : FromFront (if b.toNat < 128 then return b.toNat else do
        let high ← readGroups groups
        return b.toNat % 128 + 128 * high) := .ite (.pure _) (ih.bind fun high => .pure _)
    exact byte_fromFront.bind fun b => .ite (.throw _) (hlast b)

/-- So is a 64-bit number. -/
theorem read_fromFront : FromFront read := readGroups_fromFront 10

/-- So is a 32-bit number. -/
theorem read32_fromFront : FromFront read32 :=
  read_fromFront.bind fun _ => .ite (.pure _) (.throw _)

/-- So is a signed 64-bit number. -/
theorem readSigned_fromFront : FromFront readSigned := .map _ read_fromFront

/-- So is a signed 32-bit number. -/
theorem readSigned32_fromFront : FromFront readSigned32 :=
  readSigned_fromFront.bind fun _ => .ite (.pure _) (.throw _)

end Varint

namespace Sized

/-- A count is accepted if its elements at their least size fit into what is left. -/
theorem readCount_eq_ok {least n : Nat} {input rest : List UInt8}
    (h : readCount least input = .ok (n, rest)) :
    Varint.read input = .ok (n, rest) ∧ n * max least 1 ≤ rest.length := by
  obtain ⟨size, middle, hsize, h⟩ := bind_eq_ok h
  change (if size * max least 1 > middle.length ∧ 0 < size then _ else _ : Reader Nat) middle =
    _ at h
  split at h
  case isTrue => cases h
  case isFalse hfit =>
    cases h
    refine ⟨hsize, ?_⟩
    cases n with
    | zero => omega
    | succ n => omega

/-- A count is taken from the front, and more input behind it never makes it too large. -/
theorem readCount_fromFront (least : Nat) : FromFront (readCount least) where
  leaves := by
    intro input n rest h
    exact Varint.read_fromFront.leaves _ _ _ (readCount_eq_ok h).1
  extended := by
    intro input n rest h more
    obtain ⟨hread, hfit⟩ := readCount_eq_ok h
    refine readCount_of_read (Varint.read_fromFront.extended hread more) ?_
    rw [List.length_append]
    omega

/-- Bytes behind their count are taken from the front. -/
theorem readBytes_fromFront : FromFront readBytes :=
  (readCount_fromFront 1).bind fun count => take_fromFront count

/-- A text behind the count of its bytes is taken from the front. -/
theorem readText_fromFront : FromFront readText :=
  readBytes_fromFront.bind fun bytes => .lift (textOf bytes)

/-- So is a text that may be missing. -/
theorem readOptionalText_fromFront : FromFront readOptionalText := by
  refine Varint.read_fromFront.bind fun tag => .ite (.pure _) ?_
  refine (take_fromFront _).bind fun bytes => ?_
  exact .bind (.lift _) fun text => .pure _

end Sized

namespace Scalar

/-- A demand takes nothing. -/
theorem demand_fromFront (subject : Subject) (reading : String) (found : Option α) :
    FromFront (demand subject reading found) := by
  cases found with
  | none => exact .throw _
  | some a => exact .pure a

/-- A truth value is taken from the front. -/
theorem readBool_fromFront : FromFront readBool :=
  byte_fromFront.bind fun _ => .ite (.pure _) (.ite (.pure _) (.throw _))

/-- A character is taken from the front. -/
theorem readChar_fromFront : FromFront readChar :=
  Varint.read32_fromFront.bind fun _ => .ite (.pure _) (.throw _)

/-- A big integer is taken from the front. -/
theorem readBigInteger_fromFront : FromFront readBigInteger := .map _ Sized.readBytes_fromFront

/-- A date is taken from the front. -/
theorem readDate_fromFront : FromFront readDate :=
  Varint.readSigned32_fromFront.bind fun _ => demand_fromFront _ _ _

/-- A time of day is taken from the front. -/
theorem readTime_fromFront : FromFront readTime :=
  Varint.read32_fromFront.bind fun _ => Varint.read32_fromFront.bind fun _ => demand_fromFront _ _ _

/-- An instant is taken from the front. -/
theorem readInstant_fromFront : FromFront readInstant :=
  Varint.readSigned_fromFront.bind fun _ =>
    Varint.read32_fromFront.bind fun _ => demand_fromFront _ _ _

/-- A duration is taken from the front. -/
theorem readDuration_fromFront : FromFront readDuration :=
  Varint.readSigned_fromFront.bind fun _ =>
    Varint.readSigned32_fromFront.bind fun _ => demand_fromFront _ _ _

/-- A UUID is taken from the front. -/
theorem readUuid_fromFront : FromFront readUuid := by
  refine (take_fromFront 16).bind fun bytes => ?_
  split
  · exact .pure _
  · exact .throw _

/-- A scalar of any type is taken from the front. -/
theorem read_fromFront (t : ScalarType) : FromFront (read t) := by
  cases t with
  | bool => exact .map _ readBool_fromFront
  | byte => exact .map _ byte_fromFront
  | short => exact .map _ (bigEndian_fromFront 2)
  | int => exact .map _ Varint.readSigned32_fromFront
  | long => exact .map _ Varint.readSigned_fromFront
  | float => exact .map _ (bigEndian_fromFront 4)
  | double => exact .map _ (bigEndian_fromFront 8)
  | char => exact .map _ readChar_fromFront
  | string => exact .map _ Sized.readText_fromFront
  | bigInteger => exact .map _ readBigInteger_fromFront
  | bigDecimal =>
    exact Varint.readSigned32_fromFront.bind fun _ => readBigInteger_fromFront.bind fun _ => .pure _
  | uuid => exact .map _ readUuid_fromFront
  | date => exact .map _ readDate_fromFront
  | time => exact .map _ readTime_fromFront
  | dateTime => exact readDate_fromFront.bind fun _ => readTime_fromFront.bind fun _ => .pure _
  | instant => exact .map _ readInstant_fromFront
  | duration => exact .map _ readDuration_fromFront
  | charset => exact Sized.readText_fromFront.bind fun _ => .bind (.lift _) fun _ => .pure _
  | bytes => exact .map _ Sized.readBytes_fromFront

end Scalar

namespace Decoder

variable (s : CodecSettings)

/-- A type is taken from the front. -/
theorem typeRef_fromFront (room : Nat) : FromFront (typeRef s room) := by
  induction room with
  | zero => exact .throw _
  | succ room ih =>
    refine Varint.read32_fromFront.bind fun id => .ite (.pure _) (.ite (.pure _) ?_)
    refine .ite ?_ (.ite ?_ ?_)
    · exact byte_fromFront.bind fun _ => .map _ (Scalar.demand_fromFront _ _ _)
    · exact byte_fromFront.bind fun _ => .map _ (Scalar.demand_fromFront _ _ _)
    · refine .ite (ih.bind fun element => .bind (.lift _) fun _ => .pure _) (.ite ?_ ?_)
      · exact .bind (.lift _) fun _ => .pure _
      · cases ScalarType.ofClassId? id with
        | none => exact .throw _
        | some t => exact .pure _

/-- A comparator is taken from the front. -/
theorem comparator_fromFront : FromFront (comparator s) := by
  have hcheck (c : Comparator) : FromFront (do
      s.comparators.check c
      return c : Reader Comparator) := .bind (.lift _) fun _ => .pure _
  refine byte_fromFront.bind fun id => .ite ?_ ?_
  · exact .bind (.map _ Sized.readText_fromFront) hcheck
  · exact .bind (Scalar.demand_fromFront _ _ _) hcheck

/-- The type of a parameter or result is taken from the front. -/
theorem typeSpec_fromFront (isPrimitive : Bool) : FromFront (typeSpec s isPrimitive) :=
  (typeRef_fromFront s s.maxDepth).bind fun _ => .ite (.pure _) (.throw _)

/-- Parameters are taken from the front. -/
theorem params_fromFront (flags : List UInt8) (count position : Nat) :
    FromFront (params s flags count position) := by
  induction count generalizing position with
  | zero => exact .pure _
  | succ count ih =>
    exact (typeSpec_fromFront s _).bind fun spec => (ih (position + 1)).bind fun rest => .pure _

/-- A signature is taken from the front. -/
theorem signature_fromFront : FromFront (signature s) := by
  refine (Sized.readCount_fromFront 1).bind fun count => ?_
  refine Sized.readBytes_fromFront.bind fun flags => ?_
  refine .ite (.throw _) ((typeSpec_fromFront s _).bind fun returns => ?_)
  exact (params_fromFront s flags count 1).bind fun params => .pure _

/-- The tag of an envelope is taken from the front. -/
theorem envelopeTag_fromFront (classId : Nat) (expected : Expected) :
    FromFront (envelopeTag classId expected) :=
  Varint.read32_fromFront.bind fun _ => .ite (.throw _) (.pure _)

/-- A status is taken from the front. -/
theorem status_fromFront : FromFront status :=
  Varint.read32_fromFront.bind fun _ => Scalar.demand_fromFront _ _ _

end Decoder

end RemoteCall
