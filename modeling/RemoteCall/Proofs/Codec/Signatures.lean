import RemoteCall.Proofs.Codec.Classes

/-!
# Signatures are read back

The flags of a signature are packed eight to a byte and lose the zero bytes at the end, and a flag
beyond the bytes that are left counts as not set, so each flag is found again at its position.
The count of parameters is accepted because every type takes a byte or more.
-/

namespace RemoteCall

namespace Encoder

/-- The binary digits of packed flags are the flags. -/
theorem testBit_ofFlags (flags : List Bool) (i : Nat) :
    (ofFlags flags).testBit i = flags[i]?.getD false := by
  induction flags generalizing i with
  | nil => rw [ofFlags, Nat.zero_testBit]; rfl
  | cons flag rest ih =>
    cases i with
    | zero =>
      rw [ofFlags, Nat.testBit_zero, List.getElem?_cons_zero, Option.getD_some]
      cases flag with
      | true => exact decide_eq_true (by rw [Bool.toNat_true]; omega)
      | false => exact decide_eq_false (by rw [Bool.toNat_false]; omega)
    | succ i =>
      have hhalf : (flag.toNat + 2 * ofFlags rest) / 2 = ofFlags rest := by
        have h := flag.toNat_le
        omega
      rw [ofFlags, Nat.testBit_succ, hhalf, ih, List.getElem?_cons_succ]

/-- The binary digits of a byte of flags are eight flags. -/
theorem testBit_flagByte (flags : List Bool) {i : Nat} (hi : i < 8) :
    (ofFlags (flags.take 8)).toUInt8.toNat.testBit i = flags[i]?.getD false := by
  have hbyte : (ofFlags (flags.take 8)).toUInt8.toNat = ofFlags (flags.take 8) % 2 ^ 8 := rfl
  rw [hbyte, Nat.testBit_mod_two_pow, testBit_ofFlags, List.getElem?_take_of_lt hi,
    decide_eq_true hi, Bool.true_and]

/-- Dropping zeros at the end changes no byte, if there are zeros beyond the end. -/
theorem getD_trimmed (reversed : List UInt8) (i : Nat) :
    (reversed.dropWhile (· == 0)).reverse[i]?.getD 0 = reversed.reverse[i]?.getD 0 := by
  induction reversed with
  | nil => rfl
  | cons b rest ih =>
    rw [List.dropWhile_cons]
    split
    · rename_i hb
      rw [ih, eq_of_beq hb, List.reverse_cons]
      by_cases hi : i < rest.reverse.length
      · rw [List.getElem?_append_left hi]
      · rw [List.getElem?_append_right (Nat.le_of_not_lt hi), List.getElem?_eq_none
          (Nat.le_of_not_lt hi)]
        cases i - rest.reverse.length with
        | zero => rfl
        | succ k => rfl
    · rfl

/-- There are at most as many flag bytes as the flags fill. -/
theorem length_flagBytes_le (flags : List Bool) :
    (flagBytes flags).length ≤ (flags.length - 1) / 8 + 1 := by
  unfold flagBytes
  rw [List.length_reverse]
  refine Nat.le_trans (List.dropWhile_sublist _).length_le ?_
  exact Nat.le_of_eq (by rw [List.length_reverse, List.length_map, List.length_range])

/-- A type reference has at least one byte. -/
theorem length_typeRef_pos {s : CodecSettings} {room : Nat} {type : TypeRef} {bytes : List UInt8}
    (h : typeRef s room type = .ok bytes) : 0 < bytes.length := by
  have hpos (n : Nat) (more : List UInt8) : 0 < (Varint.encode n ++ more).length := by
    rw [List.length_append]
    exact Nat.add_pos_left (Varint.length_encode_pos n) _
  cases room with
  | zero =>
    rw [typeRef] at h
    cases h
  | succ room =>
    cases type with
    | void | any | scalar t =>
      cases h
      exact Varint.length_encode_pos _
    | collection kind | map kind =>
      cases h
      exact hpos _ _
    | array element =>
      rw [typeRef] at h
      cases he : typeRef s room element with
      | error e =>
        rw [he] at h
        cases h
      | ok inner =>
        rw [he] at h
        cases h
        exact hpos _ _
    | registered name =>
      rw [typeRef] at h
      cases hc : s.registry.classIdOf name with
      | error e =>
        rw [hc] at h
        cases h
      | ok classId =>
        rw [hc] at h
        cases h
        exact Varint.length_encode_pos _

/-- The first of several type references and the others after it. -/
theorem typeRefs_cons_eq_ok {s : CodecSettings} {room : Nat} {spec : TypeSpec}
    {rest : List TypeSpec} {bytes : List UInt8}
    (h : typeRefs s room (spec :: rest) = .ok bytes) :
    ∃ front back, typeRef s room spec.type = .ok front ∧ typeRefs s room rest = .ok back ∧
      bytes = front ++ back := by
  rw [typeRefs] at h
  cases hf : typeRef s room spec.type with
  | error e =>
    rw [hf] at h
    cases h
  | ok front =>
    cases hb : typeRefs s room rest with
    | error e =>
      rw [hf, hb] at h
      cases h
    | ok back =>
      rw [hf, hb] at h
      cases h
      exact ⟨front, back, rfl, rfl, rfl⟩

/-- Types have at least as many bytes as there are types. -/
theorem length_le_typeRefs {s : CodecSettings} {room : Nat} {specs : List TypeSpec}
    {bytes : List UInt8} (h : typeRefs s room specs = .ok bytes) :
    specs.length ≤ bytes.length := by
  induction specs generalizing bytes with
  | nil => exact Nat.zero_le _
  | cons spec rest ih =>
    obtain ⟨front, back, hf, hb, rfl⟩ := typeRefs_cons_eq_ok h
    have hfirst := length_typeRef_pos hf
    have hrest := ih hb
    rw [List.length_cons, List.length_append]
    omega

/-- The parts of a signature that was written. -/
theorem signature_eq_ok {s : CodecSettings} {sig : Signature} {bytes : List UInt8}
    (h : signature s sig = .ok bytes) :
    (∀ spec ∈ sig.returns :: sig.params, spec.isValid = true) ∧
    ∃ types, typeRefs s s.maxDepth (sig.returns :: sig.params) = .ok types ∧
      bytes = Varint.encode sig.params.length ++
        Sized.encodeBytes (flagBytes ((sig.returns :: sig.params).map (·.isPrimitive))) ++
        types := by
  rw [signature] at h
  dsimp only at h
  cases hi : invalidSpec? (sig.returns :: sig.params) with
  | some spec =>
    rw [hi] at h
    cases h
  | none =>
    rw [hi] at h
    have hvalid : ∀ spec ∈ sig.returns :: sig.params, spec.isValid = true := by
      intro spec hmem
      have hnot := List.find?_eq_none.mp hi spec hmem
      simpa only [Bool.not_eq_true', Bool.not_eq_false] using hnot
    cases ht : typeRefs s s.maxDepth (sig.returns :: sig.params) with
    | error e =>
      rw [ht] at h
      cases h
    | ok types =>
      rw [ht] at h
      cases h
      exact ⟨hvalid, types, rfl, rfl⟩

/-- A signature has more bytes than parameters. -/
theorem length_params_lt_signature {s : CodecSettings} {sig : Signature} {bytes : List UInt8}
    (h : signature s sig = .ok bytes) : sig.params.length < bytes.length := by
  obtain ⟨-, types, ht, rfl⟩ := signature_eq_ok h
  have hcount := length_le_typeRefs ht
  simp only [List.length_append, List.length_cons] at hcount ⊢
  omega

/-- Types can be written if each can. -/
theorem exists_typeRefs {s : CodecSettings} {room : Nat} {specs : List TypeSpec}
    (h : ∀ spec ∈ specs, ∃ bytes, typeRef s room spec.type = .ok bytes) :
    ∃ bytes, typeRefs s room specs = .ok bytes := by
  induction specs with
  | nil => exact ⟨[], rfl⟩
  | cons spec rest ih =>
    obtain ⟨front, hfront⟩ := h spec List.mem_cons_self
    obtain ⟨back, hback⟩ := ih fun d hd => h d (List.mem_cons_of_mem spec hd)
    rw [typeRefs, hfront, hback]
    exact ⟨front ++ back, rfl⟩

/-- A signature can be written if its flags are on types that carry them and its types can. -/
theorem exists_signature {s : CodecSettings} {sig : Signature}
    (hvalid : ∀ spec ∈ sig.returns :: sig.params, spec.isValid = true)
    (h : ∀ spec ∈ sig.returns :: sig.params, ∃ bytes,
      typeRef s s.maxDepth spec.type = .ok bytes) : ∃ bytes, signature s sig = .ok bytes := by
  obtain ⟨types, htypes⟩ := exists_typeRefs h
  have hnone : invalidSpec? (sig.returns :: sig.params) = none :=
    List.find?_eq_none.mpr fun spec hmem => by simp [hvalid spec hmem]
  rw [signature]
  dsimp only
  rw [hnone, htypes]
  exact ⟨_, rfl⟩

end Encoder

namespace Decoder

/-- A flag is found again at its position. -/
theorem flagAt_flagBytes {flags : List Bool} {i : Nat} (hi : i < flags.length) :
    flagAt (Encoder.flagBytes flags) i = flags[i] := by
  have hmod : i % 8 < 8 := Nat.mod_lt i (by decide)
  have hrow : i / 8 < (flags.length - 1) / 8 + 1 := by omega
  unfold flagAt Encoder.flagBytes
  rw [Encoder.getD_trimmed, List.reverse_reverse, List.getElem?_map, List.getElem?_range hrow]
  change (Encoder.ofFlags ((flags.drop (8 * (i / 8))).take 8)).toUInt8.toNat.testBit (i % 8) = _
  rw [Encoder.testBit_flagByte _ hmod, List.getElem?_drop, Nat.div_add_mod,
    List.getElem?_eq_getElem hi,
    Option.getD_some]

/-- A type specification is taken back under its flag. -/
theorem typeSpec_takes {s : CodecSettings} (hs : s.registry.Regular) {spec : TypeSpec}
    (hvalid : spec.isValid = true) (hvoid : spec.type.hasVoidArray = false) {bytes : List UInt8}
    (h : Encoder.typeRef s s.maxDepth spec.type = .ok bytes) :
    (typeSpec s spec.isPrimitive).Takes bytes spec := by
  refine (typeRef_takes hs spec.type h hvoid).andThen ?_
  change (if spec.isValid = true then _ else _ : Reader TypeSpec).Takes [] spec
  rw [if_pos hvalid]
  exact .pure spec

/-- Parameters are taken back in a row. -/
theorem params_takes {s : CodecSettings} (hs : s.registry.Regular) {flags : List UInt8}
    {specs : List TypeSpec} (hvalid : ∀ spec ∈ specs, spec.isValid = true)
    (hvoid : ∀ spec ∈ specs, spec.type.hasVoidArray = false) {position : Nat}
    (hflags : ∀ i (hi : i < specs.length), flagAt flags (position + i) = specs[i].isPrimitive)
    {bytes : List UInt8} (h : Encoder.typeRefs s s.maxDepth specs = .ok bytes) :
    (params s flags specs.length position).Takes bytes specs := by
  induction specs generalizing position bytes with
  | nil =>
    cases h
    exact .pure []
  | cons spec rest ih =>
    obtain ⟨front, back, hfront, hback, rfl⟩ := Encoder.typeRefs_cons_eq_ok h
    have hmem : spec ∈ spec :: rest := List.mem_cons_self
    have hflag : flagAt flags position = spec.isPrimitive := hflags 0 (Nat.succ_pos _)
    rw [List.length_cons, params, hflag]
    refine (typeSpec_takes hs (hvalid spec hmem) (hvoid spec hmem) hfront).bind ?_
    refine (ih (fun d hd => hvalid d (List.mem_cons_of_mem spec hd))
      (fun d hd => hvoid d (List.mem_cons_of_mem spec hd)) (fun i hi => ?_) hback).andThen (.pure _)
    have hnext := hflags (i + 1) (Nat.succ_lt_succ hi)
    rwa [Nat.add_assoc, Nat.add_comm 1 i]

/-- Behind its count and its flags a signature is its types, each read under its own flag. -/
theorem signature_eq_types {s : CodecSettings} {sig : Signature} {bytes : List UInt8}
    (h : Encoder.signature s sig = .ok bytes) (hparams : sig.params.length < UInt64.size) :
    ∃ flags types, Encoder.typeRefs s s.maxDepth (sig.returns :: sig.params) = .ok types ∧
      flagAt flags 0 = sig.returns.isPrimitive ∧
      (∀ i (hi : i < sig.params.length), flagAt flags (1 + i) = sig.params[i].isPrimitive) ∧
      ∀ rest, signature s (bytes ++ rest) = (do
        let returns ← typeSpec s (flagAt flags 0)
        return ⟨returns, ← params s flags sig.params.length 1⟩ : Reader Signature)
          (types ++ rest) := by
  obtain ⟨-, types, ht, rfl⟩ := Encoder.signature_eq_ok h
  have hcount := Encoder.length_le_typeRefs ht
  generalize hflags : (sig.returns :: sig.params).map (·.isPrimitive) = flags
  have hflagsLength : flags.length = sig.params.length + 1 := by
    rw [← hflags, List.length_map, List.length_cons]
  have hat (i : Nat) (hi : i < (sig.returns :: sig.params).length) :
      flagAt (Encoder.flagBytes flags) i = (sig.returns :: sig.params)[i].isPrimitive := by
    have hi' : i < flags.length := by
      rw [hflagsLength]
      exact hi
    rw [flagAt_flagBytes hi']
    simp only [← hflags, List.getElem_map]
  have hle := Encoder.length_flagBytes_le flags
  have h64 : UInt64.size = 18446744073709551616 := rfl
  rw [List.length_cons] at hcount
  refine ⟨Encoder.flagBytes flags, types, ht, hat 0 (Nat.succ_pos _), fun i hi => ?_, ?_⟩
  · rw [Nat.add_comm]
    exact hat (i + 1) (Nat.succ_lt_succ hi)
  · intro rest
    have hfit : sig.params.length * max 1 1 ≤
        (Sized.encodeBytes (Encoder.flagBytes flags) ++ (types ++ rest)).length := by
      rw [List.length_append, List.length_append, Nat.max_self, Nat.mul_one]
      omega
    rw [List.append_assoc, List.append_assoc, signature,
      Reader.bind_of_ok (Sized.readCount_encode hparams hfit),
      Reader.bind_of_ok (Sized.readBytes_takes (by omega) (types ++ rest)), if_neg (by omega)]

/-- A signature is taken back. -/
theorem signature_takes {s : CodecSettings} (hs : s.registry.Regular) {sig : Signature}
    (hvoid : ∀ spec ∈ sig.returns :: sig.params, spec.type.hasVoidArray = false)
    {bytes : List UInt8} (h : Encoder.signature s sig = .ok bytes)
    (hparams : sig.params.length < UInt64.size) : (signature s).Takes bytes sig := by
  obtain ⟨hvalid, -⟩ := Encoder.signature_eq_ok h
  obtain ⟨flags, types, ht, hreturns, hflags, hread⟩ := signature_eq_types h hparams
  obtain ⟨front, back, hf, hb, rfl⟩ := Encoder.typeRefs_cons_eq_ok ht
  have hmem : sig.returns ∈ sig.returns :: sig.params := List.mem_cons_self
  intro rest
  rw [hread, hreturns]
  refine (typeSpec_takes hs (hvalid _ hmem) (hvoid _ hmem) hf).bind ?_ rest
  exact (params_takes hs (fun d hd => hvalid d (List.mem_cons_of_mem _ hd))
    (fun d hd => hvoid d (List.mem_cons_of_mem _ hd)) hflags hb).andThen (.pure _)

/-- What a type specification that was read keeps to. -/
structure SpecAccepted (s : CodecSettings) (spec : TypeSpec) : Prop where
  valid : spec.isValid = true
  noVoidArray : spec.type.hasVoidArray = false
  written : ∃ bytes, Encoder.typeRef s s.maxDepth spec.type = .ok bytes

/-- A type specification that is read can be written. -/
theorem typeSpec_gives {s : CodecSettings} (hs : s.registry.Regular) (isPrimitive : Bool) :
    Reader.Gives (SpecAccepted s) (typeSpec s isPrimitive) :=
  .bind (typeRef_gives hs s.maxDepth) fun _ htype =>
    .ite (fun hvalid => .pure ⟨hvalid, htype.1, htype.2⟩) fun _ => .throw _

/-- Parameters that are read are as many as announced, and each keeps to what a type specification
that is read keeps to. -/
theorem params_gives {s : CodecSettings} {P : TypeSpec → Prop}
    (hspec : ∀ isPrimitive, Reader.Gives P (typeSpec s isPrimitive)) (flags : List UInt8)
    (count position : Nat) :
    Reader.Gives (fun specs => specs.length = count ∧ ∀ spec ∈ specs, P spec)
      (params s flags count position) := by
  induction count generalizing position with
  | zero => exact .pure ⟨rfl, by simp⟩
  | succ count ih =>
    refine .bind (hspec _) fun spec hspec => ?_
    refine .bind (ih (position + 1)) fun rest hrest => .pure ⟨?_, ?_⟩
    · rw [List.length_cons, hrest.1]
    · exact List.forall_mem_cons.mpr ⟨hspec, hrest.2⟩

/-- A signature that is read can be written, and is taken back from what is written. -/
theorem signature_gives {s : CodecSettings} (hs : s.registry.Regular) :
    Reader.Gives (fun sig => ∃ bytes, Encoder.signature s sig = .ok bytes ∧
      (signature s).Takes bytes sig) (signature s) := by
  refine .bind (Sized.readCount_gives 1) fun count hcount => .bind_any fun flags => ?_
  refine .ite (fun _ => .throw _) fun _ => .bind (typeSpec_gives hs _) fun returns hreturns => ?_
  refine .bind (params_gives (typeSpec_gives hs) flags count 1) fun params hparams => .pure ?_
  have hall : ∀ spec ∈ returns :: params, SpecAccepted s spec :=
    List.forall_mem_cons.mpr ⟨hreturns, hparams.2⟩
  obtain ⟨bytes, hbytes⟩ : ∃ bytes, Encoder.signature s ⟨returns, params⟩ = .ok bytes :=
    Encoder.exists_signature (fun spec hmem => (hall spec hmem).valid)
      fun spec hmem => (hall spec hmem).written
  refine ⟨bytes, hbytes, signature_takes hs (fun spec hmem => (hall spec hmem).noVoidArray)
    hbytes ?_⟩
  rwa [hparams.1]

end Decoder

end RemoteCall
