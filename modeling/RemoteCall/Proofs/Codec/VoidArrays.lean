import RemoteCall.Proofs.Codec.Declared
import RemoteCall.Proofs.Codec.UserClasses

/-!
# Signatures and arrays of no value

A signature is written if its flags are on types that carry them, its types nest no deeper than the
limit and its names are registered: the writer does not ask what its arrays are made of. The reader
does, since no array of no value can ever be built. So a signature comes back whole, with all of its
flags, unless an array of no value stands somewhere in its types, and then the whole request is
refused for the element type of that array.
-/

namespace RemoteCall

namespace TypeRef

/-- How deep a type nests: one more than the type of its elements. -/
def nesting : TypeRef → Nat
  | array element => element.nesting + 1
  | _ => 1

/-- Every type takes a level. -/
theorem nesting_pos (type : TypeRef) : 0 < type.nesting := by
  cases type <;> exact Nat.succ_pos _

/-- An array of no value is one itself, or has one in its element type. -/
theorem hasVoidArray_array_eq_true {element : TypeRef} :
    (array element).hasVoidArray = true ↔ element = void ∨ element.hasVoidArray = true := by
  cases element <;> simp [hasVoidArray]

end TypeRef

/-- A name leads to a number exactly if a class is registered under it. -/
theorem Registry.exists_classIdOf_iff {r : Registry} {name : String} :
    (∃ classId, r.classIdOf name = .ok classId) ↔ ∃ shape, r.Declares name shape := by
  constructor
  · rintro ⟨classId, h⟩
    obtain ⟨c, hc, hname, -⟩ := classIdOf_eq_ok h
    exact ⟨c.shape, c, hc, hname, rfl⟩
  · rintro ⟨shape, c, hc, rfl, -⟩
    unfold classIdOf
    cases hb : r.byName? c.name with
    | none => exact absurd rfl (name_ne_of_byName?_eq_none hb c hc)
    | some d => exact ⟨d.classId, rfl⟩

namespace Encoder

variable {s : CodecSettings}

/-- A check whose result is only rewrapped succeeds exactly if the check does. -/
theorem exists_rewrapped_iff {x : Except CodecError α} {f : α → β} :
    (∃ b, (x >>= fun a => pure (f a)) = .ok b) ↔ ∃ a, x = .ok a := by
  cases x with
  | error e =>
    constructor
    · rintro ⟨_, h⟩
      cases h
    · rintro ⟨_, h⟩
      cases h
  | ok a => exact ⟨fun _ => ⟨a, rfl⟩, fun _ => ⟨f a, rfl⟩⟩

/-- A type reference is written exactly if there is room for it and its names are registered. -/
theorem exists_typeRef_iff {type : TypeRef} {room : Nat} :
    (∃ bytes, typeRef s room type = .ok bytes) ↔
      type.nesting ≤ room ∧ type.Declared s.registry := by
  induction room generalizing type with
  | zero =>
    constructor
    · rintro ⟨_, h⟩
      rw [typeRef] at h
      cases h
    · exact fun h => absurd h.1 (Nat.not_le_of_gt type.nesting_pos)
  | succ room ih =>
    have hroom : 1 ≤ room + 1 := Nat.succ_le_succ (Nat.zero_le room)
    cases type with
    | void | any | scalar | collection | map =>
      exact ⟨fun _ => ⟨hroom, trivial⟩, fun _ => ⟨_, rfl⟩⟩
    | array element =>
      rw [typeRef, exists_rewrapped_iff, ih, TypeRef.nesting, Nat.succ_le_succ_iff]
      rfl
    | registered name =>
      rw [typeRef, exists_rewrapped_iff, Registry.exists_classIdOf_iff]
      exact (and_iff_right hroom).symm

/-- Each of several types that were written was written. -/
theorem exists_typeRef_of_typeRefs {room : Nat} {specs : List TypeSpec} {bytes : List UInt8}
    (h : typeRefs s room specs = .ok bytes) :
    ∀ spec ∈ specs, ∃ front, typeRef s room spec.type = .ok front := by
  induction specs generalizing bytes with
  | nil =>
    intro spec hmem
    cases hmem
  | cons first rest ih =>
    obtain ⟨front, back, hfront, hback, -⟩ := typeRefs_cons_eq_ok h
    intro spec hmem
    rcases List.mem_cons.mp hmem with rfl | hmem
    · exact ⟨front, hfront⟩
    · exact ih hback spec hmem

/-- A signature is written exactly if its flags are on types that carry them, its types nest within
the limit and its names are registered. -/
theorem exists_signature_iff {sig : Signature} :
    (∃ bytes, signature s sig = .ok bytes) ↔
      ∀ spec ∈ sig.returns :: sig.params, spec.isValid = true ∧
        spec.type.nesting ≤ s.maxDepth ∧ spec.type.Declared s.registry := by
  constructor
  · rintro ⟨bytes, h⟩ spec hmem
    obtain ⟨hvalid, types, htypes, -⟩ := signature_eq_ok h
    exact ⟨hvalid spec hmem, exists_typeRef_iff.mp (exists_typeRef_of_typeRefs htypes spec hmem)⟩
  · intro h
    exact exists_signature (fun spec hmem => (h spec hmem).1)
      fun spec hmem => exists_typeRef_iff.mpr (h spec hmem).2

end Encoder

/-- Behind these bytes the reader fails with this error, whatever follows them. -/
def Reader.Refuses (r : Reader α) (bytes : List UInt8) (e : CodecError) : Prop :=
  ∀ rest, r (bytes ++ rest) = .error e

namespace Reader

variable {r : Reader α} {f : α → Reader β} {front back : List UInt8} {a : α} {e : CodecError}

/-- A reader fails as its first step does. -/
theorem bind_of_error {input : List UInt8} (h : r input = .error e) :
    (r >>= f) input = .error e := by
  change Except.bind (r input) (fun p => f p.1 p.2) = _
  rw [h]
  rfl

/-- What the first step refuses is refused. -/
theorem Refuses.bind (h : r.Refuses front e) : (r >>= f).Refuses front e :=
  fun rest => bind_of_error (h rest)

/-- What is refused is refused whatever stands behind it. -/
theorem Refuses.append (h : r.Refuses front e) (back : List UInt8) :
    r.Refuses (front ++ back) e := by
  intro rest
  rw [List.append_assoc]
  exact h (back ++ rest)

/-- What is refused behind what the first step takes is refused. -/
theorem Takes.bind_refuses (h : r.Takes front a) (hf : (f a).Refuses back e) :
    (r >>= f).Refuses (front ++ back) e := by
  intro rest
  rw [List.append_assoc, bind_of_ok (h (back ++ rest))]
  exact hf rest

/-- What is refused at the place where the first step ends is refused. -/
theorem Takes.andThen_refuses (h : r.Takes front a) (hf : (f a).Refuses [] e) :
    (r >>= f).Refuses front e := by
  have hall := h.bind_refuses hf
  rwa [List.append_nil] at hall

end Reader

namespace Decoder

open Reader

variable {s : CodecSettings}

/-- The refusal of an array of no value. -/
def voidArrayError : CodecError := .invalidValue .arrayElementType TypeRef.void.name

/-- A type with an array of no value in it is written, and not read. -/
theorem typeRef_refuses (hs : s.registry.Regular) {type : TypeRef}
    (hv : type.hasVoidArray = true) {room : Nat} {bytes : List UInt8}
    (hw : Encoder.typeRef s room type = .ok bytes) :
    (typeRef s room).Refuses bytes voidArrayError := by
  induction type generalizing room bytes with
  | void | any | scalar | collection | map | registered => cases hv
  | array element ih =>
    cases room with
    | zero => cases hw
    | succ room =>
      rw [Encoder.typeRef] at hw
      cases he : Encoder.typeRef s room element with
      | error e =>
        rw [he] at hw
        cases hw
      | ok inner =>
        rw [he] at hw
        cases hw
        obtain ⟨hvoid, hvalues, hinstances, hcollection, hmap, -, hany, hbase⟩ := ClassId.numbers
        have h32 : UInt32.size = 4294967296 := rfl
        have hid := ClassId.ofArray_cases element
        refine (Varint.read32_takes (by omega)).bind_refuses ?_
        rw [if_neg (by omega), if_neg (by omega), if_neg (by omega), if_neg (by omega), if_pos hid]
        by_cases hin : element.hasVoidArray = true
        · exact (ih hin he).bind
        · obtain rfl := (TypeRef.hasVoidArray_array_eq_true.mp hv).resolve_right hin
          exact (typeRef_takes hs .void he rfl).andThen_refuses fun _ => rfl

/-- A specification of such a type is refused. -/
theorem typeSpec_refuses (hs : s.registry.Regular) {spec : TypeSpec}
    (hv : spec.type.hasVoidArray = true) {bytes : List UInt8}
    (hw : Encoder.typeRef s s.maxDepth spec.type = .ok bytes) (isPrimitive : Bool) :
    (typeSpec s isPrimitive).Refuses bytes voidArrayError :=
  (typeRef_refuses hs hv hw).bind

/-- Parameters are refused at the first of such a type. -/
theorem params_refuses (hs : s.registry.Regular) {flags : List UInt8} {specs : List TypeSpec}
    (hvalid : ∀ spec ∈ specs, spec.isValid = true)
    (hvoid : ∃ spec ∈ specs, spec.type.hasVoidArray = true) {position : Nat}
    (hflags : ∀ i (hi : i < specs.length), flagAt flags (position + i) = specs[i].isPrimitive)
    {bytes : List UInt8} (hw : Encoder.typeRefs s s.maxDepth specs = .ok bytes) :
    (params s flags specs.length position).Refuses bytes voidArrayError := by
  induction specs generalizing position bytes with
  | nil => simp at hvoid
  | cons spec rest ih =>
    obtain ⟨front, back, hfront, hback, rfl⟩ := Encoder.typeRefs_cons_eq_ok hw
    have hflag : flagAt flags position = spec.isPrimitive := hflags 0 (Nat.succ_pos _)
    rw [List.length_cons, params, hflag]
    by_cases hfirst : spec.type.hasVoidArray = true
    · exact ((typeSpec_refuses hs hfirst hfront _).bind).append back
    · have hrest : ∃ d ∈ rest, d.type.hasVoidArray = true := by
        obtain ⟨d, hd, hdv⟩ := hvoid
        rcases List.mem_cons.mp hd with rfl | hd
        · exact absurd hdv hfirst
        · exact ⟨d, hd, hdv⟩
      have htakes := typeSpec_takes hs (hvalid spec List.mem_cons_self)
        (eq_false_of_ne_true hfirst) hfront
      refine htakes.bind_refuses (Refuses.bind ?_)
      refine ih (fun d hd => hvalid d (List.mem_cons_of_mem _ hd)) hrest (fun i hi => ?_) hback
      have hnext := hflags (i + 1) (Nat.succ_lt_succ hi)
      rwa [Nat.add_assoc, Nat.add_comm 1 i]

/-- A signature with such a type in it is refused. -/
theorem signature_refuses (hs : s.registry.Regular) {sig : Signature}
    (hvoid : ∃ spec ∈ sig.returns :: sig.params, spec.type.hasVoidArray = true)
    {bytes : List UInt8} (h : Encoder.signature s sig = .ok bytes)
    (hparams : sig.params.length < UInt64.size) :
    (signature s).Refuses bytes voidArrayError := by
  obtain ⟨hvalid, -⟩ := Encoder.signature_eq_ok h
  obtain ⟨flags, types, ht, hreturns, hflags, hread⟩ := signature_eq_types h hparams
  obtain ⟨front, back, hf, hb, rfl⟩ := Encoder.typeRefs_cons_eq_ok ht
  intro rest
  rw [hread]
  by_cases hfirst : sig.returns.type.hasVoidArray = true
  · exact ((typeSpec_refuses hs hfirst hf _).bind).append back rest
  · have hrest : ∃ spec ∈ sig.params, spec.type.hasVoidArray = true := by
      obtain ⟨spec, hmem, hv⟩ := hvoid
      rcases List.mem_cons.mp hmem with rfl | hmem
      · exact absurd hv hfirst
      · exact ⟨spec, hmem, hv⟩
    have htakes := typeSpec_takes hs (hvalid _ List.mem_cons_self)
      (eq_false_of_ne_true hfirst) hf
    rw [hreturns]
    refine htakes.bind_refuses (Refuses.bind ?_) rest
    exact params_refuses hs (fun d hd => hvalid d (List.mem_cons_of_mem _ hd)) hrest hflags hb

/-- A step fails as the reader of the wire in it does. -/
theorem wire_bind_of_error {r : Reader α} {f : α → Decoder β} {st : DecodeState} {e : CodecError}
    (h : r st.rest = .error e) : (wire r >>= f) st = .error e st := by
  change EStateM.bind (wire r) f st = _
  rw [EStateM.bind, wire, h]

/-- A request whose signature is refused is refused. -/
theorem request_refuses {r : Request} {sig back : List UInt8} {e : CodecError}
    (hservice : (Sized.bytesOf r.service).length < UInt64.size)
    (hmethod : (Sized.bytesOf r.method).length < UInt64.size)
    (hsig : (signature s).Refuses sig e) :
    run (request s) (Encoder.classTag ClassId.request ++ (Varint.encode r.id.toNat ++
      (Varint.encodeSigned r.timestamp.toInt ++ (Sized.encodeText r.service ++
      (Sized.encodeText r.method ++ (sig ++ back)))))) = .error e := by
  have htag : (envelopeTag ClassId.request .request).Takes _ () :=
    envelopeTag_takes (by decide) .request
  have hid : Varint.read.Takes _ r.id.toNat := Varint.read_takes r.id.toNat_lt
  have htime : Varint.readSigned.Takes _ r.timestamp.toInt :=
    Varint.readSigned_takes r.timestamp.le_toInt r.timestamp.toInt_lt
  rw [run, EStateM.run, request, bind_of_ok (wire_of_eq_ok (htag _)),
    bind_of_ok (wire_of_eq_ok (hid _)), bind_of_ok (wire_of_eq_ok (htime _)),
    bind_of_ok (wire_of_eq_ok (Sized.readText_takes hservice _)),
    bind_of_ok (wire_of_eq_ok (Sized.readText_takes hmethod _)),
    wire_bind_of_error (hsig back)]

end Decoder

namespace CodecSettings

variable {s : CodecSettings} {r : Request}

/-- A request without arguments is written exactly if its signature is. -/
theorem exists_encodeRequest_iff (hr : r.arguments = []) :
    (∃ bytes, s.encodeRequest r = .ok bytes) ↔
      ∃ bytes, Encoder.signature s r.signature = .ok bytes := by
  constructor
  · rintro ⟨bytes, h⟩
    obtain ⟨t, hw⟩ := Encoder.run_eq_ok h
    obtain ⟨sig, arguments, hsig, -, -⟩ := Encoder.request_eq_ok hw
    exact ⟨sig, hsig⟩
  · rintro ⟨sig, hsig⟩
    have harguments : Encoder.elements s s.maxDepth none r.arguments [] = .ok ([], []) := by
      rw [hr]
      rfl
    exact ⟨_, Encoder.run_of_ok (Encoder.request_of_parts hsig harguments)⟩

/-- A request without arguments is read back whole, or refused for an array of no value. -/
theorem decodeRequest_of_noArguments (hs : s.registry.Regular) (hr : r.arguments = [])
    {bytes : List UInt8} (h : s.encodeRequest r = .ok bytes) (hlen : bytes.length < UInt64.size) :
    ((∀ spec ∈ r.signature.returns :: r.signature.params, spec.type.hasVoidArray = false) →
      s.decodeRequest bytes = .ok r) ∧
    ((∃ spec ∈ r.signature.returns :: r.signature.params, spec.type.hasVoidArray = true) →
      s.decodeRequest bytes = .error Decoder.voidArrayError) := by
  obtain ⟨t, hw⟩ := Encoder.run_eq_ok h
  obtain ⟨sig, arguments, hsig, harguments, rfl⟩ := Encoder.request_eq_ok hw
  obtain ⟨hservice, hmethod, hparams, -⟩ := Encoder.lengths_of_request hsig hlen
  constructor
  · intro hvoid
    rw [hr] at harguments
    obtain ⟨rfl, -⟩ := Encoder.pure_eq_ok harguments
    have hread : Decoder.Takes (· = []) (Decoder.repeated (Decoder.value s) r.arguments.length) []
        r.arguments (· = []) := by
      rw [hr]
      exact .pure []
    have hcount : r.arguments.length < UInt64.size := by
      rw [hr]
      decide
    have hfit : r.arguments.length ≤ ([] : List UInt8).length := by
      rw [hr]
      exact Nat.le_refl 0
    exact Decoder.run_of_takes (Decoder.request_takes hservice hmethod
      (Decoder.signature_takes hs hvoid hsig hparams) hcount hfit hread) rfl
  · intro hvoid
    exact Decoder.request_refuses hservice hmethod
      (Decoder.signature_refuses hs hvoid hsig hparams)

end CodecSettings

/-- **Signatures come back unless they name an array of no value.** A request without arguments is
written exactly if the flags of its signature are on types that carry them, its types nest within
the limit and its names are registered. What was written is read as the same request, flags
included, exactly if no array of no value stands in its types; otherwise it is refused for one. -/
theorem signature_returned_iff {s : CodecSettings} (hs : s.registry.Registered) (r : Request)
    (hr : r.arguments = []) :
    ((∃ bytes, s.encodeRequest r = .ok bytes) ↔
      ∀ spec ∈ r.signature.returns :: r.signature.params, spec.isValid = true ∧
        spec.type.nesting ≤ s.maxDepth ∧ spec.type.Declared s.registry) ∧
    ∀ bytes, s.encodeRequest r = .ok bytes → bytes.length < UInt64.size →
      (s.decodeRequest bytes = .ok r ↔
        ∀ spec ∈ r.signature.returns :: r.signature.params, spec.type.hasVoidArray = false) ∧
      ((∃ spec ∈ r.signature.returns :: r.signature.params, spec.type.hasVoidArray = true) →
        s.decodeRequest bytes = .error (.invalidValue .arrayElementType "void")) := by
  refine ⟨(CodecSettings.exists_encodeRequest_iff hr).trans Encoder.exists_signature_iff, ?_⟩
  intro bytes h hlen
  obtain ⟨hreturned, hrefused⟩ := CodecSettings.decodeRequest_of_noArguments hs.regular hr h hlen
  refine ⟨⟨fun hread spec hmem => ?_, hreturned⟩, hrefused⟩
  by_contra hv
  rw [hrefused ⟨spec, hmem, eq_true_of_ne_false hv⟩] at hread
  cases hread

namespace Blanks

/-- A codec that knows one class, under the last number that can be registered. -/
def settings : CodecSettings :=
  ⟨⟨[⟨RegisteredClass.lastId, "Form", .object ["lines"]⟩]⟩, .standard, 3⟩

/-- A call that takes eight flags and some forms, with primitive types on both sides of the first
byte of flags. -/
def filled : Request :=
  ⟨1, 0, "Forms", "fill", ⟨⟨.void, true⟩, List.replicate 8 ⟨.scalar .bool, true⟩ ++
    [⟨.array (.array (.registered "Form")), false⟩]⟩, []⟩

/-- A call that gives an array of arrays of nothing. -/
def blank : Request := ⟨1, 0, "Forms", "blank", ⟨⟨.array (.array .void), false⟩, []⟩, []⟩

/-- The bytes of the first call. -/
def filledBytes : List UInt8 :=
  [27, 1, 0, 5, 70, 111, 114, 109, 115, 4, 102, 105, 108, 108, 9, 2, 255, 1, 0, 1, 1, 1, 1, 1, 1,
    1, 1, 21, 21, 255, 255, 255, 255, 15, 0]

/-- The bytes of the second call. -/
def blankBytes : List UInt8 :=
  [27, 1, 0, 5, 70, 111, 114, 109, 115, 5, 98, 108, 97, 110, 107, 0, 0, 21, 21, 0, 0]

end Blanks

/-- A signature with primitive flags and nested arrays of forms comes back, and one with an array of
no value is written and refused. -/
theorem signature_returned_iff_blanks :
    Blanks.settings.registry.Registered ∧
    Blanks.filled.arguments = [] ∧
    Blanks.settings.encodeRequest Blanks.filled = .ok Blanks.filledBytes ∧
    Blanks.settings.decodeRequest Blanks.filledBytes = .ok Blanks.filled ∧
    Blanks.blank.arguments = [] ∧
    Blanks.settings.encodeRequest Blanks.blank = .ok Blanks.blankBytes ∧
    Blanks.settings.decodeRequest Blanks.blankBytes =
      .error (.invalidValue .arrayElementType "void") := by
  have hs : Blanks.settings.registry.Registered :=
    ⟨[⟨RegisteredClass.lastId, "Form", .object ["lines"]⟩], rfl⟩
  have hfilled : Blanks.settings.encodeRequest Blanks.filled = .ok Blanks.filledBytes := by
    decide +kernel
  have hblank : Blanks.settings.encodeRequest Blanks.blank = .ok Blanks.blankBytes := by
    decide +kernel
  have hwhole := (signature_returned_iff hs Blanks.filled rfl).2 _ hfilled (by decide)
  have hvoid := (signature_returned_iff hs Blanks.blank rfl).2 _ hblank (by decide)
  exact ⟨hs, rfl, hfilled, hwhole.1.mpr (by decide), rfl, hblank, hvoid.2 (by decide)⟩

end RemoteCall
