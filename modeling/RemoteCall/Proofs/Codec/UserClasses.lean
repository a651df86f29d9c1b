import RemoteCall.Proofs.Codec.Composing
import RemoteCall.Proofs.Codec.RoundTrip

/-!
# User classes on the wire

Registrations pair every number with one name, and above the built-in classes every wire number with
one user class. What a class declares by itself, a variant of an enum or an object without anything
in its fields, can be written as soon as one level of nesting is allowed. A tag is the wire number
plus one, and it is read as a 32-bit word: so what has been written is read back for every class but
the one with the last number that can be registered, whose tag is malformed.
-/

namespace RemoteCall

namespace ClassId

/-- The numbers of all built-in classes. -/
def builtIn : List Nat :=
  [void, scalarArray, instanceArray, collection, map, comparator, any, request, response] ++
    ScalarType.all.map ScalarType.classId

/-- User classes stand above all built-in ones. -/
theorem lt_base_of_mem_builtIn : ∀ n ∈ builtIn, n < RegisteredClass.base := by
  decide

end ClassId

namespace Registry

/-- Numbers and names of classes belong together one to one, within a registry and on the wire. -/
structure OneToOne (r : Registry) : Prop where
  /-- The class of a name is the class of its number, and the other way round. -/
  registered : ∀ name id, (∃ c, r.byName? name = some c ∧ c.id = id) ↔
    ∃ c, r.byId? id = some c ∧ c.name = name
  /-- The wire number of a name is that of the class with this name. -/
  announced : ∀ name classId, r.classIdOf name = .ok classId ↔
    ∃ c, r.byClassId classId = .ok c ∧ c.name = name
  /-- The wire number of a user class is a 32-bit word and no built-in class has it. -/
  apart : ∀ name classId, r.classIdOf name = .ok classId →
    classId < UInt32.size ∧ classId ∉ ClassId.builtIn

variable {r : Registry}

/-- A class has the wire number of its name, and is found by it. -/
theorem Regular.announced (h : r.Regular) {c : RegisteredClass} (hc : c ∈ r.classes) :
    r.classIdOf c.name = .ok c.classId ∧ r.byClassId c.classId = .ok c := by
  have hname : r.byName? c.name = some c := find?_eq_some_of_pairwise h.names hc
  have hid : r.byId? c.id = some c := find?_eq_some_of_pairwise h.ids hc
  have hle : RegisteredClass.base ≤ c.classId := Nat.le_add_left ..
  have hsub : c.classId - RegisteredClass.base = c.id := Nat.add_sub_cancel ..
  constructor
  · rw [Registry.classIdOf, hname]
  · rw [byClassId, if_pos hle, hsub, hid]

/-- Registrations pair numbers and names. -/
theorem Regular.oneToOne (h : r.Regular) : r.OneToOne where
  registered := by
    intro name id
    constructor
    · rintro ⟨c, hc, rfl⟩
      have hname : c.name = name := by simpa using List.find?_some hc
      exact ⟨c, find?_eq_some_of_pairwise h.ids (List.mem_of_find?_eq_some hc), hname⟩
    · rintro ⟨c, hc, rfl⟩
      have hid : c.id = id := by simpa using List.find?_some hc
      exact ⟨c, find?_eq_some_of_pairwise h.names (List.mem_of_find?_eq_some hc), hid⟩
  announced := by
    intro name classId
    constructor
    · intro hn
      obtain ⟨c, -, hname, -, hc⟩ := h.byClassId_classIdOf hn
      exact ⟨c, hc, hname⟩
    · rintro ⟨c, hc, rfl⟩
      exact (h.classIdOf_byClassId hc).2
  apart := by
    intro name classId hn
    obtain ⟨c, -, -, hge, hlt⟩ := h.classIdOf hn
    have hbase : RegisteredClass.base = 64 := rfl
    refine ⟨hlt, fun hmem => ?_⟩
    have hbelow := ClassId.lt_base_of_mem_builtIn classId hmem
    omega

end Registry

namespace RegisteredClass

/-- The last number that can be registered. -/
def lastId : Nat := UInt32.size - 1 - base

/-- The values of a class in which no other value stands but null. -/
inductive Plain (c : RegisteredClass) : Value → Prop
  | variant (ordinal : UInt32) : Plain c (.variant c.name ordinal)
  | object (instanceId count : Nat) :
      Plain c (.object instanceId c.name (List.replicate count .null))

/-- What a class declares by itself, and how it is spelled behind its tag: a variant by its
position, an object by the mark of a new instance and a zero for each field. -/
inductive Spells (c : RegisteredClass) : Value → List UInt8 → Prop
  | variant {variants : List String} (shape : c.shape = .enum variants) {ordinal : UInt32}
      (declared : ordinal.toNat < variants.length) :
      Spells c (.variant c.name ordinal) (Varint.encode ordinal.toNat)
  | object {names : List String} (shape : c.shape = .object names) (instanceId : Nat) :
      Spells c (.object instanceId c.name (List.replicate names.length .null))
        (0 :: List.replicate names.length 0)

end RegisteredClass

namespace Encoder

variable {s : CodecSettings} {c : RegisteredClass} {v : Value}

/-- Null is spelled by a zero, wherever it stands. -/
theorem elements_replicate_null (s : CodecSettings) (room count : Nat) (t : List Nat) :
    elements s room none (List.replicate count .null) t = .ok (List.replicate count 0, t) := by
  induction count with
  | zero => rfl
  | succ count ih =>
    have hzero : Varint.encode 0 = [0] := Varint.encode_of_lt (by decide)
    have htag : elementTag s none .null = .ok [0] := hzero ▸ rfl
    exact elements_cons htag rfl ih

/-- A value of a registered class is announced by the wire number of its class. -/
theorem valueTag_of_plain (hr : s.registry.Regular) (hc : c ∈ s.registry.classes)
    (hv : c.Plain v) : valueTag s v = .ok (classTag c.classId) := by
  have hnumber := (hr.announced hc).1
  cases hv with
  | variant ordinal => exact valueTag_of_class Value.noConfusion hnumber
  | object instanceId count => exact valueTag_of_class Value.noConfusion hnumber

/-- What a class declares by itself is written one level deep. -/
theorem body_of_spells (hr : s.registry.Regular) (hc : c ∈ s.registry.classes) (room : Nat)
    {bytes : List UInt8} (h : c.Spells v bytes) :
    ∃ t, body s (room + 1) v [] = .ok (bytes, t) := by
  obtain ⟨hnumber, hfound⟩ := hr.announced hc
  cases h with
  | @variant variants hshape ordinal hlt =>
    exact ⟨[], variantBody_of_declared hnumber hfound hshape hlt⟩
  | @object names hshape instanceId =>
    have hcount : names.length = (List.replicate names.length Value.null).length :=
      List.length_replicate.symm
    refine ⟨[instanceId], ?_⟩
    rw [body_object hnumber hfound hshape]
    exact track_first List.not_mem_nil
      (objectContents_of_parts hcount (elements_replicate_null s room names.length _))

/-- What is written of such a value is what its class declares, and there is room for it. -/
theorem spells_of_body (hr : s.registry.Regular) (hc : c ∈ s.registry.classes) (hv : c.Plain v)
    {room : Nat} {bytes : List UInt8} {t : List Nat} (h : body s room v [] = .ok (bytes, t)) :
    1 ≤ room ∧ c.Spells v bytes := by
  obtain ⟨hnumber, hfound⟩ := hr.announced hc
  cases hv with
  | variant ordinal =>
    rw [body] at h
    obtain ⟨classId, d, variants, left, hid, hd, hshape, hlt, rfl, rfl, -⟩ := variantBody_eq_ok h
    obtain rfl : c.classId = classId := Except.ok.inj (hnumber.symm.trans hid)
    obtain rfl : c = d := Except.ok.inj (hfound.symm.trans hd)
    exact ⟨Nat.le_add_left .., .variant hshape hlt⟩
  | object instanceId count =>
    obtain ⟨classId, d, names, hid, hd, hshape, hplaced⟩ := body_object_eq_ok h
    obtain rfl : c.classId = classId := Except.ok.inj (hnumber.symm.trans hid)
    obtain rfl : c = d := Except.ok.inj (hfound.symm.trans hd)
    cases hplaced with
    | again position found => cases found
    | first new written =>
      obtain ⟨left, rfl, hlength, hwritten⟩ := objectContents_eq_ok written
      rw [List.length_replicate] at hlength
      rw [elements_replicate_null] at hwritten
      cases hwritten
      subst hlength
      exact ⟨Nat.le_add_left .., .object hshape instanceId⟩

end Encoder

namespace CodecSettings

variable {s : CodecSettings} {c : RegisteredClass} {v : Value}

/-- A value without other values in it is accepted exactly if its class declares it and one level of
nesting is allowed. -/
theorem encodeValue_plain_iff (hr : s.registry.Regular) (hc : c ∈ s.registry.classes)
    (hv : c.Plain v) (bytes : List UInt8) :
    s.encodeValue v = .ok bytes ↔
      1 ≤ s.maxDepth ∧ ∃ inner, c.Spells v inner ∧ bytes = Encoder.classTag c.classId ++ inner := by
  have htag := Encoder.valueTag_of_plain hr hc hv
  constructor
  · intro h
    obtain ⟨t, hw⟩ := Encoder.run_eq_ok h
    obtain ⟨tag, inner, ht, hb, rfl⟩ := Encoder.value_eq_ok hw
    obtain rfl : Encoder.classTag c.classId = tag := Except.ok.inj (htag.symm.trans ht)
    obtain ⟨hdepth, hspells⟩ := Encoder.spells_of_body hr hc hv hb
    exact ⟨hdepth, inner, hspells, rfl⟩
  · rintro ⟨hdepth, inner, hspells, rfl⟩
    obtain ⟨room, hroom⟩ := Nat.exists_eq_add_of_le' hdepth
    obtain ⟨t, hb⟩ := Encoder.body_of_spells hr hc room hspells
    rw [← hroom] at hb
    change Except.map Prod.fst (Encoder.value s s.maxDepth v []) = _
    rw [Encoder.value_of_parts htag hb]
    rfl

end CodecSettings

/-- So many nulls are equal to as many. -/
theorem Value.sameItems_nulls (count : Nat) :
    sameItems (List.replicate count .null) (List.replicate count .null) = true := by
  induction count with
  | zero => rfl
  | succ count ih => exact ih

namespace Decoder

variable {s : CodecSettings} {c : RegisteredClass} {v : Value}

/-- So many zeros are read as so many nulls. -/
theorem nulls_take (body : Nat → Decoder Value) (count : Nat) (P : List DecodeSlot → Prop) :
    Takes P (repeated (tagged body) count) (List.replicate count 0)
      (List.replicate count .null) P := by
  have hzero : Varint.encode 0 = [0] := Varint.encode_of_lt (by decide)
  have hnull : Takes P (tagged body) [0] .null P := hzero ▸ .tagged_null
  induction count with
  | zero => exact .pure []
  | succ count ih => exact hnull.bind (ih.andThen (.pure _))

/-- What a class declares by itself is read back one level deep, equal to what was written. -/
theorem body_takes (hr : s.registry.Regular) (hc : c ∈ s.registry.classes) (room : Nat)
    {bytes : List UInt8} (h : c.Spells v bytes) :
    ∃ w Q, v.same w = true ∧ Takes (· = []) (body s (room + 1) c.classId) bytes w Q := by
  have hfound := (hr.announced hc).2
  have hge : 64 ≤ c.classId := Nat.le_add_left ..
  cases h with
  | @variant variants hshape ordinal hlt =>
    have hkind : ValueKind.ofClassId s.registry c.classId = .ok .enum :=
      ValueKind.ofClassId_registered _ hge hfound (by rw [hshape])
    refine ⟨.variant c.name ordinal, (· = []), by simp [Value.same], ?_⟩
    rw [body]
    refine .plain hkind (by decide) rfl ?_
    rw [contents_registered _ _ _ _ hge]
    refine Takes.after (.known hfound) ?_
    rw [hshape]
    refine (Takes.wire (Varint.read32_takes ordinal.toNat_lt)).andThen ?_
    rw [if_pos hlt, Nat.toUInt32_eq, UInt32.ofNat_toNat]
    exact .pure _
  | @object names hshape instanceId =>
    have hkind : ValueKind.ofClassId s.registry c.classId = .ok .object :=
      ValueKind.ofClassId_registered _ hge hfound (by rw [hshape])
    refine ⟨.object 0 c.name (List.replicate names.length .null), fun _ => True, ?_, ?_⟩
    · simp [Value.same, Value.sameItems_nulls]
    rw [body]
    refine .first hkind rfl fun slots hslots =>
      ⟨(· = slots ++ [⟨c.classId, none⟩]), ?_, fun _ _ => trivial⟩
    subst hslots
    rw [contents_registered _ _ _ _ hge]
    refine Takes.after (.known hfound) ?_
    rw [hshape]
    exact (nulls_take _ names.length _).andThen (.pure _)

/-- A tag beyond 32 bits is malformed. -/
theorem tagged_of_large {body : Nat → Decoder Value} {tag : Nat} (hlow : UInt32.size ≤ tag)
    (hhigh : tag < UInt64.size) (bytes : List UInt8) :
    run (tagged body) (Varint.encode tag ++ bytes) = .error .malformedVarint := by
  have hread : Varint.read32 (Varint.encode tag ++ bytes) = .error .malformedVarint := by
    rw [Varint.read32, Reader.bind_of_ok (Varint.read_takes hhigh bytes), if_neg (by omega)]
    rfl
  have hwire : tagged body ⟨Varint.encode tag ++ bytes, [], 0⟩ =
      .error .malformedVarint ⟨Varint.encode tag ++ bytes, [], 0⟩ := by
    change EStateM.bind (wire Varint.read32) _ _ = _
    rw [EStateM.bind, wire, hread]
  rw [run, EStateM.run, hwire]

end Decoder

namespace CodecSettings

variable {s : CodecSettings} {c : RegisteredClass} {v : Value}

/-- What a class declares by itself is read back behind its tag, unless the class has the last
number. -/
theorem decodeValue_of_spells (hr : s.registry.Regular) (hc : c ∈ s.registry.classes)
    (hdepth : 1 ≤ s.maxDepth) {inner : List UInt8} (h : c.Spells v inner)
    (hid : c.id ≠ RegisteredClass.lastId) :
    ∃ w, s.decodeValue (Encoder.classTag c.classId ++ inner) = .ok w ∧ v.same w = true := by
  obtain ⟨room, hroom⟩ := Nat.exists_eq_add_of_le' hdepth
  obtain ⟨w, Q, hsame, htakes⟩ := Decoder.body_takes hr hc room h
  have hlt := RegisteredClass.tag_lt (hr.inRange c hc) hid
  refine ⟨w, ?_, hsame⟩
  rw [decodeValue, Decoder.value, hroom]
  exact Decoder.run_of_takes (.tagged_body hlt htakes) rfl

/-- The tag of the class with the last number is malformed. -/
theorem decodeValue_of_lastId (hid : c.id = RegisteredClass.lastId) (inner : List UInt8) :
    s.decodeValue (Encoder.classTag c.classId ++ inner) = .error .malformedVarint := by
  have htag : c.classId + 1 = UInt32.size := by
    rw [RegisteredClass.classId, hid]
    rfl
  rw [decodeValue, Decoder.value, Encoder.classTag, htag]
  exact Decoder.tagged_of_large (Nat.le_refl _) (by decide) inner

/-- **User classes but the last are usable.** -/
theorem registered_usable_iff (hs : s.registry.Registered) :
    s.registry.OneToOne ∧
    ∀ c ∈ s.registry.classes, ∀ v, c.Plain v →
      (∀ bytes, s.encodeValue v = .ok bytes ↔ 1 ≤ s.maxDepth ∧
        ∃ inner, c.Spells v inner ∧ bytes = Encoder.classTag c.classId ++ inner) ∧
      ∀ bytes, s.encodeValue v = .ok bytes →
        ((∃ w, s.decodeValue bytes = .ok w ∧ (v == w) = true) ↔ c.id ≠ RegisteredClass.lastId) ∧
        (c.id = RegisteredClass.lastId → s.decodeValue bytes = .error .malformedVarint) := by
  have hr := hs.regular
  refine ⟨hr.oneToOne, fun c hc v hv => ⟨encodeValue_plain_iff hr hc hv, fun bytes hbytes => ?_⟩⟩
  obtain ⟨hdepth, inner, hspells, rfl⟩ := (encodeValue_plain_iff hr hc hv bytes).mp hbytes
  refine ⟨⟨fun ⟨w, hw, _⟩ hid => ?_, decodeValue_of_spells hr hc hdepth hspells⟩,
    fun hid => decodeValue_of_lastId hid inner⟩
  rw [decodeValue_of_lastId hid] at hw
  cases hw

end CodecSettings

namespace Roles

/-- An enum with an ordinary number and one with the last number. -/
def registry : Registry :=
  ⟨[⟨1, "Role", .enum ["Admin", "Guest"]⟩, ⟨RegisteredClass.lastId, "Last", .enum ["Only"]⟩]⟩

/-- Both enums, and one level of nesting. -/
def settings : CodecSettings := { CodecSettings.standard with registry, maxDepth := 1 }

end Roles

/-- The variants of the one are read back, that of the other is written and cannot be read. -/
theorem registered_usable_iff_roles :
    Roles.settings.registry.Registered ∧
    Roles.settings.encodeValue (.variant "Role" 1) = .ok [66, 1] ∧
    (∃ w, Roles.settings.decodeValue [66, 1] = .ok w ∧ (Value.variant "Role" 1 == w) = true) ∧
    Roles.settings.encodeValue (.variant "Last" 0) = .ok [128, 128, 128, 128, 16, 0] ∧
    Roles.settings.decodeValue [128, 128, 128, 128, 16, 0] = .error .malformedVarint := by
  have hregistered : Roles.settings.registry.Registered := ⟨Roles.registry.classes, rfl⟩
  have hrole : Roles.settings.encodeValue (.variant "Role" 1) = .ok [66, 1] := by decide +kernel
  have hlast : Roles.settings.encodeValue (.variant "Last" 0) =
      .ok [128, 128, 128, 128, 16, 0] := by
    decide +kernel
  have husable := (CodecSettings.registered_usable_iff hregistered).2
  have hfirst := husable _ List.mem_cons_self _ (.variant 1)
  have hsecond := husable _ (List.mem_cons_of_mem _ List.mem_cons_self) _ (.variant 0)
  exact ⟨hregistered, hrole, (hfirst.2 _ hrole).1.mpr (by decide), hlast,
    (hsecond.2 _ hlast).2 rfl⟩

end RemoteCall
