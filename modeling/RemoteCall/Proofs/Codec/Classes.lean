import Mathlib.Tactic.SplitIfs
import RemoteCall.Codec.Decode
import RemoteCall.Codec.Encode
import RemoteCall.Proofs.Codec.Scalars
import RemoteCall.Proofs.Value.Order

/-!
# Class numbers and type references on the wire

Registrations give every class a number and a name of its own below the 32-bit limit, so a number
and a name find the same class. A tag is the number plus one: every class can be announced unless
its number is the very last one. Type references are read back under the same nesting limit, as
long as no array of no value stands in them.
-/

namespace RemoteCall

namespace Registry

/-- What registrations establish. -/
structure Regular (r : Registry) : Prop where
  /-- No two classes share a number. -/
  ids : r.classes.Pairwise (·.id ≠ ·.id)
  /-- No two classes share a name. -/
  names : r.classes.Pairwise (·.name ≠ ·.name)
  /-- Every class number is a 32-bit word. -/
  inRange : ∀ c ∈ r.classes, RegisteredClass.base + c.id < UInt32.size
  /-- Every enum has a variant. -/
  variants : ∀ c ∈ r.classes, c.shape ≠ .enum []

/-- A registry that was made by registrations. -/
def Registered (r : Registry) : Prop := ∃ classes, ofClasses classes = .ok r

/-- A class that is put in its place stands among the same classes. -/
theorem insertClass_perm (c : RegisteredClass) (classes : List RegisteredClass) :
    (insertClass c classes).Perm (c :: classes) := by
  induction classes with
  | nil => exact .refl _
  | cons d rest ih =>
    unfold insertClass
    split
    · exact .refl _
    · exact (ih.cons d).trans (.swap c d rest)

/-- A number that finds no class belongs to none. -/
theorem id_ne_of_byId?_eq_none {r : Registry} {id : Nat} (h : r.byId? id = none) :
    ∀ c ∈ r.classes, id ≠ c.id := by
  intro c hc he
  have hf := List.find?_eq_none.mp h c hc
  exact hf (beq_iff_eq.mpr he.symm)

/-- A name that finds no class belongs to none. -/
theorem name_ne_of_byName?_eq_none {r : Registry} {name : String} (h : r.byName? name = none) :
    ∀ c ∈ r.classes, name ≠ c.name := by
  intro c hc he
  have hf := List.find?_eq_none.mp h c hc
  exact hf (beq_iff_eq.mpr he.symm)

/-- One registration keeps what registrations establish. -/
theorem Regular.register {r q : Registry} {c : RegisteredClass} (h : r.Regular)
    (hq : r.register c = .ok q) : q.Regular := by
  unfold Registry.register at hq
  split_ifs at hq with hv hn hr hi ha
  cases hq
  have hp := insertClass_perm c r.classes
  have hid : r.byId? c.id = none := Option.not_isSome_iff_eq_none.mp hi
  have hname : r.byName? c.name = none := Option.not_isSome_iff_eq_none.mp ha
  refine ⟨?_, ?_, ?_, ?_⟩
  · refine (hp.pairwise_iff fun h => h.symm).mpr (List.pairwise_cons.mpr ⟨?_, h.ids⟩)
    exact id_ne_of_byId?_eq_none hid
  · refine (hp.pairwise_iff fun h => h.symm).mpr (List.pairwise_cons.mpr ⟨?_, h.names⟩)
    exact name_ne_of_byName?_eq_none hname
  · intro d hd
    rcases mem_insertClass.mp hd with rfl | hd
    · omega
    · exact h.inRange d hd
  · intro d hd
    rcases mem_insertClass.mp hd with rfl | hd
    · exact hv
    · exact h.variants d hd

/-- Registrations in turn keep what they establish. -/
theorem Regular.foldlM {r q : Registry} (classes : List RegisteredClass) (h : r.Regular)
    (hq : classes.foldlM Registry.register r = .ok q) : q.Regular := by
  induction classes generalizing r with
  | nil =>
    cases hq
    exact h
  | cons c rest ih =>
    rw [List.foldlM_cons] at hq
    cases hc : r.register c with
    | error e =>
      rw [hc] at hq
      cases hq
    | ok r₁ =>
      rw [hc] at hq
      exact ih (h.register hc) hq

/-- A registry that was made by registrations is regular. -/
theorem Registered.regular {r : Registry} (h : r.Registered) : r.Regular := by
  obtain ⟨classes, hr⟩ := h
  have hnone : ∀ c, c ∉ empty.classes := fun c => List.not_mem_nil
  have h0 : empty.Regular :=
    ⟨.nil, .nil, fun c hc => absurd hc (hnone c), fun c hc => absurd hc (hnone c)⟩
  exact h0.foldlM classes hr

/-- In a list without repeated keys the first element of a key is the only one. -/
theorem find?_eq_some_of_pairwise {β : Type} [BEq β] [LawfulBEq β] {key : RegisteredClass → β}
    {classes : List RegisteredClass} (h : classes.Pairwise (key · ≠ key ·)) {c : RegisteredClass}
    (hc : c ∈ classes) : classes.find? (key · == key c) = some c := by
  induction classes with
  | nil => cases hc
  | cons d rest ih =>
    obtain ⟨hd, hrest⟩ := List.pairwise_cons.mp h
    rcases List.mem_cons.mp hc with rfl | hmem
    · exact List.find?_cons_of_pos (by simp)
    · rw [List.find?_cons_of_neg (by simpa using hd c hmem)]
      exact ih hrest hmem

/-- The number of a name is that of a registered class with this name. -/
theorem classIdOf_eq_ok {r : Registry} {name : String} {classId : Nat}
    (hn : r.classIdOf name = .ok classId) :
    ∃ c ∈ r.classes, c.name = name ∧ c.classId = classId := by
  unfold classIdOf at hn
  cases hb : r.byName? name with
  | none =>
    rw [hb] at hn
    cases hn
  | some c =>
    rw [hb] at hn
    cases hn
    exact ⟨c, List.mem_of_find?_eq_some hb, by simpa using List.find?_some hb, rfl⟩

/-- The number of a name leads back to the class of that name. -/
theorem Regular.byClassId_classIdOf {r : Registry} (h : r.Regular) {name : String} {classId : Nat}
    (hn : r.classIdOf name = .ok classId) :
    ∃ c ∈ r.classes, c.name = name ∧ c.classId = classId ∧ r.byClassId classId = .ok c := by
  obtain ⟨c, hc, hname, rfl⟩ := classIdOf_eq_ok hn
  have hid : r.byId? c.id = some c := find?_eq_some_of_pairwise h.ids hc
  refine ⟨c, hc, hname, rfl, ?_⟩
  have hle : RegisteredClass.base ≤ c.classId := Nat.le_add_left ..
  have hsub : c.classId - RegisteredClass.base = c.id := Nat.add_sub_cancel ..
  rw [byClassId, if_pos hle, hsub, hid]

/-- The class that is found by its number is registered and has that number. -/
theorem byClassId_eq_ok {r : Registry} {classId : Nat} {c : RegisteredClass}
    (h : r.byClassId classId = .ok c) :
    RegisteredClass.base ≤ classId ∧ c ∈ r.classes ∧ c.classId = classId := by
  unfold byClassId at h
  split at h
  case isFalse => cases h
  case isTrue hle =>
    split at h
    case h_2 => cases h
    case h_1 found hfound =>
      obtain rfl := Except.ok.inj h
      have hmem : found ∈ r.classes := List.mem_of_find?_eq_some hfound
      have hid : found.id = classId - RegisteredClass.base := by
        simpa using List.find?_some hfound
      have hnumber : found.classId = classId := by
        rw [RegisteredClass.classId, hid, Nat.sub_add_cancel hle]
      exact ⟨hle, hmem, hnumber⟩

/-- The class of a number has that number, and its name leads back to it. -/
theorem Regular.classIdOf_byClassId {r : Registry} (h : r.Regular) {classId : Nat}
    {c : RegisteredClass} (hc : r.byClassId classId = .ok c) :
    RegisteredClass.base ≤ classId ∧ r.classIdOf c.name = .ok classId := by
  obtain ⟨hle, hmem, hnumber⟩ := byClassId_eq_ok hc
  have hname : r.byName? c.name = some c := find?_eq_some_of_pairwise h.names hmem
  refine ⟨hle, ?_⟩
  rw [classIdOf, hname, ← hnumber]

/-- The class that a name leads to, with a number that is a 32-bit word. -/
theorem Regular.classIdOf {r : Registry} (h : r.Regular) {name : String} {classId : Nat}
    (hn : r.classIdOf name = .ok classId) :
    ∃ c, r.byClassId classId = .ok c ∧ c.name = name ∧ 64 ≤ classId ∧ classId < UInt32.size := by
  obtain ⟨c, hc, hname, rfl, hb⟩ := h.byClassId_classIdOf hn
  have hlt := h.inRange c hc
  refine ⟨c, hb, hname, Nat.le_add_left .., ?_⟩
  rwa [RegisteredClass.classId, Nat.add_comm]

end Registry

/-- A tag is a 32-bit word, unless the class has the last number that can be registered. -/
theorem RegisteredClass.tag_lt {c : RegisteredClass} (hrange : base + c.id < UInt32.size)
    (hid : c.id ≠ UInt32.size - 1 - base) : c.classId + 1 < UInt32.size := by
  have h32 : UInt32.size = 4294967296 := rfl
  have hb : base = 64 := rfl
  unfold classId
  omega

namespace CodecSettings

/-- The registry was made by registrations, and none of its classes has the last number, which
would leave no room for a tag. -/
structure CanAnnounce (s : CodecSettings) : Prop where
  registered : s.registry.Registered
  notLast : ∀ c ∈ s.registry.classes, c.id ≠ UInt32.size - 1 - RegisteredClass.base

/-- The tag of a registered class is a 32-bit word. -/
theorem CanAnnounce.tag_lt {s : CodecSettings} (h : s.CanAnnounce) {c : RegisteredClass}
    (hc : c ∈ s.registry.classes) : c.classId + 1 < UInt32.size :=
  RegisteredClass.tag_lt (h.registered.regular.inRange c hc) (h.notLast c hc)

/-- The class that a name leads to, with a tag that is a 32-bit word. -/
theorem CanAnnounce.classIdOf {s : CodecSettings} (h : s.CanAnnounce) {name : String}
    {classId : Nat} (hn : s.registry.classIdOf name = .ok classId) :
    ∃ c, s.registry.byClassId classId = .ok c ∧ c.name = name ∧ 64 ≤ classId ∧
      classId + 1 < UInt32.size := by
  obtain ⟨c, hc, hname, rfl, hb⟩ := h.registered.regular.byClassId_classIdOf hn
  exact ⟨c, hb, hname, Nat.le_add_left .., h.tag_lt hc⟩

end CodecSettings

/-- The numbers of the built-in classes, and where the registered ones begin. -/
theorem ClassId.numbers : ClassId.void = 0 ∧ ClassId.scalarArray = 20 ∧
    ClassId.instanceArray = 21 ∧ ClassId.collection = 22 ∧ ClassId.map = 23 ∧
    ClassId.comparator = 24 ∧ ClassId.any = 25 ∧ RegisteredClass.base = 64 := by
  decide

/-- An array has one of the two array classes. -/
theorem ClassId.ofArray_cases (element : TypeRef) :
    ofArray element = scalarArray ∨ ofArray element = instanceArray := by
  unfold ofArray
  split
  · exact .inl rfl
  · exact .inr rfl

namespace ScalarType

/-- Only the numbers from 1 to 19 are those of scalar types. -/
theorem ofClassId?_eq_none {classId : Nat} (h : 19 < classId) : ofClassId? classId = none := by
  refine List.find?_eq_none.mpr fun t _ ht => ?_
  have hle := t.classId_le
  rw [beq_iff_eq] at ht
  omega

end ScalarType

namespace TypeRef

/-- Whether an array of no value stands in the type. -/
def hasVoidArray : TypeRef → Bool
  | array void => true
  | array element => element.hasVoidArray
  | _ => false

/-- No array of no value stands in an array type if its elements are not of no value and have none.
-/
theorem hasVoidArray_array {element : TypeRef} :
    (array element).hasVoidArray = false ↔ element ≠ void ∧ element.hasVoidArray = false := by
  cases element <;> simp [hasVoidArray]

end TypeRef

namespace Decoder

/-- The class of an array is that of its element type. -/
theorem checkElementType_ofArray {element : TypeRef} (h : element ≠ .void) :
    checkElementType (ClassId.ofArray element) element = .ok () := by
  rw [checkElementType, if_neg (by simp [h])]

/-- A type reference is taken back within the nesting limit that let it be written. Its number
carries no tag, so the last number is one of a type too. -/
theorem typeRef_takes {s : CodecSettings} (hs : s.registry.Regular) (type : TypeRef) {room : Nat}
    {bytes : List UInt8} (hw : Encoder.typeRef s room type = .ok bytes)
    (hv : type.hasVoidArray = false) : (typeRef s room).Takes bytes type := by
  induction type generalizing room bytes with
  | void =>
    cases room with
    | zero => cases hw
    | succ room =>
      cases hw
      exact (Varint.read32_takes (by decide)).andThen (.pure _)
  | any =>
    cases room with
    | zero => cases hw
    | succ room =>
      cases hw
      exact (Varint.read32_takes (by decide)).andThen (.pure _)
  | scalar t =>
    cases room with
    | zero => cases hw
    | succ room =>
      cases hw
      obtain ⟨hvoid, hvalues, hinstances, hcollection, hmap, -, hany, hbase⟩ := ClassId.numbers
      have hpos := t.classId_pos
      have hle := t.classId_le
      have h32 : UInt32.size = 4294967296 := rfl
      refine (Varint.read32_takes (by omega)).andThen ?_
      rw [if_neg (by omega), if_neg (by omega), if_neg (by omega), if_neg (by omega),
        if_neg (by omega), if_neg (by omega), ScalarType.ofClassId?_classId]
      exact .pure _
  | collection kind =>
    cases room with
    | zero => cases hw
    | succ room =>
      cases hw
      have hk : (Scalar.demand .collectionKind (toString kind.tag.toNat)
          (CollectionKind.ofTag? kind.tag)).Takes [] kind := Scalar.demand_takes kind.ofTag?_tag
      exact (Varint.read32_takes (by decide)).bind
        ((Reader.byte_takes kind.tag).andThen (hk.map TypeRef.collection))
  | map kind =>
    cases room with
    | zero => cases hw
    | succ room =>
      cases hw
      have hk : (Scalar.demand .mapKind (toString kind.tag.toNat)
          (MapKind.ofTag? kind.tag)).Takes [] kind := Scalar.demand_takes kind.ofTag?_tag
      exact (Varint.read32_takes (by decide)).bind
        ((Reader.byte_takes kind.tag).andThen (hk.map TypeRef.map))
  | array element ih =>
    cases room with
    | zero => cases hw
    | succ room =>
      obtain ⟨hne, hin⟩ := TypeRef.hasVoidArray_array.mp hv
      rw [Encoder.typeRef] at hw
      cases he : Encoder.typeRef s room element with
      | error e =>
        rw [he] at hw
        cases hw
      | ok inner =>
        rw [he] at hw
        cases hw
        obtain ⟨hvoid, hvalues, hinstances, hcollection, hmap, -, hany, hbase⟩ := ClassId.numbers
        have h32 : UInt32.size = 4294967296 := rfl
        have hid := ClassId.ofArray_cases element
        refine (Varint.read32_takes (by omega)).bind ?_
        rw [if_neg (by omega), if_neg (by omega), if_neg (by omega), if_neg (by omega), if_pos hid]
        exact (ih he hin).andThen
          ((Reader.Takes.lift (checkElementType_ofArray hne)).andThen
            (.pure (TypeRef.array element)))
  | registered name =>
    cases room with
    | zero => cases hw
    | succ room =>
      rw [Encoder.typeRef] at hw
      cases hc : s.registry.classIdOf name with
      | error e =>
        rw [hc] at hw
        cases hw
      | ok classId =>
        rw [hc] at hw
        cases hw
        obtain ⟨hvoid, hvalues, hinstances, hcollection, hmap, -, hany, hbase⟩ := ClassId.numbers
        obtain ⟨c, hb, rfl, hge, hlt⟩ := hs.classIdOf hc
        refine (Varint.read32_takes (by omega)).andThen ?_
        rw [if_neg (by omega), if_neg (by omega), if_neg (by omega), if_neg (by omega),
          if_neg (by omega), if_pos (by omega), hb]
        exact .pure (TypeRef.registered c.name)

/-- A type reference that is read can be written within the same nesting limit. -/
theorem typeRef_gives {s : CodecSettings} (hs : s.registry.Regular) (room : Nat) :
    Reader.Gives (fun type => type.hasVoidArray = false ∧
      ∃ bytes, Encoder.typeRef s room type = .ok bytes) (typeRef s room) := by
  induction room with
  | zero => exact .throw _
  | succ room ih =>
    refine .bind_any fun id => ?_
    refine .ite (fun _ => .pure ⟨rfl, _, rfl⟩) fun _ => ?_
    refine .ite (fun _ => .pure ⟨rfl, _, rfl⟩) fun _ => ?_
    refine .ite (fun _ => .bind_any fun tag => .map _ fun _ kind _ _ => ⟨rfl, _, rfl⟩) fun _ => ?_
    refine .ite (fun _ => .bind_any fun tag => .map _ fun _ kind _ _ => ⟨rfl, _, rfl⟩) fun _ => ?_
    refine .ite (fun _ => .bind ih fun element ⟨hvoid, bytes, hbytes⟩ => ?_) fun _ => ?_
    · refine .bind (P := fun _ => element ≠ .void) (.lift fun _ hcheck hne => ?_) fun _ hne => ?_
      · rw [checkElementType, if_pos (.inl hne)] at hcheck
        cases hcheck
      · refine .pure ⟨TypeRef.hasVoidArray_array.mpr ⟨hne, hvoid⟩, ?_⟩
        rw [Encoder.typeRef, hbytes]
        exact ⟨_, rfl⟩
    refine .ite (fun _ => ?_) fun _ => ?_
    · refine .bind (P := fun c => s.registry.classIdOf c.name = .ok id)
        (.lift fun c hc => (hs.classIdOf_byClassId hc).2) fun c hc => .pure ⟨rfl, ?_⟩
      rw [Encoder.typeRef, hc]
      exact ⟨_, rfl⟩
    · cases ScalarType.ofClassId? id with
      | none => exact .throw _
      | some t => exact .pure ⟨rfl, _, rfl⟩

end Decoder

end RemoteCall
