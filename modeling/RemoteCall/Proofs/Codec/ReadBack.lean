import RemoteCall.Proofs.Codec.Following

/-!
# Values are read back

A reader follows the writing of any value of a portable graph: scalars by their spellings, variants
by the declaration of their class, containers by induction over their parts, and a repeated
instance by its reference. What is open while a part is read are the instances around it, which are
larger than the part, so a part is never a reference to an open instance.
-/

namespace RemoteCall

namespace ValueKind

variable (registry : Registry)

/-- A scalar is a plain value. -/
theorem ofClassId_scalar (t : ScalarType) : ofClassId registry t.classId = .ok .value := by
  rw [ofClassId, if_pos (.inl ⟨t.classId_pos, t.classId_le⟩)]

/-- An array of scalars is a plain value, any other array a collection. -/
theorem ofClassId_ofArray (element : TypeRef) : ofClassId registry (ClassId.ofArray element) =
    .ok (if element.isScalar then .value else .collection) := by
  unfold ClassId.ofArray
  cases element.isScalar with
  | true => rfl
  | false => rfl

/-- A registered class has the kind of its shape. -/
theorem ofClassId_registered {classId : Nat} {c : RegisteredClass} {kind : ValueKind}
    (hge : 64 ≤ classId) (hc : registry.byClassId classId = .ok c)
    (hs : (match c.shape with | .object _ => object | .enum _ => enum) = kind) :
    ofClassId registry classId = .ok kind := by
  obtain ⟨-, hvalues, hinstances, hcollection, hmap, hcomparator, -, hbase⟩ := ClassId.numbers
  rw [ofClassId, if_neg (by omega), if_neg (by omega), if_neg (by omega), if_neg (by omega),
    if_pos (by omega), hc, ← hs]
  change (match c.shape with | .object _ => Except.ok object | .enum _ => Except.ok enum) = _
  cases c.shape with
  | object names => rfl
  | enum variants => rfl

/-- The class of a collection has the kind that its form asks for. -/
theorem ofClassId_collection {registry : Registry} {id classId : Nat} {form : CollectionForm}
    {items : List Value}
    (h : (Value.collection id form items).classId registry = .ok classId) :
    ofClassId registry classId = .ok (if form.isTracked then .collection else .value) := by
  cases form with
  | array element =>
    cases h
    rw [ofClassId_ofArray, CollectionForm.isTracked]
    cases element.isScalar <;> rfl
  | list =>
    cases h
    rfl
  | set =>
    cases h
    rfl
  | sortedSet order =>
    cases h
    rfl

end ValueKind

/-- The class of a value leaves room for a tag. -/
theorem CodecSettings.CanAnnounce.classId_lt {s : CodecSettings} (h : s.CanAnnounce) {v : Value}
    {classId : Nat} (hv : v.classId s.registry = .ok classId) : classId + 1 < UInt32.size := by
  have h32 : UInt32.size = 4294967296 := rfl
  obtain ⟨hvoid, hvalues, hinstances, hcollection, hmap, -, -, -⟩ := ClassId.numbers
  cases v with
  | null =>
    cases hv
    omega
  | scalar v =>
    cases hv
    have hle := v.type.classId_le
    omega
  | variant c i =>
    obtain ⟨-, -, -, -, hlt⟩ := h.classIdOf hv
    exact hlt
  | object id c fields =>
    obtain ⟨-, -, -, -, hlt⟩ := h.classIdOf hv
    exact hlt
  | map id form entries =>
    cases hv
    omega
  | collection id form items =>
    cases form with
    | array element =>
      cases hv
      have hid := ClassId.ofArray_cases element
      omega
    | _ =>
      cases hv
      omega

namespace Decoder

variable (s : CodecSettings) (room : Nat) (read : Nat → Decoder Value) (position : Nat)

/-- The contents of a scalar. -/
theorem contents_scalar (t : ScalarType) : contents s room read position t.classId =
    Value.scalar <$> wire (Scalar.read t) := by
  rw [contents, ScalarType.ofClassId?_classId]

/-- The contents of an array. -/
theorem contents_array (element : TypeRef) :
    contents s room read position (ClassId.ofArray element) =
      array s room read position (ClassId.ofArray element) := by
  have hid := ClassId.ofArray_cases element
  obtain ⟨-, hvalues, hinstances, -, -, -, -, -⟩ := ClassId.numbers
  rw [contents, ScalarType.ofClassId?_eq_none (by omega)]
  exact if_pos hid

/-- The contents of a value of a registered class. -/
theorem contents_registered {classId : Nat} (hge : 64 ≤ classId) :
    contents s room read position classId = registered s read position classId := by
  obtain ⟨-, hvalues, hinstances, hcollection, hmap, -, -, -⟩ := ClassId.numbers
  rw [contents, ScalarType.ofClassId?_eq_none (by omega)]
  change (if _ then _ else _ : Decoder Value) = _
  rw [if_neg (by omega), if_neg (by omega), if_neg (by omega)]

/-- What is read where a value begins, with room for so many levels. -/
def fresh (s : CodecSettings) : (room position classId : Nat) → Decoder Value
  | 0 => fun _ _ => throw (.depthExceeded s.maxDepth)
  | room + 1 => contents s room (body s room)

/-- A body is a reference or what is read where a value begins. -/
theorem body_eq : body s room = bodyWith s (fresh s room) := by
  cases room with
  | zero => rw [body]; rfl
  | succ room => rw [body]; rfl

/-- A comparator that could be written is taken back. -/
theorem comparator_takes {c : Comparator} {bytes : List UInt8}
    (h : Encoder.comparator s c = .ok bytes) (hlen : bytes.length < UInt64.size) :
    (comparator s).Takes bytes c := by
  unfold Encoder.comparator at h
  cases hc : s.comparators.check c with
  | error e =>
    rw [hc] at h
    cases h
  | ok _ =>
    rw [hc] at h
    have hcheck : (do
        let _ ← (liftM (s.comparators.check c) : Reader Unit)
        return c : Reader Comparator).Takes [] c := (Reader.Takes.lift hc).andThen (.pure c)
    cases c with
    | custom name =>
      cases h
      have hname : (Sized.bytesOf name).length < UInt64.size :=
        Nat.lt_trans (Scalar.length_lt_encodeBytes _) (Nat.lt_of_succ_lt hlen)
      exact (Reader.byte_takes 100).bind
        (((Sized.readText_takes hname).map Comparator.custom).andThen hcheck)
    | natural =>
      cases h
      exact (Reader.byte_takes 1).andThen ((Scalar.demand_takes rfl).andThen hcheck)
    | reverse =>
      cases h
      exact (Reader.byte_takes 2).andThen ((Scalar.demand_takes rfl).andThen hcheck)
    | allEqual =>
      cases h
      exact (Reader.byte_takes 3).andThen ((Scalar.demand_takes rfl).andThen hcheck)
    | usingToString =>
      cases h
      exact (Reader.byte_takes 4).andThen ((Scalar.demand_takes rfl).andThen hcheck)

end Decoder

namespace Writing

variable (c : Writing)

/-- Every open instance is larger than a value. -/
def Above (opened : List Nat) (v : Value) : Prop :=
  ∀ n ∈ opened, ∀ w, c.graph.Holds w → w.instanceId? = some n → sizeOf v < sizeOf w

/-- The body of a value other than null is followed wherever the value may stand. -/
def ReadsBack (v : Value) : Prop :=
  ∀ room opened t t' bytes classId, v ≠ .null →
    Encoder.body c.settings room v t = .ok (bytes, t') →
    v.classId c.settings.registry = .ok classId → t' <+: c.table →
    bytes.length < UInt64.size → c.Above opened v →
    c.Follows opened (Decoder.body c.settings room classId) t bytes (c.back v) t'

variable {c : Writing} {opened : List Nat}

/-- Nothing is open around a root. -/
theorem above_nil (v : Value) : c.Above [] v := fun _ hn => nomatch hn

/-- What is larger than the whole is larger than a part. -/
theorem Above.child {v w : Value} (h : c.Above opened v) (hw : w ∈ v.children) :
    c.Above opened w := fun n hn u hu hun =>
  Nat.lt_trans (Value.sizeOf_lt_of_mem_children hw) (h n hn u hu hun)

/-- Opening an instance keeps what is open larger than its parts. -/
theorem Above.open_child (hc : c.Sound) {v w : Value} {id : Nat} (h : c.Above opened v)
    (hv : c.graph.Holds v) (hid : v.instanceId? = some id) (hw : w ∈ v.children) :
    c.Above (id :: opened) w := by
  intro n hn u hu hun
  rcases List.mem_cons.mp hn with rfl | hn
  · rw [hc.portable.coherent.eq_of_instanceId? hu hv hun hid]
    exact Value.sizeOf_lt_of_mem_children hw
  · exact h.child hw n hn u hu hun

/-- The number of a shared tag. -/
def tagNumber : Option Nat → Nat
  | some classId => classId + 1
  | none => 0

/-- A shared tag spells its number. -/
theorem sharedTag_eq (shared : Option Nat) :
    Encoder.sharedTag shared = Varint.encode (tagNumber shared) := by
  cases shared <;> rfl

section Parts

variable {t t' : List Nat} {room : Nat}

/-- A value with its tag is followed. -/
theorem follows_tagged (hc : c.Sound) {v : Value} (hv : c.ReadsBack v) (ha : c.Above opened v)
    {tag bytes : List UInt8} (ht : Encoder.valueTag c.settings v = .ok tag)
    (hb : Encoder.body c.settings room v t = .ok (bytes, t')) (hend : t' <+: c.table)
    (hlen : bytes.length < UInt64.size) :
    c.Follows opened (Decoder.tagged (Decoder.body c.settings room)) t (tag ++ bytes)
      (c.back v) t' := by
  rcases Encoder.valueTag_eq_ok ht with ⟨rfl, rfl⟩ | ⟨hne, classId, hclass, rfl⟩
  · rw [Encoder.body] at hb
    obtain ⟨rfl, rfl⟩ := Encoder.pure_eq_ok hb
    rw [List.append_nil]
    exact .tagged_null
  · exact .tagged_body (hc.announced.classId_lt hclass)
      (hv room opened t t' bytes classId hne hb hclass hend hlen ha)

/-- An element is followed under the tag of its container. -/
theorem follows_element (hc : c.Sound) {v : Value} (hv : c.ReadsBack v) (ha : c.Above opened v)
    {shared : Option Nat}
    (hs : ∀ classId, shared = some classId → v ≠ .null ∧
      v.classId c.settings.registry = .ok classId)
    {tag bytes : List UInt8} (ht : Encoder.elementTag c.settings shared v = .ok tag)
    (hb : Encoder.body c.settings room v t = .ok (bytes, t')) (hend : t' <+: c.table)
    (hlen : bytes.length < UInt64.size) :
    c.Follows opened (Decoder.element (Decoder.body c.settings room) (tagNumber shared)) t
      (tag ++ bytes) (c.back v) t' := by
  cases shared with
  | none => exact follows_tagged hc hv ha ht hb hend hlen
  | some classId =>
    cases ht
    obtain ⟨hne, hclass⟩ := hs classId rfl
    exact hv room opened t t' bytes classId hne hb hclass hend hlen ha

/-- Elements in a row are followed. -/
theorem follows_repeated (hc : c.Sound) (shared : Option Nat) {vs : List Value}
    (hv : ∀ v ∈ vs, c.ReadsBack v) (ha : ∀ v ∈ vs, c.Above opened v)
    (hs : ∀ classId, shared = some classId → ∀ v ∈ vs, v ≠ .null ∧
      v.classId c.settings.registry = .ok classId)
    {bytes : List UInt8} (h : Encoder.elements c.settings room shared vs t = .ok (bytes, t'))
    (hend : t' <+: c.table) (hlen : bytes.length < UInt64.size) :
    c.Follows opened (Decoder.repeated (Decoder.element (Decoder.body c.settings room)
      (tagNumber shared)) vs.length) t bytes (vs.map c.back) t' := by
  induction vs generalizing t bytes with
  | nil =>
    obtain ⟨rfl, rfl⟩ := Encoder.pure_eq_ok h
    exact .pure []
  | cons v rest ih =>
    obtain ⟨tag, front, t₁, back, ht, hf, hb, rfl⟩ := Encoder.elements_cons_eq_ok h
    have hgrows := Encoder.elements_grows (fun w _ => Encoder.body_grows w) hb
    rw [List.length_append, List.length_append] at hlen
    have hfirst := follows_element hc (hv v List.mem_cons_self) (ha v List.mem_cons_self)
      (fun classId he => hs classId he v List.mem_cons_self) ht hf (hgrows.front.trans hend)
      (by omega)
    have hrest := ih (fun w hw => hv w (List.mem_cons_of_mem v hw))
      (fun w hw => ha w (List.mem_cons_of_mem v hw))
      (fun classId he w hw => hs classId he w (List.mem_cons_of_mem v hw)) hb (by omega)
    exact hfirst.bind (hrest.andThen (.pure _))

/-- The tag of elements that share a class is a 32-bit word if their classes leave room for it. -/
theorem tagNumber_lt {registry : Registry} {shared : Option Nat} {vs : List Value} (hne : vs ≠ [])
    (hs : ∀ classId, shared = some classId → ∀ v ∈ vs, v ≠ .null ∧
      v.classId registry = .ok classId)
    (hlt : ∀ v ∈ vs, ∀ classId, v ≠ .null → v.classId registry = .ok classId →
      classId + 1 < UInt32.size) : tagNumber shared < UInt32.size := by
  cases shared with
  | none => exact (by decide : 0 < UInt32.size)
  | some classId =>
    obtain ⟨v, hv⟩ := List.exists_mem_of_ne_nil vs hne
    obtain ⟨hnull, hclass⟩ := hs classId rfl v hv
    exact hlt v hv classId hnull hclass

/-- The elements of a collection are followed from their count on. -/
theorem follows_elements (hc : c.Sound) {shared : Option Nat} {vs : List Value}
    (hv : ∀ v ∈ vs, c.ReadsBack v) (ha : ∀ v ∈ vs, c.Above opened v)
    (hs : Encoder.sharedClass c.settings.registry vs = .ok shared)
    {bytes : List UInt8} (h : Encoder.elements c.settings room shared vs t = .ok (bytes, t'))
    (hend : t' <+: c.table) (hlen : bytes.length < UInt64.size) :
    c.Follows opened (Decoder.elements (Decoder.body c.settings room)) t
      (Varint.encode vs.length ++ ((if vs.isEmpty then [] else Encoder.sharedTag shared) ++ bytes))
      (vs.map c.back) t' := by
  have hs' : ∀ classId, shared = some classId → ∀ v ∈ vs, v ≠ .null ∧
      v.classId c.settings.registry = .ok classId := by
    rintro classId rfl
    exact Encoder.sharedClass_eq_some hs
  have hcount : vs.length ≤ bytes.length :=
    Encoder.length_le_elements (fun v hv hsome =>
      (hs' _ (Option.some_get hsome).symm v hv).1) h
  have hempty : vs = [] → bytes = [] := by
    rintro rfl
    exact (Encoder.pure_eq_ok h).1.symm
  have hlt : ∀ v ∈ vs, ∀ classId, v ≠ .null → v.classId c.settings.registry = .ok classId →
      classId + 1 < UInt32.size := fun v _ classId _ hclass => hc.announced.classId_lt hclass
  rw [sharedTag_eq]
  exact .elements (by omega) hcount (fun hne => tagNumber_lt hne hs' hlt) hempty
    (follows_repeated hc shared hv ha hs' h hend hlen)

/-- Entries in a row are followed. -/
theorem follows_repeatedEntries (hc : c.Sound) {keys values : Option Nat}
    {pairs : List (Value × Value)}
    (hv : ∀ e ∈ pairs, c.ReadsBack e.1 ∧ c.ReadsBack e.2)
    (ha : ∀ e ∈ pairs, c.Above opened e.1 ∧ c.Above opened e.2)
    (hks : ∀ classId, keys = some classId → ∀ e ∈ pairs, e.1 ≠ .null ∧
      e.1.classId c.settings.registry = .ok classId)
    (hvs : ∀ classId, values = some classId → ∀ e ∈ pairs, e.2 ≠ .null ∧
      e.2.classId c.settings.registry = .ok classId)
    {bytes : List UInt8}
    (h : Encoder.entries c.settings room keys values pairs t = .ok (bytes, t'))
    (hend : t' <+: c.table) (hlen : bytes.length < UInt64.size) :
    c.Follows opened (Decoder.repeated (do
      let k ← Decoder.element (Decoder.body c.settings room) (tagNumber keys)
      let v ← Decoder.element (Decoder.body c.settings room) (tagNumber values)
      return (k, v)) pairs.length) t bytes (pairs.map fun e => (c.back e.1, c.back e.2)) t' := by
  induction pairs generalizing t bytes with
  | nil =>
    obtain ⟨rfl, rfl⟩ := Encoder.pure_eq_ok h
    exact .pure []
  | cons e rest ih =>
    obtain ⟨k, v⟩ := e
    obtain ⟨keyTag, keyBytes, t₁, valueTag, valueBytes, t₂, back, hkt, hkb, hvt, hvb, hb, rfl⟩ :=
      Encoder.entries_cons_eq_ok h
    have hgrows := Encoder.entries_grows (fun e _ => Encoder.body_grows e.1)
      (fun e _ => Encoder.body_grows e.2) hb
    have hvalueGrows := Encoder.body_grows v _ _ _ _ hvb
    simp only [List.length_append] at hlen
    have hmem : (k, v) ∈ (k, v) :: rest := List.mem_cons_self
    have hend₂ := hgrows.front.trans hend
    have hkey := follows_element hc (hv _ hmem).1 (ha _ hmem).1
      (fun classId he => hks classId he _ hmem) hkt hkb (hvalueGrows.front.trans hend₂) (by omega)
    have hvalue := follows_element hc (hv _ hmem).2 (ha _ hmem).2
      (fun classId he => hvs classId he _ hmem) hvt hvb hend₂ (by omega)
    have hrest := ih (fun d hd => hv d (List.mem_cons_of_mem _ hd))
      (fun d hd => ha d (List.mem_cons_of_mem _ hd))
      (fun classId he d hd => hks classId he d (List.mem_cons_of_mem _ hd))
      (fun classId he d hd => hvs classId he d (List.mem_cons_of_mem _ hd)) hb (by omega)
    rw [List.append_assoc (keyTag ++ keyBytes)]
    exact (hkey.bind (hvalue.andThen (.pure (c.back k, c.back v)))).bind (hrest.andThen (.pure _))

/-- The entries of a map are followed from their count on. -/
theorem follows_entries (hc : c.Sound) {keys values : Option Nat} {pairs : List (Value × Value)}
    (hv : ∀ e ∈ pairs, c.ReadsBack e.1 ∧ c.ReadsBack e.2)
    (ha : ∀ e ∈ pairs, c.Above opened e.1 ∧ c.Above opened e.2)
    (hks : Encoder.sharedClass c.settings.registry (pairs.map (·.1)) = .ok keys)
    (hvs : Encoder.sharedClass c.settings.registry (pairs.map (·.2)) = .ok values)
    {bytes : List UInt8}
    (h : Encoder.entries c.settings room keys values pairs t = .ok (bytes, t'))
    (hend : t' <+: c.table) (hlen : bytes.length < UInt64.size) :
    c.Follows opened (Decoder.entries (Decoder.body c.settings room)) t
      (Varint.encode pairs.length ++ ((if pairs.isEmpty then [] else
        Encoder.sharedTag keys ++ Encoder.sharedTag values) ++ bytes))
      (pairs.map fun e => (c.back e.1, c.back e.2)) t' := by
  have hkeys : ∀ classId, keys = some classId → ∀ v ∈ pairs.map (·.1), v ≠ .null ∧
      v.classId c.settings.registry = .ok classId := by
    rintro classId rfl
    exact Encoder.sharedClass_eq_some hks
  have hvalues : ∀ classId, values = some classId → ∀ v ∈ pairs.map (·.2), v ≠ .null ∧
      v.classId c.settings.registry = .ok classId := by
    rintro classId rfl
    exact Encoder.sharedClass_eq_some hvs
  have hcount : pairs.length * 2 ≤ bytes.length := by
    refine Encoder.length_le_entries (fun e he hsome => ?_) (fun e he hsome => ?_) h
    · exact (hkeys _ (Option.some_get hsome).symm _ (List.mem_map_of_mem he)).1
    · exact (hvalues _ (Option.some_get hsome).symm _ (List.mem_map_of_mem he)).1
  have hempty : pairs = [] → bytes = [] := by
    rintro rfl
    exact (Encoder.pure_eq_ok h).1.symm
  have hne {β : Type} (f : Value × Value → β) (h : pairs ≠ []) : pairs.map f ≠ [] :=
    fun hmap => h (List.map_eq_nil_iff.mp hmap)
  have hlt (v : Value) (classId : Nat) (_ : v ≠ .null)
      (hclass : v.classId c.settings.registry = .ok classId) : classId + 1 < UInt32.size :=
    hc.announced.classId_lt hclass
  have htags (h : pairs ≠ []) : tagNumber keys < UInt32.size ∧ tagNumber values < UInt32.size :=
    ⟨tagNumber_lt (hne _ h) hkeys fun v _ => hlt v, tagNumber_lt (hne _ h) hvalues fun v _ => hlt v⟩
  rw [sharedTag_eq, sharedTag_eq]
  exact .entries (by omega) hcount htags hempty
    (follows_repeatedEntries hc hv ha
      (fun classId he d hd => hkeys classId he _ (List.mem_map_of_mem hd))
      (fun classId he d hd => hvalues classId he _ (List.mem_map_of_mem hd)) h hend hlen)

end Parts

section Bodies

/-- A scalar is read back. -/
theorem readsBack_scalar (c : Writing) (v : Scalar) : c.ReadsBack (.scalar v) := by
  intro room opened t t' bytes classId _ hb hclass _ hlen _
  rw [Encoder.body] at hb
  obtain ⟨left, rfl, hb⟩ := Encoder.deeper_eq_ok hb
  obtain ⟨rfl, rfl⟩ := Encoder.pure_eq_ok hb
  cases hclass
  rw [Decoder.body]
  refine .plain (ValueKind.ofClassId_scalar _ v.type) (by decide) rfl ?_
  rw [Decoder.contents_scalar]
  have hpayload := Nat.lt_of_le_of_lt v.length_payload_le hlen
  exact (Decoder.Takes.wire (Scalar.read_takes v hpayload)).map Value.scalar

/-- A variant is read back. -/
theorem readsBack_variant {c : Writing} (hc : c.Sound) (className : String) (i : UInt32) :
    c.ReadsBack (.variant className i) := by
  intro room opened t t' bytes classId _ hb hclass _ _ _
  rw [Encoder.body] at hb
  obtain ⟨classId', d, variants, left, hid, hd, hshape, hlt, rfl, rfl, rfl⟩ :=
    Encoder.variantBody_eq_ok hb
  change c.settings.registry.classIdOf className = _ at hclass
  rw [hid] at hclass
  cases hclass
  obtain ⟨d', hd', hname, hge, -⟩ := hc.announced.classIdOf hid
  rw [hd] at hd'
  cases hd'
  rw [Decoder.body]
  have hkind : ValueKind.ofClassId c.settings.registry classId = .ok .enum :=
    ValueKind.ofClassId_registered _ hge hd (by rw [hshape])
  refine .plain hkind (by decide) rfl ?_
  rw [Decoder.contents_registered _ _ _ _ hge]
  refine Decoder.Takes.after (.known hd) ?_
  rw [hshape]
  refine (Decoder.Takes.wire (Varint.read32_takes i.toNat_lt)).andThen ?_
  rw [if_pos hlt, hname, Nat.toUInt32_eq, UInt32.ofNat_toNat]
  exact .pure _

/-- The contents of a map are followed. -/
theorem follows_map {c : Writing} (hc : c.Sound) (id : Nat) {form : MapForm}
    {pairs : List (Value × Value)}
    (ih : ∀ e ∈ pairs, c.ReadsBack e.1 ∧ c.ReadsBack e.2) {opened : List Nat}
    (ha : ∀ e ∈ pairs, c.Above opened e.1 ∧ c.Above opened e.2) {room : Nat} {u u' : List Nat}
    {inner : List UInt8}
    (h : Encoder.mapContents c.settings room form pairs u = .ok (inner, u'))
    (hend : u' <+: c.table) (hlen : inner.length < UInt64.size) :
    c.Follows opened (Decoder.fresh c.settings room (newNumber c.table id) ClassId.map) u inner
      (c.back (.map id form pairs)) u' := by
  obtain ⟨left, head, keys, values, body, rfl, hh, hk, hvs, hi, rfl⟩ := Encoder.mapContents_eq_ok h
  have hback : c.back (.map id form pairs) = .map (newNumber c.table id) form
      (form.rebuild (pairs.map fun e => (c.back e.1, c.back e.2))) :=
    Value.renumber_rebuilt_map _ id form pairs
  simp only [List.length_append] at hlen
  have hentries := follows_entries hc ih ha hk hvs hi hend (by omega)
  rw [hback, List.append_assoc, List.append_assoc]
  change c.Follows opened (Decoder.map _ _ _) u _ _ u'
  cases form with
  | plain =>
    cases hh
    refine (Decoder.Takes.wire (Reader.byte_takes MapKind.plain.tag)).bind ?_
    rw [MapKind.ofTag?_tag]
    exact hentries.andThen (.pure _)
  | sorted order =>
    cases ho : Encoder.comparator c.settings order with
    | error e =>
      rw [Encoder.mapHead, ho] at hh
      cases hh
    | ok orderBytes =>
      rw [Encoder.mapHead, ho] at hh
      cases hh
      rw [List.length_cons] at hlen
      have horder := Decoder.comparator_takes c.settings ho (by omega)
      refine Decoder.Takes.cons (Reader.byte_takes MapKind.sorted.tag) ?_
      rw [MapKind.ofTag?_tag]
      exact (Decoder.Takes.wire horder).bind (hentries.andThen (.pure _))

/-- A collection as it is read back. -/
theorem back_collection (c : Writing) (id : Nat) (form : CollectionForm) (items : List Value) :
    c.back (.collection id form items) =
      .collection (if form.isTracked then newNumber c.table id else 0) form
        (form.rebuild (items.map c.back)) :=
  Value.renumber_rebuilt_collection _ id form items

/-- The contents of a collection are followed. -/
theorem follows_collection {c : Writing} (hc : c.Sound) {id classId : Nat} {form : CollectionForm}
    {items : List Value} (hv : c.graph.Holds (.collection id form items))
    (hclass : (Value.collection id form items).classId c.settings.registry = .ok classId)
    (ih : ∀ v ∈ items, c.ReadsBack v) {opened : List Nat} (ha : ∀ v ∈ items, c.Above opened v)
    {room : Nat} {u u' : List Nat} {inner : List UInt8}
    (h : Encoder.collectionContents c.settings room form items u = .ok (inner, u'))
    (hend : u' <+: c.table) (hlen : inner.length < UInt64.size) :
    c.Follows opened (Decoder.fresh c.settings room
      (if form.isTracked then newNumber c.table id else 0) classId) u inner
      (c.back (.collection id form items)) u' := by
  obtain ⟨left, head, shared, body, rfl, hh, hs, hi, rfl⟩ := Encoder.collectionContents_eq_ok h
  simp only [List.length_append] at hlen
  have helements := follows_elements hc ih ha hs hi hend (by omega)
  rw [back_collection, List.append_assoc, List.append_assoc, Decoder.fresh]
  cases form with
  | array element =>
    cases hclass
    rw [Decoder.contents_array]
    have hkeeps : (CollectionForm.array element).Keeps (items.map c.back) := by
      obtain ⟨hne, hfits⟩ := hc.portable.fits id element items hv
      refine ⟨hne, List.forall_mem_map.mpr fun v hv => ?_⟩
      rw [back, Value.accepts_renumber, Value.accepts_rebuilt, hfits v hv]
    have htype := Decoder.typeRef_takes hc.announced.registered.regular element hh
      (hc.portable.noVoidArray id element items hv)
    refine (Decoder.Takes.wire htype).bind ?_
    refine Decoder.Takes.after (.known (Decoder.checkElementType_ofArray hkeeps.1)) ?_
    exact helements.andThen (.known (Value.ofArray_eq_ok_iff.mpr ⟨rfl, hkeeps⟩))
  | list =>
    cases hclass
    cases hh
    refine (Decoder.Takes.wire (Reader.byte_takes CollectionKind.list.tag)).bind ?_
    rw [CollectionKind.ofTag?_tag]
    exact helements.andThen (.pure _)
  | set =>
    cases hclass
    cases hh
    refine (Decoder.Takes.wire (Reader.byte_takes CollectionKind.set.tag)).bind ?_
    rw [CollectionKind.ofTag?_tag]
    exact helements.andThen (.pure _)
  | sortedSet order =>
    cases hclass
    cases ho : Encoder.comparator c.settings order with
    | error e =>
      rw [Encoder.collectionHead, ho] at hh
      cases hh
    | ok orderBytes =>
      rw [Encoder.collectionHead, ho] at hh
      cases hh
      rw [List.length_cons] at hlen
      have horder := Decoder.comparator_takes c.settings ho (by omega)
      refine Decoder.Takes.cons (Reader.byte_takes CollectionKind.sortedSet.tag) ?_
      rw [CollectionKind.ofTag?_tag]
      exact (Decoder.Takes.wire horder).bind (helements.andThen (.pure _))

/-- The fields of an object are followed. -/
theorem follows_object {c : Writing} (hc : c.Sound) {id classId : Nat} {d : RegisteredClass}
    {names : List String} {fields : List Value} (hge : 64 ≤ classId)
    (hd : c.settings.registry.byClassId classId = .ok d) (hshape : d.shape = .object names)
    (ih : ∀ v ∈ fields, c.ReadsBack v) {opened : List Nat} (ha : ∀ v ∈ fields, c.Above opened v)
    {room : Nat} {u u' : List Nat} {inner : List UInt8}
    (h : Encoder.objectContents c.settings room d.name names fields u = .ok (inner, u'))
    (hend : u' <+: c.table) (hlen : inner.length < UInt64.size) :
    c.Follows opened (Decoder.fresh c.settings room (newNumber c.table id) classId) u inner
      (c.back (.object id d.name fields)) u' := by
  obtain ⟨left, rfl, hcount, hi⟩ := Encoder.objectContents_eq_ok h
  have hback : c.back (.object id d.name fields) =
      .object (newNumber c.table id) d.name (fields.map c.back) :=
    Value.renumber_rebuilt_object _ id d.name fields
  have hnone : ∀ classId, (none : Option Nat) = some classId → ∀ v ∈ fields, v ≠ .null ∧
      v.classId c.settings.registry = .ok classId := by
    intro classId he
    cases he
  have hfields := follows_repeated hc none ih ha hnone hi hend hlen
  rw [hback, Decoder.fresh, Decoder.contents_registered _ _ _ _ hge]
  refine Decoder.Takes.after (.known hd) ?_
  rw [hshape]
  change c.Follows opened (Decoder.repeated (Decoder.tagged _) names.length >>= _) u inner _ u'
  rw [hcount]
  exact hfields.andThen (.pure _)

/-- Every value of a portable graph is read back. -/
theorem readsBack {c : Writing} (hc : c.Sound) (v : Value) : c.graph.Holds v → c.ReadsBack v := by
  induction v using Value.byParts with
  | null =>
    intro _ room opened t t' bytes classId hne
    exact absurd rfl hne
  | scalar s => exact fun _ => readsBack_scalar c s
  | variant className i => exact fun _ => readsBack_variant hc className i
  | collection id form items ih =>
    intro hv room opened t t' bytes classId _ hb hclass hend hlen habove
    have hparts : ∀ v ∈ items, c.ReadsBack v := fun v hmem => ih v hmem (hv.child hmem)
    have hkind := ValueKind.ofClassId_collection hclass
    rw [Encoder.body_collection] at hb
    rw [Decoder.body_eq]
    cases htracked : form.isTracked with
    | false =>
      rw [htracked] at hb hkind
      have hf := follows_collection hc hv hclass hparts (fun v hmem => habove.child hmem) hb hend
        hlen
      rw [htracked] at hf
      exact .plain hkind (by decide) rfl hf
    | true =>
      rw [htracked] at hb hkind
      have hid : (Value.collection id form items).instanceId? = some id := by
        rw [Value.instanceId?, if_pos htracked]
      refine follows_placed hc .collection hkind rfl hv hid hclass habove (Encoder.track_eq_ok hb)
        hend ?_ ?_
      · intro u u' inner hu
        obtain ⟨_, _, _, _, -, -, -, hi, -⟩ := Encoder.collectionContents_eq_ok hu
        exact (Encoder.elements_grows (fun v _ => Encoder.body_grows v) hi).front
      · intro u u' inner hbytes hu hend'
        rw [hbytes, List.length_cons] at hlen
        have hf := follows_collection hc hv hclass hparts
          (fun v hmem => habove.open_child hc hv hid hmem) hu hend' (by omega)
        rwa [htracked] at hf
  | map id form pairs ih =>
    intro hv room opened t t' bytes classId _ hb hclass hend hlen habove
    have hchild : ∀ e ∈ pairs, e.1 ∈ (Value.map id form pairs).children ∧
        e.2 ∈ (Value.map id form pairs).children := fun e he => Value.mem_children_of_entry he
    have hparts : ∀ e ∈ pairs, c.ReadsBack e.1 ∧ c.ReadsBack e.2 := fun e he =>
      ⟨(ih e he).1 (hv.child (hchild e he).1), (ih e he).2 (hv.child (hchild e he).2)⟩
    rw [Encoder.body_map] at hb
    rw [Decoder.body_eq]
    cases hclass
    refine follows_placed hc .map rfl rfl hv rfl rfl habove (Encoder.track_eq_ok hb) hend
      ?_ ?_
    · intro u u' inner hu
      obtain ⟨_, _, _, _, _, -, -, -, -, hi, -⟩ := Encoder.mapContents_eq_ok hu
      exact (Encoder.entries_grows (fun e _ => Encoder.body_grows e.1)
        (fun e _ => Encoder.body_grows e.2) hi).front
    · intro u u' inner hbytes hu hend'
      rw [hbytes, List.length_cons] at hlen
      refine follows_map hc id hparts (fun e he => ?_) hu hend' (by omega)
      exact ⟨habove.open_child hc hv rfl (hchild e he).1,
        habove.open_child hc hv rfl (hchild e he).2⟩
  | object id className fields ih =>
    intro hv room opened t t' bytes classId _ hb hclass hend hlen habove
    have hparts : ∀ v ∈ fields, c.ReadsBack v := fun v hmem => ih v hmem (hv.child hmem)
    obtain ⟨classId', d, names, hid, hd, hshape, hp⟩ := Encoder.body_object_eq_ok hb
    have hclass' := hclass
    change c.settings.registry.classIdOf className = _ at hclass'
    rw [hid] at hclass'
    cases hclass'
    obtain ⟨d', hd', rfl, hge, -⟩ := hc.announced.classIdOf hid
    rw [hd] at hd'
    cases hd'
    rw [Decoder.body_eq]
    refine follows_placed hc .object
      (ValueKind.ofClassId_registered _ hge hd (by rw [hshape])) rfl hv rfl hclass habove hp hend
      ?_ ?_
    · intro u u' inner hu
      obtain ⟨_, -, -, hi⟩ := Encoder.objectContents_eq_ok hu
      exact (Encoder.elements_grows (fun v _ => Encoder.body_grows v) hi).front
    · intro u u' inner hbytes hu hend'
      rw [hbytes, List.length_cons] at hlen
      exact follows_object hc hge hd hshape hparts
        (fun v hmem => habove.open_child hc hv rfl hmem) hu hend' (by omega)

end Bodies

end Writing

end RemoteCall
