import RemoteCall.Codec.Encode
import RemoteCall.Proofs.Codec.Scalars
import RemoteCall.Proofs.Value.Graph

/-!
# What a writer has written

A writer that succeeds has taken all of its steps, so its result comes apart into theirs. The table
of instances only grows, by instances of the value that is written and by each at most once; a
value other than null has at least one byte, hence elements have at least as many bytes as their
count says.
-/

namespace RemoteCall

namespace Encoder

/-- Two steps in a row both succeed. -/
theorem bind_eq_ok {w : Encoder α} {f : α → Encoder β} {t t' : List Nat} {b : β}
    (h : (w >>= f) t = .ok (b, t')) : ∃ a t₁, w t = .ok (a, t₁) ∧ f a t₁ = .ok (b, t') := by
  change Except.bind (w t) (fun r => f r.1 r.2) = _ at h
  cases hw : w t with
  | error e =>
    rw [hw] at h
    cases h
  | ok r =>
    rw [hw] at h
    exact ⟨r.1, r.2, rfl, h⟩

/-- A known result changes nothing. -/
theorem pure_eq_ok {a b : α} {t t' : List Nat} (h : (pure a : Encoder α) t = .ok (b, t')) :
    a = b ∧ t = t' := by
  cases h
  exact ⟨rfl, rfl⟩

/-- A check succeeds and changes nothing. -/
theorem lift_bind_eq_ok {x : Except CodecError α} {f : α → Encoder β} {t t' : List Nat} {b : β}
    (h : (liftM x >>= f) t = .ok (b, t')) : ∃ a, x = .ok a ∧ f a t = .ok (b, t') := by
  cases x with
  | error e => cases h
  | ok a => exact ⟨a, rfl, h⟩

/-- Going deeper needs room. -/
theorem deeper_eq_ok {s : CodecSettings} {room : Nat} {inner : Nat → Encoder α} {t t' : List Nat}
    {a : α} (h : deeper s room inner t = .ok (a, t')) :
    ∃ left, room = left + 1 ∧ inner left t = .ok (a, t') := by
  cases room with
  | zero => cases h
  | succ left => exact ⟨left, rfl, h⟩

/-- Below the size of a word a marker is one more than the position. -/
theorem marker_of_lt {position : Nat} (h : position < UInt32.size) :
    marker position = Varint.encode (position + 1) := by
  rw [marker, Nat.mod_eq_of_lt h]

/-- How an instance is written: as a reference to its place in the table, or with its contents
after it has been put at the end of the table. -/
inductive Placed (id : Nat) (contents : Encoder (List UInt8)) :
    List Nat → List UInt8 → List Nat → Prop
  | again {t : List Nat} (position : Nat) (found : t.idxOf? id = some position) :
    Placed id contents t (marker position) t
  | first {t t' : List Nat} {inner : List UInt8} (new : id ∉ t)
    (written : contents (t ++ [id]) = .ok (inner, t')) : Placed id contents t (0 :: inner) t'

/-- An instance is a reference to a place of the table, or new and put at its end. -/
theorem track_eq_ok {id : Nat} {contents : Encoder (List UInt8)} {t t' : List Nat}
    {bytes : List UInt8} (h : track id contents t = .ok (bytes, t')) :
    Placed id contents t bytes t' := by
  obtain ⟨written, t₁, hg, h⟩ := bind_eq_ok h
  cases hg
  cases hi : t.idxOf? id with
  | some position =>
    rw [hi] at h
    obtain ⟨rfl, rfl⟩ := pure_eq_ok h
    exact .again position hi
  | none =>
    rw [hi] at h
    obtain ⟨_, t₂, hs, h⟩ := bind_eq_ok h
    cases hs
    obtain ⟨inner, t₃, hc, h⟩ := bind_eq_ok h
    obtain ⟨rfl, rfl⟩ := pure_eq_ok h
    exact .first (List.idxOf?_eq_none_iff.mp hi) hc

/-- A collection without its marker. -/
def collectionContents (s : CodecSettings) (room : Nat) (form : CollectionForm)
    (items : List Value) : Encoder (List UInt8) :=
  deeper s room fun room => do
    let head ← collectionHead s room form
    let shared ← sharedClass s.registry items
    let tag := if items.isEmpty then [] else sharedTag shared
    return head ++ Varint.encode items.length ++ tag ++ (← elements s room shared items)

/-- A map without its marker. -/
def mapContents (s : CodecSettings) (room : Nat) (form : MapForm)
    (pairs : List (Value × Value)) : Encoder (List UInt8) :=
  deeper s room fun room => do
    let head ← mapHead s form
    let keys ← sharedClass s.registry (pairs.map (·.1))
    let values ← sharedClass s.registry (pairs.map (·.2))
    let tags := if pairs.isEmpty then [] else sharedTag keys ++ sharedTag values
    return head ++ Varint.encode pairs.length ++ tags ++ (← entries s room keys values pairs)

/-- The fields of an object without its marker. -/
def objectContents (s : CodecSettings) (room : Nat) (className : String) (names : List String)
    (fields : List Value) : Encoder (List UInt8) :=
  deeper s room fun room => do
    if names.length ≠ fields.length then
      throw (.fieldCount className names.length fields.length)
    elements s room none fields

/-- A collection is its contents, tracked unless it is an array of scalars. -/
theorem body_collection (s : CodecSettings) (room id : Nat) (form : CollectionForm)
    (items : List Value) : body s room (.collection id form items) =
      if form.isTracked then track id (collectionContents s room form items)
      else collectionContents s room form items := by
  rw [body]
  rfl

/-- A map is its contents, tracked. -/
theorem body_map (s : CodecSettings) (room id : Nat) (form : MapForm)
    (pairs : List (Value × Value)) :
    body s room (.map id form pairs) = track id (mapContents s room form pairs) := by
  rw [body]
  rfl

/-- The parts of a collection that was written. -/
theorem collectionContents_eq_ok {s : CodecSettings} {room : Nat} {form : CollectionForm}
    {items : List Value} {t t' : List Nat} {bytes : List UInt8}
    (h : collectionContents s room form items t = .ok (bytes, t')) :
    ∃ left head shared inner, room = left + 1 ∧ collectionHead s left form = .ok head ∧
      sharedClass s.registry items = .ok shared ∧
      elements s left shared items t = .ok (inner, t') ∧
      bytes = head ++ Varint.encode items.length ++ (if items.isEmpty then [] else
        sharedTag shared) ++ inner := by
  obtain ⟨left, rfl, h⟩ := deeper_eq_ok h
  obtain ⟨head, hh, h⟩ := lift_bind_eq_ok h
  obtain ⟨shared, hs, h⟩ := lift_bind_eq_ok h
  obtain ⟨inner, t₁, hi, h⟩ := bind_eq_ok h
  obtain ⟨rfl, rfl⟩ := pure_eq_ok h
  exact ⟨left, head, shared, inner, rfl, hh, hs, hi, rfl⟩

/-- The parts of a map that was written. -/
theorem mapContents_eq_ok {s : CodecSettings} {room : Nat} {form : MapForm}
    {pairs : List (Value × Value)} {t t' : List Nat} {bytes : List UInt8}
    (h : mapContents s room form pairs t = .ok (bytes, t')) :
    ∃ left head keys values inner, room = left + 1 ∧ mapHead s form = .ok head ∧
      sharedClass s.registry (pairs.map (·.1)) = .ok keys ∧
      sharedClass s.registry (pairs.map (·.2)) = .ok values ∧
      entries s left keys values pairs t = .ok (inner, t') ∧
      bytes = head ++ Varint.encode pairs.length ++ (if pairs.isEmpty then [] else
        sharedTag keys ++ sharedTag values) ++ inner := by
  obtain ⟨left, rfl, h⟩ := deeper_eq_ok h
  obtain ⟨head, hh, h⟩ := lift_bind_eq_ok h
  obtain ⟨keys, hk, h⟩ := lift_bind_eq_ok h
  obtain ⟨values, hv, h⟩ := lift_bind_eq_ok h
  obtain ⟨inner, t₁, hi, h⟩ := bind_eq_ok h
  obtain ⟨rfl, rfl⟩ := pure_eq_ok h
  exact ⟨left, head, keys, values, inner, rfl, hh, hk, hv, hi, rfl⟩

/-- The parts of an object that was written. -/
theorem objectContents_eq_ok {s : CodecSettings} {room : Nat} {className : String}
    {names : List String} {fields : List Value} {t t' : List Nat} {bytes : List UInt8}
    (hw : objectContents s room className names fields t = .ok (bytes, t')) :
    ∃ left, room = left + 1 ∧ names.length = fields.length ∧
      elements s left none fields t = .ok (bytes, t') := by
  obtain ⟨left, rfl, h⟩ := deeper_eq_ok hw
  change (if names.length ≠ fields.length then _ else _ : Encoder (List UInt8)) t = _ at h
  by_cases hn : names.length ≠ fields.length
  · rw [if_pos hn] at h
    cases h
  · rw [if_neg hn] at h
    exact ⟨left, rfl, Decidable.not_not.mp hn, h⟩

/-- An object is the contents that its class declares, tracked. -/
theorem body_object_eq_ok {s : CodecSettings} {room id : Nat} {className : String}
    {fields : List Value} {t t' : List Nat} {bytes : List UInt8}
    (h : body s room (.object id className fields) t = .ok (bytes, t')) :
    ∃ classId c names, s.registry.classIdOf className = .ok classId ∧
      s.registry.byClassId classId = .ok c ∧ c.shape = .object names ∧
      Placed id (objectContents s room className names fields) t bytes t' := by
  rw [body] at h
  obtain ⟨classId, hid, h⟩ := lift_bind_eq_ok h
  obtain ⟨c, hc, h⟩ := lift_bind_eq_ok h
  cases hs : c.shape with
  | enum variants =>
    rw [hs] at h
    obtain ⟨left, rfl, h⟩ := deeper_eq_ok h
    cases h
  | object names =>
    rw [hs] at h
    exact ⟨classId, c, names, hid, hc, hs, track_eq_ok h⟩

/-- The first of several elements and the others after it. -/
theorem elements_cons_eq_ok {s : CodecSettings} {room : Nat} {shared : Option Nat} {v : Value}
    {rest : List Value} {t t' : List Nat} {bytes : List UInt8}
    (h : elements s room shared (v :: rest) t = .ok (bytes, t')) :
    ∃ tag front t₁ back, elementTag s shared v = .ok tag ∧ body s room v t = .ok (front, t₁) ∧
      elements s room shared rest t₁ = .ok (back, t') ∧ bytes = tag ++ front ++ back := by
  rw [elements] at h
  obtain ⟨tag, ht, h⟩ := lift_bind_eq_ok h
  obtain ⟨front, t₁, hf, h⟩ := bind_eq_ok h
  obtain ⟨back, t₂, hb, h⟩ := bind_eq_ok h
  obtain ⟨rfl, rfl⟩ := pure_eq_ok h
  exact ⟨tag, front, t₁, back, ht, hf, hb, rfl⟩

/-- The first of several entries and the others after it. -/
theorem entries_cons_eq_ok {s : CodecSettings} {room : Nat} {keys values : Option Nat}
    {k v : Value} {rest : List (Value × Value)} {t t' : List Nat} {bytes : List UInt8}
    (h : entries s room keys values ((k, v) :: rest) t = .ok (bytes, t')) :
    ∃ keyTag keyBytes t₁ valueTag valueBytes t₂ back,
      elementTag s keys k = .ok keyTag ∧ body s room k t = .ok (keyBytes, t₁) ∧
      elementTag s values v = .ok valueTag ∧ body s room v t₁ = .ok (valueBytes, t₂) ∧
      entries s room keys values rest t₂ = .ok (back, t') ∧
      bytes = keyTag ++ keyBytes ++ valueTag ++ valueBytes ++ back := by
  rw [entries] at h
  obtain ⟨keyTag, hkt, h⟩ := lift_bind_eq_ok h
  obtain ⟨keyBytes, t₁, hk, h⟩ := bind_eq_ok h
  obtain ⟨valueTag, hvt, h⟩ := lift_bind_eq_ok h
  obtain ⟨valueBytes, t₃, hv, h⟩ := bind_eq_ok h
  obtain ⟨back, t₄, hb, h⟩ := bind_eq_ok h
  obtain ⟨rfl, rfl⟩ := pure_eq_ok h
  exact ⟨keyTag, keyBytes, t₁, valueTag, valueBytes, t₃, back, hkt, hk, hvt, hv, hb, rfl⟩

/-- A variant is written if its class declares it. -/
theorem variantBody_eq_ok {s : CodecSettings} {room : Nat} {className : String} {ordinal : UInt32}
    {t t' : List Nat} {bytes : List UInt8}
    (h : variantBody s room className ordinal t = .ok (bytes, t')) :
    ∃ classId c variants left, s.registry.classIdOf className = .ok classId ∧
      s.registry.byClassId classId = .ok c ∧ c.shape = .enum variants ∧
      ordinal.toNat < variants.length ∧ room = left + 1 ∧
      bytes = Varint.encode ordinal.toNat ∧ t' = t := by
  obtain ⟨classId, hid, h⟩ := lift_bind_eq_ok h
  obtain ⟨c, hc, h⟩ := lift_bind_eq_ok h
  obtain ⟨left, rfl, h⟩ := deeper_eq_ok h
  cases hs : c.shape with
  | object names =>
    rw [hs] at h
    cases h
  | enum variants =>
    rw [hs] at h
    change (if _ then _ else _ : Encoder (List UInt8)) t = _ at h
    split at h
    · rename_i hlt
      obtain ⟨rfl, rfl⟩ := pure_eq_ok h
      exact ⟨classId, c, variants, left, hid, hc, hs, hlt, rfl, rfl, rfl⟩
    · cases h

/-- A table that grew at its end, by some of the given numbers and by each at most once. -/
structure Grows (t t' : List Nat) (added : List Nat) : Prop where
  /-- What was there stays where it was. -/
  front : t <+: t'
  /-- No number stands in the table twice. -/
  nodup : t.Nodup → t'.Nodup
  /-- Only the given numbers are new. -/
  mem : ∀ n ∈ t', n ∈ t ∨ n ∈ added

namespace Grows

variable {t t₁ t₂ : List Nat} {added more : List Nat}

/-- A table that stays has grown by nothing. -/
theorem refl (t added : List Nat) : Grows t t added :=
  ⟨List.prefix_refl t, fun h => h, fun _ h => .inl h⟩

/-- Growing in turn. -/
theorem trans (h : Grows t t₁ added) (h' : Grows t₁ t₂ more) : Grows t t₂ (added ++ more) := by
  refine ⟨h.front.trans h'.front, fun ht => h'.nodup (h.nodup ht), fun n hn => ?_⟩
  rcases h'.mem n hn with hn | hn
  · exact (h.mem n hn).imp_right (List.mem_append_left more)
  · exact .inr (List.mem_append_right added hn)

/-- Growing by a new instance and by what its contents bring. -/
theorem cons {id : Nat} (hid : id ∉ t) (h : Grows (t ++ [id]) t₁ added) :
    Grows t t₁ (id :: added) := by
  refine ⟨(List.prefix_append t [id]).trans h.front, fun ht => h.nodup ?_, fun n hn => ?_⟩
  · refine List.nodup_append'.mpr ⟨ht, List.nodup_singleton id, ?_⟩
    exact List.disjoint_singleton.mpr hid
  · rcases h.mem n hn with hn | hn
    · rcases List.mem_append.mp hn with hn | hn
      · exact .inl hn
      · exact .inr (List.mem_cons.mpr (.inl (List.mem_singleton.mp hn)))
    · exact .inr (List.mem_cons_of_mem id hn)

end Grows

/-- Writing an instance grows the table if writing its contents does. -/
theorem Placed.grows {id : Nat} {contents : Encoder (List UInt8)} {t t' : List Nat}
    {bytes : List UInt8} {added : List Nat} (h : Placed id contents t bytes t')
    (hc : ∀ u u' inner, contents u = .ok (inner, u') → Grows u u' added) :
    Grows t t' (id :: added) := by
  cases h with
  | again position found => exact .refl t _
  | first new written => exact (hc _ _ _ written).cons new

/-- Writing elements grows the table if writing each does. -/
theorem elements_grows {s : CodecSettings} {room : Nat} {shared : Option Nat} {vs : List Value}
    (hv : ∀ v ∈ vs, ∀ room t t' bytes, body s room v t = .ok (bytes, t') → Grows t t' v.instances)
    {t t' : List Nat} {bytes : List UInt8} (h : elements s room shared vs t = .ok (bytes, t')) :
    Grows t t' (Value.instancesOf vs) := by
  induction vs generalizing t bytes with
  | nil =>
    obtain ⟨rfl, rfl⟩ := pure_eq_ok h
    exact .refl t []
  | cons v rest ih =>
    obtain ⟨tag, front, t₁, back, -, hf, hb, -⟩ := elements_cons_eq_ok h
    exact (hv v List.mem_cons_self _ _ _ _ hf).trans
      (ih (fun w hw => hv w (List.mem_cons_of_mem v hw)) hb)

/-- Writing entries grows the table if writing each key and value does. -/
theorem entries_grows {s : CodecSettings} {room : Nat} {keys values : Option Nat}
    {pairs : List (Value × Value)}
    (hk : ∀ e ∈ pairs, ∀ room t t' bytes, body s room e.1 t = .ok (bytes, t') →
      Grows t t' e.1.instances)
    (hv : ∀ e ∈ pairs, ∀ room t t' bytes, body s room e.2 t = .ok (bytes, t') →
      Grows t t' e.2.instances)
    {t t' : List Nat} {bytes : List UInt8}
    (h : entries s room keys values pairs t = .ok (bytes, t')) :
    Grows t t' (Value.instancesOfEntries pairs) := by
  induction pairs generalizing t bytes with
  | nil =>
    obtain ⟨rfl, rfl⟩ := pure_eq_ok h
    exact .refl t []
  | cons e rest ih =>
    obtain ⟨k, v⟩ := e
    obtain ⟨_, _, t₁, _, _, t₂, _, -, hkb, -, hvb, hb, -⟩ := entries_cons_eq_ok h
    have hkey := hk (k, v) List.mem_cons_self _ _ _ _ hkb
    have hvalue := hv (k, v) List.mem_cons_self _ _ _ _ hvb
    exact (hkey.trans hvalue).trans (ih (fun d hd => hk d (List.mem_cons_of_mem _ hd))
      (fun d hd => hv d (List.mem_cons_of_mem _ hd)) hb)

/-- Writing a value grows the table by instances of the value. -/
theorem body_grows {s : CodecSettings} (v : Value) : ∀ room t t' bytes,
    body s room v t = .ok (bytes, t') → Grows t t' v.instances := by
  induction v using Value.byParts with
  | null =>
    intro room t t' bytes h
    rw [body] at h
    obtain ⟨rfl, rfl⟩ := pure_eq_ok h
    exact .refl t _
  | scalar v =>
    intro room t t' bytes h
    rw [body] at h
    obtain ⟨left, -, h⟩ := deeper_eq_ok h
    obtain ⟨rfl, rfl⟩ := pure_eq_ok h
    exact .refl t _
  | variant c i =>
    intro room t t' bytes h
    rw [body] at h
    obtain ⟨_, _, _, _, -, -, -, -, -, -, rfl⟩ := variantBody_eq_ok h
    exact .refl _ _
  | collection id form items ih =>
    intro room t t' bytes h
    have hc : ∀ u u' inner, collectionContents s room form items u = .ok (inner, u') →
        Grows u u' (Value.instancesOf items) := by
      intro u u' inner hu
      obtain ⟨_, _, _, _, -, -, -, hi, -⟩ := collectionContents_eq_ok hu
      exact elements_grows ih hi
    rw [body_collection] at h
    rw [Value.instances]
    split at h
    · rename_i hform
      rw [if_pos hform]
      exact (track_eq_ok h).grows hc
    · rename_i hform
      rw [if_neg hform]
      exact hc _ _ _ h
  | map id form pairs ih =>
    intro room t t' bytes h
    rw [body_map] at h
    refine (track_eq_ok h).grows fun u u' inner hu => ?_
    obtain ⟨_, _, _, _, _, -, -, -, -, hi, -⟩ := mapContents_eq_ok hu
    exact entries_grows (fun e he => (ih e he).1) (fun e he => (ih e he).2) hi
  | object id c fields ih =>
    intro room t t' bytes h
    obtain ⟨_, _, _, -, -, -, hp⟩ := body_object_eq_ok h
    refine hp.grows fun u u' inner hu => ?_
    obtain ⟨_, -, -, hi⟩ := objectContents_eq_ok hu
    exact elements_grows ih hi

/-- A value other than null settles the matter only for itself. -/
theorem allOfClass_cons {registry : Registry} {classId : Nat} {v : Value} (hv : v ≠ .null)
    (rest : List Value) : allOfClass registry classId (v :: rest) = do
      if (← v.classId registry) = classId then allOfClass registry classId rest
      else return false := by
  cases v with
  | null => exact absurd rfl hv
  | _ => rfl

/-- A value other than null gives the class that the others are held against. -/
theorem sharedClass_cons {registry : Registry} {v : Value} (hv : v ≠ .null) (rest : List Value) :
    sharedClass registry (v :: rest) = do
      let classId ← v.classId registry
      return if ← allOfClass registry classId rest then some classId else none := by
  cases v with
  | null => exact absurd rfl hv
  | _ => rfl

/-- A class that all values share is the class of each, and none is null. -/
theorem allOfClass_eq_true {registry : Registry} {classId : Nat} {vs : List Value}
    (h : allOfClass registry classId vs = .ok true) :
    ∀ v ∈ vs, v ≠ .null ∧ v.classId registry = .ok classId := by
  induction vs with
  | nil =>
    intro v hv
    cases hv
  | cons w rest ih =>
    by_cases hw : w = .null
    · subst hw
      cases h
    · rw [allOfClass_cons hw] at h
      cases hc : w.classId registry with
      | error e =>
        rw [hc] at h
        cases h
      | ok found =>
        rw [hc] at h
        change (if found = classId then _ else _ : Except CodecError Bool) = _ at h
        split at h
        · rename_i hfound
          subst hfound
          intro v hv
          rcases List.mem_cons.mp hv with rfl | hv
          · exact ⟨hw, hc⟩
          · exact ih h v hv
        · cases h

/-- A shared class is the class of every element, and none is null. -/
theorem sharedClass_eq_some {registry : Registry} {classId : Nat} {vs : List Value}
    (h : sharedClass registry vs = .ok (some classId)) :
    ∀ v ∈ vs, v ≠ .null ∧ v.classId registry = .ok classId := by
  cases vs with
  | nil => cases h
  | cons w rest =>
    by_cases hw : w = .null
    · subst hw
      cases h
    · rw [sharedClass_cons hw] at h
      cases hc : w.classId registry with
      | error e =>
        rw [hc] at h
        cases h
      | ok found =>
        rw [hc] at h
        change Except.bind (allOfClass registry found rest) _ = _ at h
        cases ha : allOfClass registry found rest with
        | error e =>
          rw [ha] at h
          cases h
        | ok all =>
          rw [ha] at h
          cases all with
          | false => cases h
          | true =>
            cases h
            intro v hv
            rcases List.mem_cons.mp hv with rfl | hv
            · exact ⟨hw, hc⟩
            · exact allOfClass_eq_true ha v hv

/-- A value has the tag of its class, and null has the tag zero. -/
theorem valueTag_eq_ok {s : CodecSettings} {v : Value} {tag : List UInt8}
    (h : valueTag s v = .ok tag) : (v = .null ∧ tag = Varint.encode 0) ∨
      v ≠ .null ∧ ∃ classId, v.classId s.registry = .ok classId ∧ tag = classTag classId := by
  by_cases hv : v = .null
  · subst hv
    cases h
    exact .inl ⟨rfl, rfl⟩
  · have hw : valueTag s v = (do return classTag (← v.classId s.registry)) := by
      cases v with
      | null => exact absurd rfl hv
      | _ => rfl
    rw [hw] at h
    cases hc : v.classId s.registry with
    | error e =>
      rw [hc] at h
      cases h
    | ok classId =>
      rw [hc] at h
      cases h
      exact .inr ⟨hv, classId, rfl, rfl⟩

/-- A tag has at least one byte. -/
theorem length_valueTag_pos {s : CodecSettings} {v : Value} {tag : List UInt8}
    (h : valueTag s v = .ok tag) : 0 < tag.length := by
  rcases valueTag_eq_ok h with ⟨-, rfl⟩ | ⟨-, classId, -, rfl⟩
  · exact Varint.length_encode_pos _
  · exact Varint.length_encode_pos _

/-- An instance has a marker. -/
theorem Placed.length_pos {id : Nat} {contents : Encoder (List UInt8)} {t t' : List Nat}
    {bytes : List UInt8} (h : Placed id contents t bytes t') : 0 < bytes.length := by
  cases h with
  | again position found => exact Varint.length_encode_pos _
  | first new written => exact Nat.succ_pos _

/-- A value other than null has at least one byte. -/
theorem length_body_pos {s : CodecSettings} {v : Value} (hv : v ≠ .null) {room : Nat}
    {t t' : List Nat} {bytes : List UInt8} (h : body s room v t = .ok (bytes, t')) :
    0 < bytes.length := by
  cases v with
  | null => exact absurd rfl hv
  | scalar v =>
    rw [body] at h
    obtain ⟨left, -, h⟩ := deeper_eq_ok h
    obtain ⟨rfl, -⟩ := pure_eq_ok h
    exact v.length_encode_pos
  | variant c i =>
    rw [body] at h
    obtain ⟨_, _, _, _, -, -, -, -, -, rfl, -⟩ := variantBody_eq_ok h
    exact Varint.length_encode_pos _
  | collection id form items =>
    rw [body_collection] at h
    split at h
    · exact (track_eq_ok h).length_pos
    · obtain ⟨_, head, _, inner, -, -, -, -, rfl⟩ := collectionContents_eq_ok h
      have hn := Varint.length_encode_pos items.length
      simp only [List.length_append]
      omega
  | map id form pairs =>
    rw [body_map] at h
    exact (track_eq_ok h).length_pos
  | object id c fields =>
    obtain ⟨_, _, _, -, -, -, hp⟩ := body_object_eq_ok h
    exact hp.length_pos

/-- An element has at least one byte. -/
theorem length_element_pos {s : CodecSettings} {v : Value} {shared : Option Nat}
    (hv : shared.isSome → v ≠ .null) {room : Nat} {t t' : List Nat} {tag bytes : List UInt8}
    (ht : elementTag s shared v = .ok tag) (h : body s room v t = .ok (bytes, t')) :
    0 < tag.length + bytes.length := by
  rw [elementTag] at ht
  split at ht
  · rename_i hs
    exact Nat.add_pos_right _ (length_body_pos (hv hs) h)
  · exact Nat.add_pos_left (length_valueTag_pos ht) _

/-- Elements have at least as many bytes as their count says. -/
theorem length_le_elements {s : CodecSettings} {room : Nat} {shared : Option Nat}
    {vs : List Value} (hv : ∀ v ∈ vs, shared.isSome → v ≠ .null) {t t' : List Nat}
    {bytes : List UInt8} (h : elements s room shared vs t = .ok (bytes, t')) :
    vs.length ≤ bytes.length := by
  induction vs generalizing t bytes with
  | nil => exact Nat.zero_le _
  | cons v rest ih =>
    obtain ⟨tag, front, t₁, back, ht, hf, hb, rfl⟩ := elements_cons_eq_ok h
    have hfirst := length_element_pos (hv v List.mem_cons_self) ht hf
    have hrest := ih (fun w hw => hv w (List.mem_cons_of_mem v hw)) hb
    simp only [List.length_append, List.length_cons]
    omega

/-- Entries have at least two bytes each. -/
theorem length_le_entries {s : CodecSettings} {room : Nat} {keys values : Option Nat}
    {pairs : List (Value × Value)} (hk : ∀ e ∈ pairs, keys.isSome → e.1 ≠ .null)
    (hv : ∀ e ∈ pairs, values.isSome → e.2 ≠ .null) {t t' : List Nat} {bytes : List UInt8}
    (h : entries s room keys values pairs t = .ok (bytes, t')) :
    pairs.length * 2 ≤ bytes.length := by
  induction pairs generalizing t bytes with
  | nil => exact Nat.zero_le _
  | cons e rest ih =>
    obtain ⟨k, v⟩ := e
    obtain ⟨_, _, t₁, _, _, t₂, _, hkt, hkb, hvt, hvb, hb, rfl⟩ := entries_cons_eq_ok h
    have hkey := length_element_pos (hk (k, v) List.mem_cons_self) hkt hkb
    have hvalue := length_element_pos (hv (k, v) List.mem_cons_self) hvt hvb
    have hrest := ih (fun d hd => hk d (List.mem_cons_of_mem _ hd))
      (fun d hd => hv d (List.mem_cons_of_mem _ hd)) hb
    simp only [List.length_append, List.length_cons]
    omega

end Encoder

end RemoteCall
