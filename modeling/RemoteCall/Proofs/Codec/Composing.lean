import RemoteCall.Proofs.Codec.Writing

/-!
# What is written from parts

The other direction of taking a writing apart: a writer whose steps succeed succeeds, and its bytes
are those of the steps. Elements of known classes have a shared class or none, so nothing but the
parts themselves can keep a container from being written.
-/

namespace RemoteCall

namespace Encoder

variable {s : CodecSettings} {room : Nat} {t t₁ t₂ t' : List Nat}

/-- After a step that succeeds the next one follows. -/
theorem bind_of_ok {w : Encoder α} {f : α → Encoder β} {a : α} (h : w t = .ok (a, t₁)) :
    (w >>= f) t = f a t₁ := by
  change Except.bind (w t) (fun r => f r.1 r.2) = _
  rw [h]
  rfl

/-- After a check that succeeds the next step follows. -/
theorem lift_bind_of_ok {x : Except CodecError α} {f : α → Encoder β} {a : α} (h : x = .ok a) :
    (liftM x >>= f) t = f a t := by
  subst h
  rfl

/-- An instance in the table is written as a reference. -/
theorem track_again {id position : Nat} {contents : Encoder (List UInt8)}
    (h : t.idxOf? id = some position) : track id contents t = .ok (marker position, t) := by
  have hget : (get : Encoder (List Nat)) t = .ok (t, t) := rfl
  rw [track, bind_of_ok hget, h]
  rfl

/-- A new instance is written with its contents. -/
theorem track_first {id : Nat} {contents : Encoder (List UInt8)} {inner : List UInt8}
    (hnew : id ∉ t) (h : contents (t ++ [id]) = .ok (inner, t')) :
    track id contents t = .ok (0 :: inner, t') := by
  have hget : (get : Encoder (List Nat)) t = .ok (t, t) := rfl
  have hset : (set (t ++ [id]) : Encoder PUnit) t = .ok (⟨⟩, t ++ [id]) := rfl
  rw [track, bind_of_ok hget, List.idxOf?_eq_none_iff.mpr hnew]
  dsimp only
  rw [bind_of_ok hset, bind_of_ok h]
  rfl

/-- The tag of a value other than null is that of its class. -/
theorem valueTag_of_class {v : Value} {classId : Nat} (hv : v ≠ .null)
    (h : v.classId s.registry = .ok classId) : valueTag s v = .ok (classTag classId) := by
  have htag : valueTag s v = (do return classTag (← v.classId s.registry)) := by
    cases v with
    | null => exact absurd rfl hv
    | _ => rfl
  rw [htag, h]
  rfl

/-- The first of several elements and the others after it. -/
theorem elements_cons {shared : Option Nat} {v : Value} {rest : List Value}
    {tag front back : List UInt8} (htag : elementTag s shared v = .ok tag)
    (hfront : body s room v t = .ok (front, t₁))
    (hback : elements s room shared rest t₁ = .ok (back, t')) :
    elements s room shared (v :: rest) t = .ok (tag ++ front ++ back, t') := by
  rw [elements, lift_bind_of_ok htag, bind_of_ok hfront, bind_of_ok hback]
  rfl

/-- The first of several entries and the others after it. -/
theorem entries_cons {keys values : Option Nat} {k v : Value} {rest : List (Value × Value)}
    {keyTag keyBytes valueTag valueBytes back : List UInt8}
    (hkeyTag : elementTag s keys k = .ok keyTag) (hkey : body s room k t = .ok (keyBytes, t₁))
    (hvalueTag : elementTag s values v = .ok valueTag)
    (hvalue : body s room v t₁ = .ok (valueBytes, t₂))
    (hback : entries s room keys values rest t₂ = .ok (back, t')) :
    entries s room keys values ((k, v) :: rest) t =
      .ok (keyTag ++ keyBytes ++ valueTag ++ valueBytes ++ back, t') := by
  rw [entries, lift_bind_of_ok hkeyTag, bind_of_ok hkey, lift_bind_of_ok hvalueTag,
    bind_of_ok hvalue, bind_of_ok hback]
  rfl

/-- A collection whose parts can be written. -/
theorem collectionContents_of_parts {form : CollectionForm} {items : List Value}
    {shared : Option Nat} {head inner : List UInt8} (hhead : collectionHead s room form = .ok head)
    (hshared : sharedClass s.registry items = .ok shared)
    (hinner : elements s room shared items t = .ok (inner, t')) :
    collectionContents s (room + 1) form items t = .ok (head ++ Varint.encode items.length ++
      (if items.isEmpty then [] else sharedTag shared) ++ inner, t') := by
  rw [collectionContents, deeper, lift_bind_of_ok hhead, lift_bind_of_ok hshared,
    bind_of_ok hinner]
  rfl

/-- A map whose parts can be written. -/
theorem mapContents_of_parts {form : MapForm} {pairs : List (Value × Value)}
    {keys values : Option Nat} {head inner : List UInt8} (hhead : mapHead s form = .ok head)
    (hkeys : sharedClass s.registry (pairs.map (·.1)) = .ok keys)
    (hvalues : sharedClass s.registry (pairs.map (·.2)) = .ok values)
    (hinner : entries s room keys values pairs t = .ok (inner, t')) :
    mapContents s (room + 1) form pairs t = .ok (head ++ Varint.encode pairs.length ++
      (if pairs.isEmpty then [] else sharedTag keys ++ sharedTag values) ++ inner, t') := by
  rw [mapContents, deeper, lift_bind_of_ok hhead, lift_bind_of_ok hkeys, lift_bind_of_ok hvalues,
    bind_of_ok hinner]
  rfl

/-- An object with as many fields as its class declares. -/
theorem objectContents_of_parts {className : String} {names : List String} {fields : List Value}
    {inner : List UInt8} (hcount : names.length = fields.length)
    (hinner : elements s room none fields t = .ok (inner, t')) :
    objectContents s (room + 1) className names fields t = .ok (inner, t') := by
  rw [objectContents, deeper, if_neg (fun hne => hne hcount)]
  exact hinner

/-- An object of a class that declares objects is its contents, tracked. -/
theorem body_object {id classId : Nat} {className : String} {fields : List Value}
    {c : RegisteredClass} {names : List String}
    (hid : s.registry.classIdOf className = .ok classId)
    (hc : s.registry.byClassId classId = .ok c) (hshape : c.shape = .object names) :
    body s room (.object id className fields) =
      track id (objectContents s room className names fields) := by
  funext u
  rw [body, lift_bind_of_ok hid, lift_bind_of_ok hc, hshape]
  rfl

/-- A variant that its class declares. -/
theorem variantBody_of_declared {classId : Nat} {className : String} {ordinal : UInt32}
    {c : RegisteredClass} {variants : List String}
    (hid : s.registry.classIdOf className = .ok classId)
    (hc : s.registry.byClassId classId = .ok c) (hshape : c.shape = .enum variants)
    (hlt : ordinal.toNat < variants.length) :
    body s (room + 1) (.variant className ordinal) t = .ok (Varint.encode ordinal.toNat, t) := by
  rw [body, variantBody, lift_bind_of_ok hid, lift_bind_of_ok hc, deeper, hshape]
  dsimp only
  rw [if_pos hlt]
  rfl

/-- Values of known classes all have one class, or do not. -/
theorem exists_allOfClass {registry : Registry} {classId : Nat} {vs : List Value}
    (h : ∀ v ∈ vs, v = .null ∨ ∃ classId, v.classId registry = .ok classId) :
    ∃ all, allOfClass registry classId vs = .ok all := by
  induction vs with
  | nil => exact ⟨true, rfl⟩
  | cons v rest ih =>
    by_cases hv : v = .null
    · subst hv
      exact ⟨false, rfl⟩
    · obtain ⟨found, hfound⟩ := (h v List.mem_cons_self).resolve_left hv
      obtain ⟨all, hall⟩ := ih fun w hw => h w (List.mem_cons_of_mem v hw)
      rw [allOfClass_cons hv, hfound]
      change ∃ b, (if found = classId then allOfClass registry classId rest else .ok false) = _
      split
      · exact ⟨all, hall⟩
      · exact ⟨false, rfl⟩

/-- Values of known classes have a shared class or none. -/
theorem exists_sharedClass {registry : Registry} {vs : List Value}
    (h : ∀ v ∈ vs, v = .null ∨ ∃ classId, v.classId registry = .ok classId) :
    ∃ shared, sharedClass registry vs = .ok shared := by
  cases vs with
  | nil => exact ⟨none, rfl⟩
  | cons v rest =>
    by_cases hv : v = .null
    · subst hv
      exact ⟨none, rfl⟩
    · obtain ⟨classId, hclass⟩ := (h v List.mem_cons_self).resolve_left hv
      obtain ⟨all, hall⟩ : ∃ all, allOfClass registry classId rest = .ok all :=
        exists_allOfClass fun w hw => h w (List.mem_cons_of_mem v hw)
      rw [sharedClass_cons hv, hclass]
      change ∃ shared, Except.bind (allOfClass registry classId rest) _ = .ok shared
      rw [hall]
      exact ⟨_, rfl⟩

/-- A value with its tag. -/
theorem value_of_parts {v : Value} {tag inner : List UInt8} (htag : valueTag s v = .ok tag)
    (hinner : body s room v t = .ok (inner, t')) :
    value s room v t = .ok (tag ++ inner, t') := by
  rw [value, lift_bind_of_ok htag, bind_of_ok hinner]
  rfl

/-- A response with its payload. -/
theorem response_of_parts {r : Response} {payload : List UInt8}
    (hpayload : value s s.maxDepth r.payload t = .ok (payload, t')) :
    response s r t = .ok (responseHead r ++ payload, t') := by
  rw [response, bind_of_ok hpayload]
  rfl

/-- A request with its signature and arguments. -/
theorem request_of_parts {r : Request} {sig arguments : List UInt8}
    (hsig : signature s r.signature = .ok sig)
    (harguments : elements s s.maxDepth none r.arguments t = .ok (arguments, t')) :
    request s r t = .ok (classTag ClassId.request ++ (Varint.encode r.id.toNat ++
      (Varint.encodeSigned r.timestamp.toInt ++ (Sized.encodeText r.service ++
      (Sized.encodeText r.method ++ (sig ++ (Varint.encode r.arguments.length ++
      arguments)))))), t') := by
  rw [request, lift_bind_of_ok hsig, bind_of_ok harguments]
  simp only [List.append_assoc]
  rfl

/-- A writer that succeeds from an empty table writes an envelope. -/
theorem run_of_ok {w : Encoder (List UInt8)} {bytes : List UInt8} (h : w [] = .ok (bytes, t)) :
    run w = .ok bytes := by
  change Except.map Prod.fst (w []) = _
  rw [h]
  rfl

end Encoder

end RemoteCall
