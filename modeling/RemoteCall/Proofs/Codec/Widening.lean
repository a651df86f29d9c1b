import RemoteCall.Proofs.Codec.UserClasses
import RemoteCall.Value.Identity

/-!
# Wider settings

Settings are wider than others if they know the same classes under the same numbers and perhaps
more, permit the same comparators and perhaps more, and nest at least as deep. Under wider settings
every lookup and every check that has succeeded succeeds with the same result, and a codec is made
of these: so what is accepted stays accepted as the same datum, with the same instances, and what
could be written is written in the same bytes. Only refusals can change.
-/

namespace RemoteCall

/-- Whatever the narrower result gives, the wider one gives too. -/
def Widened (narrow wide : Except CodecError α) : Prop := ∀ a, narrow = .ok a → wide = .ok a

namespace Widened

/-- A result gives what it gives. -/
theorem refl (x : Except CodecError α) : Widened x x := fun _ h => h

/-- A failure gives nothing. -/
theorem error (e : CodecError) (wide : Except CodecError α) : Widened (.error e) wide :=
  fun _ h => nomatch h

/-- Steps in sequence. -/
theorem bind {x x' : Except CodecError α} {f f' : α → Except CodecError β} (hx : Widened x x')
    (hf : ∀ a, Widened (f a) (f' a)) : Widened (x >>= f) (x' >>= f') := by
  intro b h
  cases hxa : x with
  | error e =>
    rw [hxa] at h
    cases h
  | ok a =>
    rw [hxa] at h
    rw [hx a hxa]
    exact hf a b h

/-- The same step behind a wider one. -/
theorem andThen {x x' : Except CodecError α} {f : α → Except CodecError β} (hx : Widened x x') :
    Widened (x >>= f) (x' >>= f) := hx.bind fun a => refl (f a)

/-- One branch for both. -/
theorem ite {p : Prop} [Decidable p] {x x' y y' : Except CodecError α} (hx : Widened x x')
    (hy : Widened y y') : Widened (if p then x else y) (if p then x' else y') := by
  split
  · exact hx
  · exact hy

end Widened

/-- From every state, whatever the narrower step gives and leaves, the wider one gives and leaves
too. -/
def WidenedStep {σ : Type} (narrow wide : StateT σ (Except CodecError) α) : Prop :=
  ∀ t, Widened (narrow t) (wide t)

namespace WidenedStep

variable {σ : Type} {m m' : StateT σ (Except CodecError) α}

/-- A step gives what it gives. -/
theorem refl (m : StateT σ (Except CodecError) α) : WidenedStep m m := fun t => .refl (m t)

/-- A step that fails gives nothing. -/
theorem throw (e : CodecError) (wide : StateT σ (Except CodecError) α) :
    WidenedStep (throw e) wide := fun t => .error e (wide t)

/-- Steps one after the other are widened if each of them is. -/
theorem bind {f f' : α → StateT σ (Except CodecError) β} (hm : WidenedStep m m')
    (hf : ∀ a, WidenedStep (f a) (f' a)) : WidenedStep (m >>= f) (m' >>= f') :=
  fun t => .bind (hm t) fun p => hf p.1 p.2

/-- The same step behind a wider one. -/
theorem andThen {f : α → StateT σ (Except CodecError) β} (hm : WidenedStep m m') :
    WidenedStep (m >>= f) (m' >>= f) := hm.bind fun a => refl (f a)

/-- A check before a step. -/
theorem lift {x x' : Except CodecError α} (hx : Widened x x') :
    WidenedStep (liftM x : StateT σ (Except CodecError) α) (liftM x') :=
  fun t => .bind hx fun a => .refl (.ok (a, t))

/-- A step that is chosen by a condition is widened with both. -/
theorem ite {p : Prop} [Decidable p] {n n' : StateT σ (Except CodecError) α}
    (hm : WidenedStep m m') (hn : WidenedStep n n') :
    WidenedStep (if p then m else n) (if p then m' else n') := by
  split
  · exact hm
  · exact hn

end WidenedStep

/-- Where one level fits, the wider settings have room for it, and behind it no less room. -/
theorem exists_room {left room : Nat} (h : left + 1 ≤ room) :
    ∃ left', room = left' + 1 ∧ left ≤ left' :=
  ⟨room - 1, by omega, by omega⟩

/-- The settings are those of the other codec, or allow more. -/
structure CodecSettings.Within (s s' : CodecSettings) : Prop where
  /-- Every class is known there under the same number, in the same shape. -/
  classes : s.registry.classes ⊆ s'.registry.classes
  /-- Every comparator that is permitted is permitted there. -/
  comparators : ∀ c, s.comparators.permits c = true → s'.comparators.permits c = true
  /-- Nesting is allowed there at least as deep. -/
  depth : s.maxDepth ≤ s'.maxDepth

namespace CodecSettings.Within

variable {s s' : CodecSettings} (h : s.Within s') (hr : s'.registry.Regular)

include h hr

/-- Classes are found by their numbers. -/
theorem byClassId (classId : Nat) :
    Widened (s.registry.byClassId classId) (s'.registry.byClassId classId) := by
  intro c hc
  obtain ⟨-, hmem, rfl⟩ := Registry.byClassId_eq_ok hc
  exact (hr.announced (h.classes hmem)).2

/-- Numbers are found by the names of their classes. -/
theorem classIdOf (name : String) :
    Widened (s.registry.classIdOf name) (s'.registry.classIdOf name) := by
  intro classId hn
  obtain ⟨c, hc, rfl, rfl⟩ := Registry.classIdOf_eq_ok hn
  exact (hr.announced (h.classes hc)).1

omit hr in
/-- Comparators pass the policy. -/
theorem check (c : Comparator) : Widened (s.comparators.check c) (s'.comparators.check c) := by
  intro _ hc
  exact ComparatorPolicy.check_eq_ok_iff.mpr
    (h.comparators c (ComparatorPolicy.check_eq_ok_iff.mp hc))

/-- Kinds of classes are the same. -/
theorem kind (classId : Nat) :
    Widened (ValueKind.ofClassId s.registry classId) (ValueKind.ofClassId s'.registry classId) := by
  unfold ValueKind.ofClassId
  refine .ite (.refl _) (.ite (.refl _) (.ite (.refl _) (.ite (.refl _) (.ite ?_ (.refl _)))))
  exact .andThen (h.byClassId hr classId)

/-- Values are of the same class. -/
theorem classOf (v : Value) : Widened (v.classId s.registry) (v.classId s'.registry) := by
  cases v with
  | null => exact .refl _
  | scalar a => exact .refl _
  | variant c i => exact h.classIdOf hr c
  | collection id form items => cases form <;> exact .refl _
  | map id form pairs => exact .refl _
  | object id c fields => exact h.classIdOf hr c

end CodecSettings.Within

namespace Encoder

variable {s s' : CodecSettings} (h : s.Within s') (hr : s'.registry.Regular)

/-- Going deeper needs no more room than there is. -/
theorem deeper_widened {room room' : Nat} (hroom : room ≤ room') {inner inner' : Nat → Encoder α}
    (hinner : ∀ left left', left ≤ left' → WidenedStep (inner left) (inner' left')) :
    WidenedStep (deeper s room inner) (deeper s' room' inner') := by
  cases room with
  | zero => exact .throw _ _
  | succ left =>
    obtain ⟨left', rfl, hleft⟩ := exists_room hroom
    exact hinner left left' hleft

/-- An instance is in the table or not, whatever the settings are. -/
theorem track_widened (id : Nat) {contents contents' : Encoder (List UInt8)}
    (hc : WidenedStep contents contents') :
    WidenedStep (track id contents) (track id contents') := by
  refine .bind (.refl _) fun written => ?_
  cases written.idxOf? id with
  | some position => exact .refl _
  | none => exact .bind (.refl _) fun _ => .andThen hc

include h hr

/-- A value that has a tag keeps it. -/
theorem valueTag_widened (v : Value) : Widened (valueTag s v) (valueTag s' v) := by
  cases v with
  | null => exact .refl _
  | scalar a => exact .andThen (h.classOf hr _)
  | variant c i => exact .andThen (h.classOf hr _)
  | collection id form items => exact .andThen (h.classOf hr _)
  | map id form pairs => exact .andThen (h.classOf hr _)
  | object id c fields => exact .andThen (h.classOf hr _)

/-- An element that has a tag keeps it. -/
theorem elementTag_widened (shared : Option Nat) (v : Value) :
    Widened (elementTag s shared v) (elementTag s' shared v) :=
  .ite (.refl _) (valueTag_widened h hr v)

/-- Elements are all of one class, or not. -/
theorem allOfClass_widened (classId : Nat) (vs : List Value) :
    Widened (allOfClass s.registry classId vs) (allOfClass s'.registry classId vs) := by
  induction vs with
  | nil => exact .refl _
  | cons v rest ih =>
    by_cases hv : v = .null
    · subst hv
      exact .refl _
    · rw [allOfClass_cons hv, allOfClass_cons hv]
      exact .bind (h.classOf hr v) fun found => .ite ih (.refl _)

/-- Elements share the same class, or none. -/
theorem sharedClass_widened (vs : List Value) :
    Widened (sharedClass s.registry vs) (sharedClass s'.registry vs) := by
  cases vs with
  | nil => exact .refl _
  | cons v rest =>
    by_cases hv : v = .null
    · subst hv
      exact .refl _
    · rw [sharedClass_cons hv, sharedClass_cons hv]
      exact .bind (h.classOf hr v) fun classId =>
        .andThen (allOfClass_widened h hr classId rest)

omit hr in
/-- A comparator that may be written still may. -/
theorem comparator_widened (c : Comparator) : Widened (comparator s c) (comparator s' c) :=
  .andThen (h.check c)

/-- A type that can be written still can, with more room as well. -/
theorem typeRef_widened (type : TypeRef) {room room' : Nat} (hroom : room ≤ room') :
    Widened (typeRef s room type) (typeRef s' room' type) := by
  cases room with
  | zero => exact .error _ _
  | succ left =>
    obtain ⟨left', rfl, hleft⟩ := exists_room hroom
    clear hroom
    induction type generalizing left left' with
    | void | any | scalar | collection | map => exact .refl _
    | registered name => exact .andThen (h.classIdOf hr name)
    | array element ih =>
      refine .andThen ?_
      cases left with
      | zero => exact .error _ _
      | succ left =>
        obtain ⟨inner, rfl, hinner⟩ := exists_room hleft
        exact ih left inner hinner

/-- So can the head of a collection. -/
theorem collectionHead_widened (form : CollectionForm) {room room' : Nat} (hroom : room ≤ room') :
    Widened (collectionHead s room form) (collectionHead s' room' form) := by
  cases form with
  | array element => exact typeRef_widened h hr element hroom
  | list => exact .refl _
  | set => exact .refl _
  | sortedSet order => exact .andThen (comparator_widened h order)

omit hr in
/-- So can the head of a map. -/
theorem mapHead_widened (form : MapForm) : Widened (mapHead s form) (mapHead s' form) := by
  cases form with
  | plain => exact .refl _
  | sorted order => exact .andThen (comparator_widened h order)

/-- So can a variant. -/
theorem variantBody_widened (className : String) (ordinal : UInt32) {room room' : Nat}
    (hroom : room ≤ room') : WidenedStep (variantBody s room className ordinal)
      (variantBody s' room' className ordinal) := by
  refine .bind (.lift (h.classIdOf hr className)) fun classId => ?_
  refine .bind (.lift (h.byClassId hr classId)) fun c => ?_
  exact deeper_widened hroom fun left left' _ => .refl _

/-- If each element is written alike, so are all. -/
theorem elements_widened {vs : List Value} {room room' : Nat}
    (hv : ∀ v ∈ vs, WidenedStep (body s room v) (body s' room' v)) (shared : Option Nat) :
    WidenedStep (elements s room shared vs) (elements s' room' shared vs) := by
  induction vs with
  | nil => exact .refl _
  | cons v rest ih =>
    rw [elements, elements]
    refine .bind (.lift (elementTag_widened h hr shared v)) fun tag => ?_
    refine .bind (hv v List.mem_cons_self) fun bytes => ?_
    exact .andThen (ih fun w hw => hv w (List.mem_cons_of_mem v hw))

/-- If each key and each value is written alike, so are all entries. -/
theorem entries_widened {pairs : List (Value × Value)} {room room' : Nat}
    (hp : ∀ e ∈ pairs, WidenedStep (body s room e.1) (body s' room' e.1) ∧
      WidenedStep (body s room e.2) (body s' room' e.2)) (keys values : Option Nat) :
    WidenedStep (entries s room keys values pairs) (entries s' room' keys values pairs) := by
  induction pairs with
  | nil => exact .refl _
  | cons e rest ih =>
    obtain ⟨k, v⟩ := e
    obtain ⟨hk, hv⟩ := hp (k, v) List.mem_cons_self
    rw [entries, entries]
    refine .bind (.lift (elementTag_widened h hr keys k)) fun keyTag => .bind hk fun keyBytes => ?_
    refine .bind (.lift (elementTag_widened h hr values v)) fun valueTag => .bind hv fun bytes => ?_
    exact .andThen (ih fun d hd => hp d (List.mem_cons_of_mem _ hd))

/-- A body is written alike wherever there is at least as much room. -/
theorem body_widened (v : Value) {room room' : Nat} (hroom : room ≤ room') :
    WidenedStep (body s room v) (body s' room' v) := by
  induction v using Value.byParts generalizing room room' with
  | null => exact .refl _
  | scalar a =>
    rw [body, body]
    exact deeper_widened hroom fun left left' _ => .refl _
  | variant c i =>
    rw [body, body]
    exact variantBody_widened h hr c i hroom
  | collection id form items ih =>
    have hc : WidenedStep (collectionContents s room form items)
        (collectionContents s' room' form items) := by
      refine deeper_widened hroom fun left left' hleft => ?_
      refine .bind (.lift (collectionHead_widened h hr form hleft)) fun head => ?_
      refine .bind (.lift (sharedClass_widened h hr items)) fun shared => ?_
      exact .andThen (elements_widened h hr (fun v hv => ih v hv hleft) shared)
    rw [body_collection, body_collection]
    exact .ite (track_widened id hc) hc
  | map id form pairs ih =>
    rw [body_map, body_map]
    refine track_widened id (deeper_widened hroom fun left left' hleft => ?_)
    refine .bind (.lift (mapHead_widened h form)) fun head => ?_
    refine .bind (.lift (sharedClass_widened h hr _)) fun keys => ?_
    refine .bind (.lift (sharedClass_widened h hr _)) fun values => ?_
    have hp := entries_widened h hr (fun e he => ⟨(ih e he).1 hleft, (ih e he).2 hleft⟩) keys values
    exact .andThen hp
  | object id className fields ih =>
    rw [body, body]
    refine .bind (.lift (h.classIdOf hr className)) fun classId => ?_
    refine .bind (.lift (h.byClassId hr classId)) fun c => ?_
    cases c.shape with
    | enum variants => exact deeper_widened hroom fun left left' _ => .throw _ _
    | object names =>
      refine track_widened id (deeper_widened hroom fun left left' hleft => ?_)
      exact .ite (.throw _ _) (elements_widened h hr (fun v hv => ih v hv hleft) none)

/-- So can a value, tag and contents. -/
theorem value_widened (v : Value) {room room' : Nat} (hroom : room ≤ room') :
    WidenedStep (value s room v) (value s' room' v) :=
  .bind (.lift (valueTag_widened h hr v)) fun _ =>
    .andThen (body_widened h hr v hroom)

/-- So can types one after the other. -/
theorem typeRefs_widened (specs : List TypeSpec) {room room' : Nat} (hroom : room ≤ room') :
    Widened (typeRefs s room specs) (typeRefs s' room' specs) := by
  induction specs with
  | nil => exact .refl _
  | cons spec rest ih =>
    exact .bind (typeRef_widened h hr spec.type hroom) fun front => .andThen ih

/-- So can a signature. -/
theorem signature_widened (sig : Signature) : Widened (signature s sig) (signature s' sig) := by
  unfold signature
  dsimp only
  cases invalidSpec? (sig.returns :: sig.params) with
  | some spec => exact .refl _
  | none => exact .andThen (typeRefs_widened h hr _ h.depth)

/-- So can a request. -/
theorem request_widened (r : Request) : WidenedStep (request s r) (request s' r) := by
  refine .bind (.lift (signature_widened h hr r.signature)) fun sig => ?_
  have ha := elements_widened h hr (fun v (_ : v ∈ r.arguments) => body_widened h hr v h.depth) none
  exact .andThen ha

/-- So can a response. -/
theorem response_widened (r : Response) : WidenedStep (response s r) (response s' r) :=
  .andThen (value_widened h hr r.payload h.depth)

omit h hr in
/-- What is written from an empty table is written. -/
theorem run_widened {w w' : Encoder (List UInt8)} (hw : WidenedStep w w') :
    Widened (run w) (run w') := by
  intro bytes hb
  obtain ⟨table, ht⟩ := run_eq_ok hb
  exact run_of_ok (hw [] _ ht)

end Encoder

namespace Decoder

/-- From every state, whatever the narrower reader gives and leaves, the wider one gives and leaves
too. -/
def Widened (narrow wide : Decoder α) : Prop :=
  ∀ st a st', narrow st = .ok a st' → wide st = .ok a st'

namespace Widened

variable {d d' : Decoder α}

/-- A decoder reads what it reads. -/
theorem refl (d : Decoder α) : Widened d d := fun _ _ _ h => h

/-- A decoder that fails reads nothing. -/
theorem throw (e : CodecError) (wide : Decoder α) : Widened (throw e) wide :=
  fun _ _ _ h => nomatch h

/-- Steps in sequence. -/
theorem bind {f f' : α → Decoder β} (hd : Widened d d') (hf : ∀ a, Widened (f a) (f' a)) :
    Widened (d >>= f) (d' >>= f') := by
  intro st b st' h
  obtain ⟨a, st₁, ha, h⟩ := bind_eq_ok h
  rw [bind_of_ok (hd _ _ _ ha)]
  exact hf _ _ _ _ h

/-- The same step behind a wider one. -/
theorem andThen {f : α → Decoder β} (hd : Widened d d') : Widened (d >>= f) (d' >>= f) :=
  hd.bind fun a => refl (f a)

/-- A reader of the wire. -/
theorem wire {r r' : Reader α} (hr : WidenedStep r r') :
    Widened (Decoder.wire r) (Decoder.wire r') := by
  intro st a st' h
  obtain ⟨rest, hrest, rfl⟩ := wire_eq_ok h
  exact wire_of_eq_ok (hr _ _ hrest)

/-- A check. -/
theorem known {x x' : Except CodecError α} (hx : RemoteCall.Widened x x') :
    Widened (Decoder.known x) (Decoder.known x') := by
  intro st a st' h
  obtain ⟨ha, rfl⟩ := known_eq_ok h
  rw [hx a ha]
  rfl

/-- One branch for both. -/
theorem ite {p : Prop} [Decidable p] {e e' : Decoder α} (hd : Widened d d')
    (he : Widened e e') : Widened (if p then d else e) (if p then d' else e') := by
  split
  · exact hd
  · exact he

/-- As many times as a count says. -/
theorem repeated (hd : Widened d d') (count : Nat) :
    Widened (Decoder.repeated d count) (Decoder.repeated d' count) := by
  induction count with
  | zero => exact .refl _
  | succ count ih => exact hd.bind fun _ => .andThen ih

end Widened

section Bodies

variable {body body' : Nat → Decoder Value} (hb : ∀ classId, Widened (body classId) (body' classId))

include hb

/-- A tag with its contents that can be read still can if contents can. -/
theorem tagged_widened : Widened (tagged body) (tagged body') :=
  .bind (.refl _) fun _ => .ite (.refl _) (hb _)

/-- So can an element. -/
theorem element_widened (tag : Nat) : Widened (element body tag) (element body' tag) :=
  .ite (tagged_widened hb) (hb _)

/-- So can elements behind their count. -/
theorem elements_widened : Widened (elements body) (elements body') :=
  .bind (.refl _) fun count => .ite (.refl _) <|
    .bind (.refl _) fun tag => .repeated (element_widened hb tag) count

/-- So can entries behind their count. -/
theorem entries_widened : Widened (entries body) (entries body') := by
  refine .bind (.refl _) fun count => .ite (.refl _) ?_
  refine .bind (.refl _) fun keyTag => .bind (.refl _) fun valueTag => .repeated ?_ count
  exact .bind (element_widened hb keyTag) fun _ => .andThen (element_widened hb valueTag)

end Bodies

section Settings

variable {s s' : CodecSettings} (h : s.Within s') (hr : s'.registry.Regular)

include h

/-- A comparator that may be read still may. -/
theorem comparator_widened : WidenedStep (comparator s) (comparator s') := by
  have hcheck (c : Comparator) : WidenedStep (do
      s.comparators.check c
      return c : Reader Comparator) (do
      s'.comparators.check c
      return c) := .andThen (.lift (h.check c))
  refine .bind (.refl _) fun id => .ite ?_ ?_
  · exact .bind (.refl _) hcheck
  · exact .bind (.refl _) hcheck

include hr

/-- A type that can be read still can, with more room as well. -/
theorem typeRef_widened {room room' : Nat} (hroom : room ≤ room') :
    WidenedStep (typeRef s room) (typeRef s' room') := by
  induction room generalizing room' with
  | zero => exact .throw _ _
  | succ left ih =>
    obtain ⟨left', rfl, hleft⟩ := exists_room hroom
    refine .bind (.refl _) fun id => .ite (.refl _) (.ite (.refl _) ?_)
    refine .ite (.refl _) (.ite (.refl _) (.ite ?_ (.ite ?_ (.refl _))))
    · exact .andThen (ih hleft)
    · exact .andThen (.lift (h.byClassId hr id))

variable {body body' : Nat → Decoder Value} (hb : ∀ classId, Widened (body classId) (body' classId))

/-- What stands behind a tag can still be read if fresh contents can: repeats depend on no setting.
-/
theorem bodyWith_widened {fresh fresh' : Nat → Nat → Decoder Value}
    (hf : ∀ position classId, Widened (fresh position classId) (fresh' position classId))
    (classId : Nat) : Widened (bodyWith s fresh classId) (bodyWith s' fresh' classId) := by
  refine .bind (.known (h.kind hr classId)) fun kind => .ite (.refl _) (.ite ?_ ?_)
  · exact .andThen (hf 0 classId)
  · refine .bind (.refl _) fun marker => .ite (.refl _) (.bind (.refl _) fun position => ?_)
    exact .andThen (hf position classId)

include hb

/-- So can an array. -/
theorem array_widened {room room' : Nat} (hroom : room ≤ room') (position classId : Nat) :
    Widened (array s room body position classId) (array s' room' body' position classId) := by
  refine .bind (.wire (typeRef_widened h hr hroom)) fun type => .bind (.refl _) fun _ => ?_
  exact .andThen (elements_widened hb)

omit hr in
/-- So can a collection. -/
theorem collection_widened (position : Nat) :
    Widened (collection s body position) (collection s' body' position) := by
  refine .bind (.refl _) fun tag => ?_
  cases CollectionKind.ofTag? tag with
  | none => exact .refl _
  | some kind =>
    cases kind with
    | list => exact .andThen (elements_widened hb)
    | set => exact .andThen (elements_widened hb)
    | sortedSet =>
      exact .bind (.wire (comparator_widened h)) fun order => .andThen (elements_widened hb)

omit hr in
/-- So can a map. -/
theorem map_widened (position : Nat) : Widened (map s body position) (map s' body' position) := by
  refine .bind (.refl _) fun tag => ?_
  cases MapKind.ofTag? tag with
  | none => exact .refl _
  | some kind =>
    cases kind with
    | plain => exact .andThen (entries_widened hb)
    | sorted =>
      exact .bind (.wire (comparator_widened h)) fun order => .andThen (entries_widened hb)

/-- So can an instance of a registered class: wider settings know the class by its number. -/
theorem registered_widened (position classId : Nat) :
    Widened (registered s body position classId) (registered s' body' position classId) := by
  refine .bind (.known (h.byClassId hr classId)) fun c => ?_
  cases c.shape with
  | object names => exact .andThen (.repeated (tagged_widened hb) names.length)
  | enum variants => exact .refl _

/-- So can contents of every class. -/
theorem contents_widened {room room' : Nat} (hroom : room ≤ room') (position classId : Nat) :
    Widened (contents s room body position classId) (contents s' room' body' position classId) := by
  unfold contents
  cases ScalarType.ofClassId? classId with
  | some t => exact .refl _
  | none =>
    refine .ite (array_widened h hr hb hroom position classId) ?_
    refine .ite (collection_widened h hb position) (.ite (map_widened h hb position) ?_)
    exact registered_widened h hr hb position classId

omit hb in
/-- A body is read alike wherever there is at least as much room. -/
theorem body_widened {room room' : Nat} (hroom : room ≤ room') (classId : Nat) :
    Widened (Decoder.body s room classId) (Decoder.body s' room' classId) := by
  induction room generalizing room' classId with
  | zero =>
    cases room' with
    | zero => exact bodyWith_widened h hr (fun _ _ => .throw _ _) classId
    | succ left' => exact bodyWith_widened h hr (fun _ _ => .throw _ _) classId
  | succ left ih =>
    obtain ⟨left', rfl, hleft⟩ := exists_room hroom
    exact bodyWith_widened h hr (contents_widened h hr (ih hleft) hleft) classId

omit hb

/-- A value that can be read still can. -/
theorem value_widened : Widened (value s) (value s') :=
  tagged_widened (body_widened h hr h.depth)

/-- So can the type of a parameter or result. -/
theorem typeSpec_widened (isPrimitive : Bool) :
    WidenedStep (typeSpec s isPrimitive) (typeSpec s' isPrimitive) :=
  .andThen (typeRef_widened h hr h.depth)

/-- So can parameters. -/
theorem params_widened (flags : List UInt8) (count position : Nat) :
    WidenedStep (params s flags count position) (params s' flags count position) := by
  induction count generalizing position with
  | zero => exact .refl _
  | succ count ih => exact .bind (typeSpec_widened h hr _) fun spec => .andThen (ih (position + 1))

/-- So can a signature. -/
theorem signature_widened : WidenedStep (signature s) (signature s') := by
  refine .bind (.refl _) fun count => .bind (.refl _) fun flags => .ite (.refl _) ?_
  exact .bind (typeSpec_widened h hr _) fun returns => .andThen (params_widened h hr flags count 1)

/-- So can a request. -/
theorem request_widened : Widened (request s) (request s') := by
  refine .bind (.refl _) fun _ => .bind (.refl _) fun id => .bind (.refl _) fun timestamp => ?_
  refine .bind (.refl _) fun service => .bind (.refl _) fun method => ?_
  refine .bind (.wire (signature_widened h hr)) fun sig => .bind (.refl _) fun count => ?_
  exact .andThen (.repeated (value_widened h hr) count)

/-- So can a response. -/
theorem response_widened : Widened (response s) (response s') := by
  refine .bind (.refl _) fun _ => .bind (.refl _) fun id => .bind (.refl _) fun timestamp => ?_
  refine .bind (.refl _) fun result => .bind (.refl _) fun message => ?_
  exact .andThen (value_widened h hr)

end Settings

/-- What is read of a whole input is read. -/
theorem run_widened {d d' : Decoder α} (hd : Widened d d') (bytes : List UInt8) :
    RemoteCall.Widened (run d bytes) (run d' bytes) := by
  intro a ha
  obtain ⟨st, hst, hrest⟩ := run_eq_ok ha
  have hst' : EStateM.run d' ⟨bytes, [], 0⟩ = .ok a st := hd _ _ _ hst
  rw [run, hst']
  dsimp only
  rw [hrest]
  rfl

end Decoder

/-- **Wider settings change no accepted message.** If one codec knows every class of another under
the same number and in the same shape, permits every comparator that the other permits and nests at
least as deep, then whatever the other reads it reads as the very same datum, instance by instance,
and whatever the other writes it writes in the same bytes. -/
theorem within_unchanged {s s' : CodecSettings} (hs' : s'.registry.Registered) (h : s.Within s') :
    (∀ bytes v, s.decodeValue bytes = .ok v → s'.decodeValue bytes = .ok v) ∧
    (∀ bytes r, s.decodeRequest bytes = .ok r → s'.decodeRequest bytes = .ok r) ∧
    (∀ bytes r, s.decodeResponse bytes = .ok r → s'.decodeResponse bytes = .ok r) ∧
    (∀ v bytes, s.encodeValue v = .ok bytes → s'.encodeValue v = .ok bytes) ∧
    (∀ r bytes, s.encodeRequest r = .ok bytes → s'.encodeRequest r = .ok bytes) ∧
    ∀ r bytes, s.encodeResponse r = .ok bytes → s'.encodeResponse r = .ok bytes := by
  have hr := hs'.regular
  refine ⟨?_, ?_, ?_, ?_, ?_, ?_⟩
  · exact fun bytes => Decoder.run_widened (Decoder.value_widened h hr) bytes
  · exact fun bytes => Decoder.run_widened (Decoder.request_widened h hr) bytes
  · exact fun bytes => Decoder.run_widened (Decoder.response_widened h hr) bytes
  · exact fun v => Encoder.run_widened (Encoder.value_widened h hr v h.depth)
  · exact fun r => Encoder.run_widened (Encoder.request_widened h hr r)
  · exact fun r => Encoder.run_widened (Encoder.response_widened h hr r)

namespace Upgrade

/-- A codec that knows one class. -/
def before : CodecSettings := ⟨⟨[⟨3, "Node", .object ["items"]⟩]⟩, .standard, 3⟩

/-- A codec that knows one more, trusts a custom comparator and nests deeper. -/
def after : CodecSettings :=
  ⟨⟨[⟨1, "Color", .enum ["red"]⟩, ⟨3, "Node", .object ["items"]⟩]⟩,
    { ComparatorPolicy.standard with trusted := ["byLength"] }, 64⟩

/-- An object with an empty list in it. -/
def node : Value := .object 1 "Node" [.collection 2 .list []]

/-- A list that holds one object twice. -/
def value : Value := .collection 0 .list [node, node]

/-- The list, the object behind its tag, and a reference to the object. -/
def bytes : List UInt8 := [23, 0, 1, 2, 68, 0, 23, 0, 1, 0, 2]

/-- The second codec has all that the first has. -/
theorem within : before.Within after where
  classes := by
    intro c hc
    rw [List.mem_singleton.mp hc]
    exact List.mem_cons_of_mem _ List.mem_cons_self
  comparators := by
    intro c hc
    cases c with
    | custom name => cases hc
    | _ => rfl
  depth := by decide

end Upgrade

/-- A list that shares an object, three levels deep, before and after an upgrade. -/
theorem within_unchanged_upgrade :
    Upgrade.after.registry.Registered ∧ Upgrade.before.Within Upgrade.after ∧
    Upgrade.before.decodeValue Upgrade.bytes = .ok Upgrade.value ∧
    Upgrade.after.decodeValue Upgrade.bytes = .ok Upgrade.value ∧
    Upgrade.before.encodeValue Upgrade.value = .ok Upgrade.bytes ∧
    Upgrade.after.encodeValue Upgrade.value = .ok Upgrade.bytes := by
  have hs' : Upgrade.after.registry.Registered :=
    ⟨[⟨3, "Node", .object ["items"]⟩, ⟨1, "Color", .enum ["red"]⟩], rfl⟩
  have hdecode : Upgrade.before.decodeValue Upgrade.bytes = .ok Upgrade.value := by
    decide +kernel
  have hencode : Upgrade.before.encodeValue Upgrade.value = .ok Upgrade.bytes := by
    decide +kernel
  obtain ⟨hvalue, -, -, hwritten, -, -⟩ := within_unchanged hs' Upgrade.within
  exact ⟨hs', Upgrade.within, hdecode, hvalue _ _ hdecode, hencode, hwritten _ _ hencode⟩

end RemoteCall
