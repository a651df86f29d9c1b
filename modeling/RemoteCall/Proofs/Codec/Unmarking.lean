import RemoteCall.Proofs.Codec.Marking

/-!
# Taking the marks off

The marked decoder reads what the decoder reads. Each of its steps is the step of the decoder once
the marks are taken off the result and off the instances read before, so the two accept the same
inputs, fail with the same errors, and give values that differ in nothing but the marks.
-/

namespace RemoteCall

/-- The state with the marks taken off all instances. -/
def DecodeState.unmarked (state : DecodeState) : DecodeState :=
  { state with slots := state.slots.map fun slot => ⟨slot.classId, slot.value.map Value.unmark⟩ }

namespace Value

/-- Taking off the marks keeps the name of the type. -/
theorem typeName_unmark (v : Value) : v.unmark.typeName = v.typeName := by
  cases v <;> rfl

/-- Taking off the marks keeps what an array accepts. -/
theorem ofArray_unmark {id : Nat} {element : TypeRef} (items : List Value)
    (hid : element.isScalar = true → id = 0) :
    ofArray (id / 2) element (items.map unmark) = (ofArray id element items).map unmark := by
  have hfind : (items.map unmark).find? (!element.accepts ·) =
      (items.find? (!element.accepts ·)).map unmark := by
    rw [List.find?_map]
    refine congrArg (fun p => (items.find? p).map unmark) (funext fun v => ?_)
    exact congrArg _ (v.accepts_renumber _ element)
  unfold ofArray
  rw [hfind]
  split
  · rfl
  · cases items.find? (!element.accepts ·) with
    | some bad =>
      change Except.error _ = Except.error _
      rw [typeName_unmark]
    | none =>
      change Except.ok _ = Except.ok _
      rw [unmark, renumber, renumberItems_eq_map, CollectionForm.isTracked]
      cases hscalar : element.isScalar with
      | false => rfl
      | true =>
        rw [hid hscalar]
        rfl

/-- Taking off the marks keeps how a sorted set is arranged. -/
theorem ofSortedSet_unmark (id : Nat) (c : Comparator) (items : List Value) :
    ofSortedSet (id / 2) c (items.map unmark) = (ofSortedSet id c items).unmark := by
  have harrange : arrange c (fun item => item) (items.map unmark) =
      (arrange c (fun item => item) items).map unmark :=
    arrange_map _ unmark (c.sortOrder_renumber _) (c.compare?_renumber _) items
  rw [ofSortedSet, ofSortedSet, unmark, renumber, renumberItems_eq_map, harrange]
  rfl

/-- Taking off the marks keeps how a sorted map is arranged. -/
theorem ofSortedEntries_unmark (id : Nat) (c : Comparator) (entries : List (Value × Value)) :
    ofSortedEntries (id / 2) c (entries.map fun e => (e.1.unmark, e.2.unmark)) =
      (ofSortedEntries id c entries).unmark := by
  rw [ofSortedEntries, ofSortedEntries, unmark, renumber, renumberEntries_eq_map,
    ← List.map_reverse, arrange_map _ _ (fun a b => c.sortOrder_renumber _ a.1 b.1)
      (fun a b => c.compare?_renumber _ a.1 b.1)]
  rfl

end Value

namespace Decoder

/-- The outcome of a marked step with the marks taken off. -/
def unmarkedOutcome (f : α → β) :
    EStateM.Result CodecError DecodeState α → EStateM.Result CodecError DecodeState β
  | .ok a state => .ok (f a) state.unmarked
  | .error e state => .error e state.unmarked

/-- A decoder does without marks what another does with them. -/
def Unmarks (f : α → β) (d' : Decoder α) (d : Decoder β) : Prop :=
  ∀ state : DecodeState, d state.unmarked = unmarkedOutcome f (d' state)

namespace Unmarks

variable {f : α → β} {g : γ → δ}

/-- Two steps unmark if each does. -/
theorem bind {d' : Decoder α} {d : Decoder β} {k' : α → Decoder γ} {k : β → Decoder δ}
    (hd : Unmarks f d' d) (hk : ∀ a, Unmarks g (k' a) (k (f a))) :
    Unmarks g (d' >>= k') (d >>= k) := by
  intro state
  change EStateM.bind d k state.unmarked = unmarkedOutcome g (EStateM.bind d' k' state)
  rw [EStateM.bind, EStateM.bind, hd state]
  cases d' state with
  | ok a state' => exact hk a state'
  | error e state' => rfl

/-- A known result unmarks. -/
theorem pure {a : α} {b : β} (h : b = f a) : Unmarks f (Pure.pure a) (Pure.pure b) := by
  intro state
  rw [h]
  rfl

/-- A failure unmarks. -/
theorem throw (e : CodecError) : Unmarks f (MonadExcept.throw e) (MonadExcept.throw e) :=
  fun _ => rfl

/-- A check unmarks. -/
theorem known {x' : Except CodecError α} {x : Except CodecError β} (h : x = x'.map f) :
    Unmarks f (Decoder.known x') (Decoder.known x) := by
  intro state
  rw [h]
  cases x' with
  | ok a => rfl
  | error e => rfl

/-- Reading the input looks at no mark. -/
theorem wire_bind {r : Reader ε} {k' : ε → Decoder γ} {k : ε → Decoder δ}
    (hk : ∀ a, Unmarks g (k' a) (k a)) :
    Unmarks g (Decoder.wire r >>= k') (Decoder.wire r >>= k) := by
  refine bind (f := fun a => a) ?_ hk
  intro state
  have hrest : state.unmarked.rest = state.rest := rfl
  unfold Decoder.wire
  rw [hrest]
  cases r state.rest with
  | ok out => rfl
  | error e => rfl

/-- A check of what has no marks unmarks. -/
theorem known_bind {x : Except CodecError ε} {k' : ε → Decoder γ} {k : ε → Decoder δ}
    (hk : ∀ a, x = .ok a → Unmarks g (k' a) (k a)) :
    Unmarks g (Decoder.known x >>= k') (Decoder.known x >>= k) := by
  cases x with
  | ok a => exact hk a rfl
  | error e => exact fun _ => rfl

/-- A choice unmarks if both branches do. -/
theorem ite {p : Prop} [Decidable p] {d' e' : Decoder α} {d e : Decoder β}
    (h : Unmarks f d' d) (h' : Unmarks f e' e) :
    Unmarks f (if p then d' else e') (if p then d else e) := by
  split
  · exact h
  · exact h'

/-- Repeated steps unmark if the step does. -/
theorem repeated {d' : Decoder α} {d : Decoder β} (h : Unmarks f d' d) (count : Nat) :
    Unmarks (List.map f) (repeated d' count) (repeated d count) := by
  induction count with
  | zero => exact pure rfl
  | succ count ih => exact bind h fun a => bind ih fun as => pure rfl

/-- Counting unmarks. -/
theorem counted {v' v : Value} (h : v = v'.unmark) :
    Unmarks Value.unmark (Decoder.counted v') (Decoder.counted v) := by
  intro state
  rw [h]
  rfl

/-- Opening a slot unmarks, and gives the same position. -/
theorem openSlot (classId : Nat) :
    Unmarks (fun n => n) (Decoder.openSlot classId) (Decoder.openSlot classId) := by
  intro state
  unfold Decoder.openSlot unmarkedOutcome DecodeState.unmarked
  simp only [List.length_map, List.map_append, List.map_cons, List.map_nil, Option.map_none]

/-- Filling a slot unmarks. -/
theorem fillSlot (classId position : Nat) (v : Value) :
    Unmarks (fun u => u) (Decoder.fillSlot classId position v)
      (Decoder.fillSlot classId position v.unmark) := by
  intro state
  unfold Decoder.fillSlot unmarkedOutcome DecodeState.unmarked
  simp only [List.map_set, Option.map_some]

/-- A reference unmarks. -/
theorem referenced (classId position : Nat) :
    Unmarks Value.unmark (Decoder.referenced classId position)
      (Decoder.referenced classId position) := by
  intro state
  have hslot : state.unmarked.slots[position]? = state.slots[position]?.map
      fun slot => ⟨slot.classId, slot.value.map Value.unmark⟩ := List.getElem?_map
  have hget (state : DecodeState) : (get : Decoder DecodeState) state = .ok state state := rfl
  unfold Decoder.referenced
  change EStateM.bind get _ state.unmarked = unmarkedOutcome _ (EStateM.bind get _ state)
  rw [EStateM.bind, EStateM.bind, hget, hget]
  dsimp only
  rw [hslot]
  cases state.slots[position]? with
  | none => rfl
  | some slot =>
    obtain ⟨slotClass, value⟩ := slot
    dsimp only [Option.map_some]
    by_cases hclass : slotClass = classId
    · rw [if_neg (not_not_intro hclass), if_neg (not_not_intro hclass)]
      cases value with
      | none => rfl
      | some v => rfl
    · rw [if_pos hclass, if_pos hclass]
      rfl

end Unmarks

section Values

variable {body' body : Nat → Decoder Value}
  (h : ∀ classId, Unmarks Value.unmark (body' classId) (body classId))

include h

/-- Tagged values unmark if bodies do. -/
theorem unmarks_tagged : Unmarks Value.unmark (tagged body') (tagged body) :=
  .wire_bind fun tag => .ite (.counted rfl) (h (tag - 1))

/-- Elements unmark if bodies do. -/
theorem unmarks_element (tag : Nat) : Unmarks Value.unmark (element body' tag) (element body tag) :=
  .ite (unmarks_tagged h) (h (tag - 1))

/-- The elements of a collection unmark if bodies do. -/
theorem unmarks_elements :
    Unmarks (List.map Value.unmark) (elements body') (elements body) := by
  refine .wire_bind fun count => .ite (.pure rfl) ?_
  exact .wire_bind fun tag => .repeated (unmarks_element h tag) count

/-- The entries of a map unmark if bodies do. -/
theorem unmarks_entries :
    Unmarks (List.map fun e => (e.1.unmark, e.2.unmark)) (entries body') (entries body) := by
  refine .wire_bind fun count => .ite (.pure rfl) ?_
  refine .wire_bind fun keyTag => .wire_bind fun valueTag => .repeated ?_ count
  refine .bind (unmarks_element h keyTag) fun k => ?_
  exact .bind (unmarks_element h valueTag) fun v => .pure rfl

/-- An array unmarks if bodies do; one of scalars has no number. -/
theorem unmarks_array (s : CodecSettings) (room : Nat) {id classId : Nat}
    (hid : classId = ClassId.scalarArray → id = 0) :
    Unmarks Value.unmark (array s room body' id classId) (array s room body (id / 2) classId) := by
  refine .wire_bind fun type => .known_bind fun _ hcheck => ?_
  refine .bind (unmarks_elements h) fun items => ?_
  refine .known (Value.ofArray_unmark items fun hscalar => hid ?_)
  unfold checkElementType at hcheck
  split at hcheck
  · cases hcheck
  · rename_i hne
    have hclass : ClassId.ofArray type = classId := not_not.mp fun hne' => hne (.inr hne')
    rw [← hclass, ClassId.ofArray, if_pos hscalar]

/-- A collection unmarks if bodies do. -/
theorem unmarks_collection (s : CodecSettings) (id : Nat) :
    Unmarks Value.unmark (collection s body' id) (collection s body (id / 2)) := by
  refine .wire_bind fun tag => ?_
  cases CollectionKind.ofTag? tag with
  | none => exact .throw _
  | some kind =>
    cases kind with
    | list =>
      refine .bind (unmarks_elements h) fun items => .pure ?_
      rw [Value.unmark, Value.renumber, Value.renumberItems_eq_map]
      rfl
    | set =>
      refine .bind (unmarks_elements h) fun items => .pure ?_
      rw [Value.unmark, Value.renumber, Value.renumberItems_eq_map]
      rfl
    | sortedSet =>
      refine .wire_bind fun order => .bind (unmarks_elements h) fun items => .pure ?_
      exact Value.ofSortedSet_unmark id order items

/-- A map unmarks if bodies do. -/
theorem unmarks_map (s : CodecSettings) (id : Nat) :
    Unmarks Value.unmark (map s body' id) (map s body (id / 2)) := by
  refine .wire_bind fun tag => ?_
  cases MapKind.ofTag? tag with
  | none => exact .throw _
  | some kind =>
    cases kind with
    | plain =>
      refine .bind (unmarks_entries h) fun entries => .pure ?_
      rw [Value.unmark, Value.renumber, Value.renumberEntries_eq_map]
      rfl
    | sorted =>
      refine .wire_bind fun order => .bind (unmarks_entries h) fun entries => .pure ?_
      exact Value.ofSortedEntries_unmark id order entries

/-- An object or variant unmarks if bodies do. -/
theorem unmarks_registered (s : CodecSettings) (id classId : Nat) :
    Unmarks Value.unmark (registered s body' id classId)
      (registered s body (id / 2) classId) := by
  refine .known_bind fun c _ => ?_
  cases c.shape with
  | object names =>
    refine .bind (.repeated (unmarks_tagged h) names.length) fun fields => .pure ?_
    rw [Value.unmark, Value.renumber, Value.renumberItems_eq_map]
    rfl
  | enum variants => exact .wire_bind fun ordinal => .ite (.pure rfl) (.throw _)

/-- Any contents unmark if bodies do; an array of scalars has no number. -/
theorem unmarks_contents (s : CodecSettings) (room : Nat) {id classId : Nat}
    (hid : classId = ClassId.scalarArray → id = 0) :
    Unmarks Value.unmark (contents s room body' id classId)
      (contents s room body (id / 2) classId) := by
  have harray := unmarks_array h s room hid
  have hcollection := unmarks_collection h s id
  have hmap := unmarks_map h s id
  have hregistered := unmarks_registered h s id classId
  unfold contents
  split
  · exact .wire_bind fun a => .pure rfl
  · exact .ite harray (.ite hcollection (.ite hmap hregistered))

end Values

/-- A body that marks is one that does not with the marks taken off. -/
theorem unmarks_bodyWith (s : CodecSettings) {fresh' fresh : Nat → Nat → Decoder Value}
    (h : ∀ {id classId : Nat}, (classId = ClassId.scalarArray → id = 0) →
      Unmarks Value.unmark (fresh' id classId) (fresh (id / 2) classId)) (classId : Nat) :
    Unmarks Value.unmark (bodyThrough s (2 * ·) Value.markRepeat fresh' classId)
      (bodyWith s fresh classId) := by
  rw [bodyWith_eq]
  refine .known_bind fun kind hkind => .ite (.throw _) ?_
  cases htracked : kind.isTracked with
  | false => exact .bind (h fun _ => rfl) fun v => .counted rfl
  | true =>
    have hclass : classId ≠ ClassId.scalarArray := by
      intro hclass
      subst hclass
      cases hkind
      cases htracked
    refine .wire_bind fun marker => .ite ?_ ?_
    · refine .bind (.referenced classId (marker - 1)) fun v => .counted ?_
      exact v.unmark_markRepeat.symm
    · refine .bind (.openSlot classId) fun position => ?_
      have hhalf : 2 * position / 2 = position := by omega
      have hfresh : Unmarks Value.unmark (fresh' (2 * position) classId)
          (fresh (2 * position / 2) classId) := h fun he => absurd he hclass
      rw [hhalf] at hfresh
      exact .bind hfresh fun v => .bind (.fillSlot classId position v) fun _ => .counted rfl

/-- The marked body is the body with the marks taken off. -/
theorem unmarks_body (s : CodecSettings) (room classId : Nat) :
    Unmarks Value.unmark (markedBody s room classId) (body s room classId) := by
  induction room generalizing classId with
  | zero => exact unmarks_bodyWith s (fun _ => .throw _) classId
  | succ room ih => exact unmarks_bodyWith s (unmarks_contents ih s room) classId

/-- The marked value is the value with the marks taken off. -/
theorem unmarks_value (s : CodecSettings) :
    Unmarks Value.unmark (markedValue s) (value s) :=
  unmarks_tagged (unmarks_body s s.maxDepth)

/-- A decoder without marks reads an input as the one with marks does. -/
theorem Unmarks.run {f : α → β} {d' : Decoder α} {d : Decoder β} (h : Unmarks f d' d)
    (bytes : List UInt8) : d.run bytes = (d'.run bytes).map f := by
  have hstart := h ⟨bytes, [], 0⟩
  change d ⟨bytes, [], 0⟩ = _ at hstart
  unfold Decoder.run EStateM.run
  rw [hstart]
  cases d' ⟨bytes, [], 0⟩ with
  | error e state => rfl
  | ok a state =>
    change (if state.rest.isEmpty then _ else _) =
      Except.map f (if state.rest.isEmpty then _ else _)
    split
    · rfl
    · rfl

end Decoder

end RemoteCall
