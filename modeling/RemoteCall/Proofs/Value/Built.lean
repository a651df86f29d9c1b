import RemoteCall.Proofs.Value.Arrange
import RemoteCall.Proofs.Value.Graph

/-!
# Containers as their constructors leave them

A value is built when each container in it was made by the constructor of its form from values that
are built. What a constructor establishes, that the items of an array fit its element type and that
a sorted container is arranged, can be read off the container, whatever it was made from. Neither
types nor comparisons look at instance numbers, so renumbering changes none of them.
-/

namespace RemoteCall

namespace Value

/-- Made by the constructors alone. -/
inductive Built : Value → Prop
  | null : Built .null
  | scalar (s : Scalar) : Built (.scalar s)
  | variant (c : String) (i : UInt32) : Built (.variant c i)
  | array {id : Nat} {element : TypeRef} {items : List Value} {v : Value}
      (parts : ∀ item ∈ items, Built item) (made : ofArray id element items = .ok v) : Built v
  | list (id : Nat) {items : List Value} (parts : ∀ item ∈ items, Built item) :
      Built (ofList id items)
  | set (id : Nat) {items : List Value} (parts : ∀ item ∈ items, Built item) :
      Built (ofSet id items)
  | sortedSet (id : Nat) (c : Comparator) {items : List Value}
      (parts : ∀ item ∈ items, Built item) : Built (ofSortedSet id c items)
  | map (id : Nat) {entries : List (Value × Value)} (keys : ∀ e ∈ entries, Built e.1)
      (values : ∀ e ∈ entries, Built e.2) : Built (ofEntries id entries)
  | sortedMap (id : Nat) (c : Comparator) {entries : List (Value × Value)}
      (keys : ∀ e ∈ entries, Built e.1) (values : ∀ e ∈ entries, Built e.2) :
      Built (ofSortedEntries id c entries)
  | object (id : Nat) (c : String) {fields : List Value} (parts : ∀ v ∈ fields, Built v) :
      Built (.object id c fields)

end Value

/-- What the constructor of a collection establishes about the items. -/
def CollectionForm.Keeps : CollectionForm → List Value → Prop
  | array element, items => element ≠ .void ∧ ∀ v ∈ items, element.accepts v = true
  | list, _ => True
  | set, _ => True
  | sortedSet order, items => Arranged order (fun item => item) items

/-- What the constructor of a map establishes about the entries. -/
def MapForm.Keeps : MapForm → List (Value × Value) → Prop
  | plain, _ => True
  | sorted order, entries => Arranged order (·.1) entries

/-- What folding a step over a list gathers was there before or comes from the list, if each step
adds nothing but its element. -/
theorem mem_foldl {α β : Type} (view : α → β) {step : List α → α → List α}
    (hstep : ∀ kept a, ∀ b ∈ step kept a, view b = view a ∨ ∃ d ∈ kept, view d = view b)
    {xs kept : List α} {b : α} (h : b ∈ xs.foldl step kept) :
    (∃ d ∈ kept, view d = view b) ∨ ∃ d ∈ xs, view d = view b := by
  induction xs generalizing kept with
  | nil => exact .inl ⟨b, h, rfl⟩
  | cons x xs ih =>
    rcases ih h with ⟨d, hd, hdb⟩ | ⟨d, hd, hdb⟩
    · rcases hstep kept x d hd with hx | ⟨d', hd', he⟩
      · exact .inr ⟨x, List.mem_cons_self, hx.symm.trans hdb⟩
      · exact .inl ⟨d', hd', he.trans hdb⟩
    · exact .inr ⟨d, List.mem_cons_of_mem x hd, hdb⟩

/-- A set holds no other items than it was made from. -/
theorem mem_of_mem_distinct {items : List Value} {v : Value} (h : v ∈ distinct items) :
    v ∈ items := by
  have hstep (kept : List Value) (item b : Value)
      (hb : b ∈ if kept.any (·.same item) then kept else kept ++ [item]) :
      b = item ∨ ∃ d ∈ kept, d = b := by
    split at hb
    · exact .inr ⟨b, hb, rfl⟩
    · rcases List.mem_append.mp hb with hb | hb
      · exact .inr ⟨b, hb, rfl⟩
      · exact .inl (List.mem_singleton.mp hb)
  rcases mem_foldl (fun v => v) hstep h with ⟨d, hd, _⟩ | ⟨d, hd, rfl⟩
  · cases hd
  · exact hd

/-- Putting an entry brings in no other key and no other value. -/
theorem mem_putEntry {key value : Value} {entries : List (Value × Value)} {e : Value × Value}
    (h : e ∈ putEntry key value entries) :
    (e.1 = key ∨ ∃ d ∈ entries, d.1 = e.1) ∧ (e.2 = value ∨ ∃ d ∈ entries, d.2 = e.2) := by
  induction entries with
  | nil =>
    rw [putEntry, List.mem_singleton] at h
    subst h
    exact ⟨.inl rfl, .inl rfl⟩
  | cons d entries ih =>
    obtain ⟨k, v⟩ := d
    rw [putEntry] at h
    split at h
    · rcases List.mem_cons.mp h with rfl | h
      · exact ⟨.inr ⟨(k, v), List.mem_cons_self, rfl⟩, .inl rfl⟩
      · have hmem := List.mem_cons_of_mem (k, v) h
        exact ⟨.inr ⟨e, hmem, rfl⟩, .inr ⟨e, hmem, rfl⟩⟩
    · rcases List.mem_cons.mp h with rfl | h
      · exact ⟨.inr ⟨(k, v), List.mem_cons_self, rfl⟩, .inr ⟨(k, v), List.mem_cons_self, rfl⟩⟩
      · obtain ⟨hk, hv⟩ := ih h
        constructor
        · exact hk.imp_right fun ⟨d, hd, he⟩ => ⟨d, List.mem_cons_of_mem _ hd, he⟩
        · exact hv.imp_right fun ⟨d, hd, he⟩ => ⟨d, List.mem_cons_of_mem _ hd, he⟩

/-- A map holds no other keys and no other values than it was made from. -/
theorem mem_distinctEntries {entries : List (Value × Value)} {e : Value × Value}
    (h : e ∈ distinctEntries entries) :
    (∃ d ∈ entries, d.1 = e.1) ∧ ∃ d ∈ entries, d.2 = e.2 := by
  constructor
  · rcases mem_foldl (·.1) (fun kept a b hb => (mem_putEntry hb).1) h with ⟨d, hd, _⟩ | hd
    · cases hd
    · exact hd
  · rcases mem_foldl (·.2) (fun kept a b hb => (mem_putEntry hb).2) h with ⟨d, hd, _⟩ | hd
    · cases hd
    · exact hd

namespace Value

/-- What the outermost constructor establishes, and that the parts are built. -/
def Made : Value → Prop
  | collection _ form items => form.Keeps items ∧ ∀ v ∈ items, Built v
  | map _ form entries => form.Keeps entries ∧ ∀ e ∈ entries, Built e.1 ∧ Built e.2
  | object _ _ fields => ∀ v ∈ fields, Built v
  | _ => True

/-- An array that could be made. -/
theorem ofArray_eq_ok_iff {id : Nat} {element : TypeRef} {items : List Value} {v : Value} :
    ofArray id element items = .ok v ↔
      v = .collection id (.array element) items ∧ (CollectionForm.array element).Keeps items := by
  have hfind : items.find? (!element.accepts ·) = none ↔ ∀ v ∈ items, element.accepts v = true := by
    simp only [List.find?_eq_none, Bool.not_eq_true', Bool.not_eq_false]
  change _ ↔ _ ∧ element ≠ .void ∧ ∀ v ∈ items, element.accepts v = true
  rw [ofArray, ← hfind]
  split
  · rename_i hv
    exact ⟨fun h => (nomatch h), fun h => absurd hv h.2.1⟩
  · rename_i hv
    cases items.find? (!element.accepts ·) with
    | none => exact ⟨fun h => ⟨(Except.ok.inj h).symm, hv, rfl⟩, fun h => h.1 ▸ rfl⟩
    | some bad => exact ⟨fun h => (nomatch h), fun h => (nomatch h.2.2)⟩

/-- What is built is made of what is built. -/
theorem Built.made {v : Value} (h : Built v) : Made v := by
  cases h with
  | null => trivial
  | scalar s => trivial
  | variant c i => trivial
  | array parts made =>
    obtain ⟨rfl, hk⟩ := ofArray_eq_ok_iff.mp made
    exact ⟨hk, parts⟩
  | list id parts => exact ⟨trivial, parts⟩
  | set id parts => exact ⟨trivial, fun v hv => parts v (mem_of_mem_distinct hv)⟩
  | sortedSet id c parts =>
    exact ⟨arrange_arranged c _ _, fun v hv => parts v (mem_of_mem_arrange hv)⟩
  | map id keys values =>
    refine ⟨trivial, fun e he => ?_⟩
    obtain ⟨⟨d, hd, hk⟩, b, hb, hv⟩ := mem_distinctEntries he
    exact ⟨hk ▸ keys d hd, hv ▸ values b hb⟩
  | sortedMap id c keys values =>
    refine ⟨arrange_arranged c _ _, fun e he => ?_⟩
    have hmem := List.mem_reverse.mp (mem_of_mem_arrange he)
    exact ⟨keys e hmem, values e hmem⟩
  | object id c parts => exact parts

/-- The parts of what is built are built. -/
theorem Built.child {v w : Value} (h : Built v) (hw : w ∈ v.children) : Built w := by
  have hm := h.made
  cases v with
  | null => cases hw
  | scalar s => cases hw
  | variant c i => cases hw
  | collection id form items => exact hm.2 w hw
  | map id form entries =>
    obtain ⟨e, he, hw⟩ := List.mem_flatMap.mp hw
    obtain ⟨hk, hv⟩ := hm.2 e he
    rcases List.mem_cons.mp hw with rfl | hw
    · exact hk
    · rwa [List.mem_singleton.mp hw]
  | object id c fields => exact hm w hw

section Renumber

variable (f : Nat → Nat)

/-- Renumbering keeps the kind. -/
theorem rank_renumber (v : Value) : (v.renumber f).rank = v.rank := by
  cases v with
  | collection id form items =>
    cases form <;> rfl
  | map id form entries =>
    cases form <;> rfl
  | _ => rfl

/-- Renumbering keeps the place in the order of values. -/
theorem sortKey_renumber (v : Value) : (v.renumber f).sortKey = v.sortKey := by
  have hinner : (v.renumber f).innerKey = v.innerKey := by
    cases v <;> rfl
  rw [sortKey, sortKey, rank_renumber, hinner]

/-- Renumbering keeps natural comparisons. -/
theorem compare?_renumber (a b : Value) :
    (a.renumber f).compare? (b.renumber f) = a.compare? b := by
  cases a <;> cases b <;> rfl

/-- Renumbering keeps texts. -/
theorem texts_renumberItems {vs : List Value} (h : ∀ v ∈ vs, (v.renumber f).text = v.text) :
    texts (renumberItems f vs) = texts vs := by
  induction vs with
  | nil => rfl
  | cons v vs ih =>
    rw [renumberItems, texts, texts, h v List.mem_cons_self,
      ih fun w hw => h w (List.mem_cons_of_mem v hw)]

/-- Renumbering keeps the text. -/
theorem text_renumber (v : Value) : (v.renumber f).text = v.text := by
  induction v using byParts with
  | null => rfl
  | scalar s => rfl
  | variant c i => rfl
  | collection id form items ih =>
    cases form <;> simp only [renumber, text, texts_renumberItems f ih]
  | object id c fields ih => rw [renumber, text, text, texts_renumberItems f ih]
  | map id form entries ih =>
    have h : entryTexts (renumberEntries f entries) = entryTexts entries := by
      induction entries with
      | nil => rfl
      | cons e entries ihe =>
        obtain ⟨k, v⟩ := e
        obtain ⟨hk, hv⟩ := ih (k, v) List.mem_cons_self
        rw [renumberEntries, entryTexts, entryTexts, hk, hv,
          ihe fun d hd => ih d (List.mem_cons_of_mem _ hd)]
    rw [renumber, text, text, h]

/-- Renumbering keeps the type. -/
theorem accepts_renumber (t : TypeRef) (v : Value) : t.accepts (v.renumber f) = t.accepts v := by
  cases v with
  | collection id form items =>
    cases t with
    | collection kind => cases kind <;> cases form <;> rfl
    | _ => cases form <;> rfl
  | map id form entries =>
    cases t with
    | map kind => cases kind <;> cases form <;> rfl
    | _ => cases form <;> rfl
  | object id c fields => cases t <;> rfl
  | null => rfl
  | scalar s => rfl
  | variant c i => rfl

end Renumber

end Value

namespace Comparator

variable (f : Nat → Nat) (c : Comparator) (a b : Value)

/-- Renumbering keeps comparisons. -/
theorem compare?_renumber : c.compare? (a.renumber f) (b.renumber f) = c.compare? a b := by
  cases c with
  | natural => exact a.compare?_renumber f b
  | reverse => rw [compare?, compare?, Value.compare?_renumber]
  | allEqual => rfl
  | usingToString => rw [compare?, compare?, Value.text_renumber, Value.text_renumber]
  | custom name => rfl

/-- Renumbering keeps the sorting order. -/
theorem sortOrder_renumber : c.sortOrder (a.renumber f) (b.renumber f) = c.sortOrder a b := by
  cases c with
  | natural =>
    rw [sortOrder, sortOrder, Value.totalCompare_eq, Value.totalCompare_eq,
      Value.sortKey_renumber, Value.sortKey_renumber]
  | reverse =>
    rw [sortOrder, sortOrder, Value.totalCompare_eq, Value.totalCompare_eq,
      Value.sortKey_renumber, Value.sortKey_renumber]
  | allEqual => rfl
  | usingToString => rw [sortOrder, sortOrder, Value.text_renumber, Value.text_renumber]
  | custom name => rfl

end Comparator

end RemoteCall
