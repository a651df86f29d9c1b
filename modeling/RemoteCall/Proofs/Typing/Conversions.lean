import Mathlib.Data.List.Forall2
import RemoteCall.Typing.Native

/-!
# Native data through values

Data of a native type becomes a value and comes back from it. The one place where this can lose
something is an option: what it holds is told as it is, and its absence as null, so an option around
a type that tells some data as null already would take that data for its absence. Where no option
stands around such a type, all data comes back, and only there.
-/

namespace RemoteCall.NativeType

/-- No data of the type is told as null. -/
def NeverNull (t : NativeType) : Prop := ∀ a : t.Data, t.toValue a ≠ .null

/-- Options stand only around types of which no data is told as null. -/
def TellsAbsence : NativeType → Prop
  | option t => t.NeverNull ∧ t.TellsAbsence
  | list t => t.TellsAbsence
  | _ => True

/-- Whether some data of the type is told as null. -/
def isNullable : NativeType → Bool
  | value | unit | option _ => true
  | _ => false

variable {t : NativeType}

/-! ## Null -/

/-- Data of a type that is never null is told as something else, whatever number a new list gets. -/
theorem number_ne_null (h : t.isNullable = false) (a : t.Data) (next : Nat) :
    (number t a next).1 ≠ .null := by
  cases t with
  | option | value | unit => cases h
  | _ => exact Value.noConfusion

/-- Some data is told as null if the type is one of those that have null. -/
theorem exists_toValue_eq_null (h : t.isNullable = true) : ∃ a : t.Data, t.toValue a = .null := by
  cases t with
  | option t => exact ⟨(none : Option t.Data), rfl⟩
  | value => exact ⟨Value.null, rfl⟩
  | unit => exact ⟨(), rfl⟩
  | _ => cases h

/-- Which types have data that is told as null can be read off the type. -/
theorem neverNull_iff : t.NeverNull ↔ t.isNullable = false := by
  constructor
  · refine fun h => Bool.eq_false_iff.mpr fun hnullable => ?_
    obtain ⟨a, ha⟩ := exists_toValue_eq_null hnullable
    exact h a ha
  · exact fun h a => number_ne_null h a _

instance (t : NativeType) : Decidable t.NeverNull := decidable_of_iff _ neverNull_iff.symm

instance decidableTellsAbsence : (t : NativeType) → Decidable t.TellsAbsence
  | option t =>
    have := decidableTellsAbsence t
    inferInstanceAs (Decidable (t.NeverNull ∧ t.TellsAbsence))
  | list t => decidableTellsAbsence t
  | bool | byte | short | int | long | float | double | char | string | uuid | date | time
  | dateTime | instant | duration | value | unit => .isTrue trivial

/-! ## Options -/

/-- A value other than null is data of an option if it is data of what stands in the option. -/
theorem ofValue_option {v : Value} (h : v ≠ .null) :
    (option t).ofValue v = some <$> t.ofValue v := by
  cases v with
  | null => exact absurd rfl h
  | _ => rfl

/-! ## Lists -/

/-- A list is read item by item, and fails to be read if one of them does. -/
theorem mapM_eq_ok_iff {f : α → Except CodecError β} {items : List α} {data : List β} :
    items.mapM f = .ok data ↔ List.Forall₂ (fun item a => f item = .ok a) items data := by
  induction items generalizing data with
  | nil =>
    rw [List.mapM_nil, List.forall₂_nil_left_iff]
    exact ⟨fun h => (Except.ok.inj h).symm, fun h => h ▸ rfl⟩
  | cons item rest ih =>
    rw [List.mapM_cons]
    constructor
    · intro h
      cases hitem : f item with
      | error e =>
        rw [hitem] at h
        cases h
      | ok a =>
        cases hrest : rest.mapM f with
        | error e =>
          rw [hitem, hrest] at h
          cases h
        | ok others =>
          rw [hitem, hrest] at h
          cases h
          exact .cons hitem (ih.mp hrest)
    · intro h
      cases h with
      | cons hitem hrest =>
        rw [hitem, ih.mpr hrest]
        rfl

/-- A list, set or array of any form is data of a list if its items are data of the items. -/
theorem ofValue_collection_eq_ok_iff {id : Nat} {form : CollectionForm} {items : List Value}
    {data : List t.Data} :
    (list t).ofValue (.collection id form items) = .ok data ↔
      List.Forall₂ (fun item a => t.ofValue item = .ok a) items data :=
  mapM_eq_ok_iff

/-- It is so exactly if each item can be read. -/
theorem exists_ofValue_collection_iff {id : Nat} {form : CollectionForm} {items : List Value} :
    (∃ data, (list t).ofValue (.collection id form items) = .ok data) ↔
      ∀ item ∈ items, ∃ a, t.ofValue item = .ok a := by
  refine (exists_congr fun data => ofValue_collection_eq_ok_iff).trans ?_
  induction items with
  | nil => exact ⟨fun _ => List.forall_mem_nil _, fun _ => ⟨[], .nil⟩⟩
  | cons item rest ih =>
    constructor
    · rintro ⟨_, h⟩
      cases h with
      | cons hitem hrest => exact List.forall_mem_cons.mpr ⟨⟨_, hitem⟩, ih.mp ⟨_, hrest⟩⟩
    · intro h
      obtain ⟨⟨a, hitem⟩, hrest⟩ := List.forall_mem_cons.mp h
      obtain ⟨others, hothers⟩ := ih.mpr hrest
      exact ⟨a :: others, .cons hitem hothers⟩

/-- The values of the items of a list, one after the other. -/
theorem mapM_number_cons (a : t.Data) (rest : List t.Data) (next : Nat) :
    ((a :: rest).mapM (number t) next).1 =
      (number t a next).1 :: (rest.mapM (number t) (number t a next).2).1 := by
  rw [List.mapM_cons]
  rfl

/-- A list is told as a list of what its items are told as. -/
theorem number_list (items : List t.Data) (next : Nat) :
    ∃ id, (number (list t) items next).1 =
      .collection id .list (items.mapM (number t) next).1 := ⟨_, rfl⟩

/-- If the data of items comes back whatever numbers new lists get, so does a list of them. -/
theorem forall₂_mapM_number {items : List t.Data}
    (h : ∀ a ∈ items, ∀ next, t.ofValue (number t a next).1 = .ok a) (next : Nat) :
    List.Forall₂ (fun item a => t.ofValue item = .ok a) (items.mapM (number t) next).1 items := by
  induction items generalizing next with
  | nil => exact .nil
  | cons a rest ih =>
    obtain ⟨ha, hrest⟩ := List.forall_mem_cons.mp h
    rw [mapM_number_cons]
    exact .cons (ha next) (ih hrest _)

/-! ## There and back -/

/-- Whatever numbers new lists get, data comes back where options tell absence. -/
theorem ofValue_number (h : t.TellsAbsence) (a : t.Data) (next : Nat) :
    t.ofValue (number t a next).1 = .ok a := by
  induction t generalizing next with
  | option t ih =>
    cases a with
    | none => rfl
    | some a =>
      have hnull : (number t a next).1 ≠ .null := number_ne_null (neverNull_iff.mp h.1) a next
      change (option t).ofValue (number t a next).1 = _
      rw [ofValue_option hnull, ih h.2]
      rfl
  | list t ih =>
    obtain ⟨id, hlist⟩ := number_list a next
    rw [hlist, ofValue_collection_eq_ok_iff]
    exact forall₂_mapM_number (fun b _ next => ih h b next) next
  | _ => rfl

/-- A list of one item is told as a list of what the item is told as. -/
theorem toValue_singleton (a : t.Data) :
    (list t).toValue [a] = .collection (number t a (t.nextInstance a)).2 .list [t.toValue a] := by
  have hnext : (list t).nextInstance [a] = t.nextInstance a := Nat.zero_max _
  rw [toValue, hnext]
  rfl

/-- An option around data that is told as null comes back as absent. -/
theorem ofValue_some_of_null {a : t.Data} (h : t.toValue a = .null) :
    (option t).ofValue ((option t).toValue (some a)) = .ok none := by
  change (option t).ofValue (t.toValue a) = _
  rw [h]
  rfl

/-- Where all data comes back, options tell absence. -/
theorem tellsAbsence_of_forall (h : ∀ a : t.Data, t.ofValue (t.toValue a) = .ok a) :
    t.TellsAbsence := by
  induction t with
  | option t ih =>
    have hnever : t.NeverNull := by
      intro a hnull
      have hback := (h (some a)).symm.trans (ofValue_some_of_null hnull)
      cases hback
    refine ⟨hnever, ih fun a => ?_⟩
    have hsome := h (some a)
    change (option t).ofValue (t.toValue a) = _ at hsome
    rw [ofValue_option (hnever a)] at hsome
    cases hback : t.ofValue (t.toValue a) with
    | error e =>
      rw [hback] at hsome
      cases hsome
    | ok b =>
      rw [hback] at hsome
      cases hsome
      rfl
  | list t ih =>
    refine ih fun a => ?_
    have hone := h [a]
    rw [toValue_singleton, ofValue_collection_eq_ok_iff] at hone
    cases hone with
    | cons ha _ => exact ha
  | _ => trivial

/-- **Native data comes back from its value.** Of every type built of scalars, values and no value
by any nesting of options and lists: all data of the type comes back from the value that it is told
as, exactly if each option in the type stands around a type of which no data is told as null.
Whatever form a collection has, and whoever built it, it is read as a list exactly if each of its
items is read as data of the items, and then gives this data in the order of the items. -/
theorem conversions_invert (t : NativeType) (id : Nat) (form : CollectionForm)
    (items : List Value) (data : List t.Data) :
    (t.TellsAbsence ↔ ∀ a : t.Data, t.ofValue (t.toValue a) = .ok a) ∧
    ((∃ found, (list t).ofValue (.collection id form items) = .ok found) ↔
      ∀ item ∈ items, ∃ a, t.ofValue item = .ok a) ∧
    ((list t).ofValue (.collection id form items) = .ok data ↔
      List.Forall₂ (fun item a => t.ofValue item = .ok a) items data) := by
  refine ⟨⟨fun h a => ofValue_number h a _, tellsAbsence_of_forall⟩, ?_, ?_⟩
  · exact exists_ofValue_collection_iff
  · exact ofValue_collection_eq_ok_iff

/-- A list of options of lists tells what is absent, an option of an option does not. -/
example : (list (option (list string))).TellsAbsence ∧ ¬ (option (option int)).TellsAbsence := by
  decide

end RemoteCall.NativeType
