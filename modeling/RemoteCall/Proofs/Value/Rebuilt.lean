import RemoteCall.Proofs.Value.Built
import RemoteCall.Proofs.Value.Turning

/-!
# Values with their sorted containers built anew

Who receives a sorted container builds it anew from its parts, which have been built anew before.
For a sorted set that changes nothing unless its items have changed. A sorted map has the ties among
its keys turned round each time, so a value with such ties is only the same again after every second
time, and a sorted map of a custom comparator, to which all keys tie, is turned round as a whole.
-/

namespace RemoteCall

/-- The items as the constructor of their form leaves them, if that arranges them. -/
def CollectionForm.rebuild : CollectionForm → List Value → List Value
  | sortedSet order, items => arrange order (fun item => item) items
  | _, items => items

/-- The entries as the constructor of their form leaves them, if that arranges them. -/
def MapForm.rebuild : MapForm → List (Value × Value) → List (Value × Value)
  | sorted order, entries => arrange order (·.1) entries.reverse
  | plain, entries => entries

namespace Value

mutual

/-- The value with every sorted container in it built anew, from the inside out. -/
def rebuilt : Value → Value
  | null => null
  | scalar s => scalar s
  | variant c i => variant c i
  | collection id form items => collection id form (form.rebuild (rebuiltItems items))
  | map id form entries => map id form (form.rebuild (rebuiltEntries entries))
  | object id c fields => object id c (rebuiltItems fields)

/-- Values with their sorted containers built anew. -/
def rebuiltItems : List Value → List Value
  | [] => []
  | v :: vs => v.rebuilt :: rebuiltItems vs

/-- Entries with their sorted containers built anew. -/
def rebuiltEntries : List (Value × Value) → List (Value × Value)
  | [] => []
  | (k, v) :: rest => (k.rebuilt, v.rebuilt) :: rebuiltEntries rest

end

/-- Values are rebuilt one by one. -/
theorem rebuiltItems_eq_map (vs : List Value) : rebuiltItems vs = vs.map rebuilt := by
  induction vs with
  | nil => rfl
  | cons v vs ih => rw [rebuiltItems, ih, List.map_cons]

/-- Entries are rebuilt key by key and value by value. -/
theorem rebuiltEntries_eq_map (entries : List (Value × Value)) :
    rebuiltEntries entries = entries.map fun e => (e.1.rebuilt, e.2.rebuilt) := by
  induction entries with
  | nil => rfl
  | cons e entries ih =>
    obtain ⟨k, v⟩ := e
    rw [rebuiltEntries, ih, List.map_cons]

/-- Values that are the same when built anew are so side by side. -/
theorem rebuiltItems_eq_self {vs : List Value} (h : ∀ v ∈ vs, v.rebuilt = v) :
    rebuiltItems vs = vs := by
  rw [rebuiltItems_eq_map]
  exact (List.map_congr_left h).trans (List.map_id vs)

/-- Keys and values that are the same when built anew are so in their entries. -/
theorem rebuiltEntries_eq_self {entries : List (Value × Value)}
    (h : ∀ e ∈ entries, e.1.rebuilt = e.1 ∧ e.2.rebuilt = e.2) :
    rebuiltEntries entries = entries := by
  rw [rebuiltEntries_eq_map]
  exact (List.map_congr_left fun e he => Prod.ext (h e he).1 (h e he).2).trans (List.map_id entries)

/-- Building anew keeps the type. -/
theorem accepts_rebuilt (t : TypeRef) (v : Value) : t.accepts v.rebuilt = t.accepts v := by
  cases v with
  | collection id form items =>
    cases t with
    | collection kind => cases kind <;> cases form <;> rfl
    | _ => cases form <;> rfl
  | map id form entries =>
    cases t with
    | map kind => cases kind <;> cases form <;> rfl
    | _ => cases form <;> rfl
  | object id c fields => cases t <;> rfl
  | null => rfl
  | scalar s => rfl
  | variant c i => rfl

end Value

/-- Items that are renumbered are arranged alike. -/
theorem CollectionForm.rebuild_renumber (form : CollectionForm) (f : Nat → Nat)
    (items : List Value) :
    (form.rebuild items).map (Value.renumber f) = form.rebuild (items.map (Value.renumber f)) := by
  cases form with
  | sortedSet order =>
    exact Eq.symm (arrange_map (fun item => item) (Value.renumber f) (order.sortOrder_renumber f)
      (order.compare?_renumber f) items)
  | _ => rfl

/-- Entries that are renumbered are arranged alike. -/
theorem MapForm.rebuild_renumber (form : MapForm) (f : Nat → Nat)
    (entries : List (Value × Value)) :
    (form.rebuild entries).map (fun e => (e.1.renumber f, e.2.renumber f)) =
      form.rebuild (entries.map fun e => (e.1.renumber f, e.2.renumber f)) := by
  cases form with
  | plain => rfl
  | sorted order =>
    rw [rebuild, rebuild, ← List.map_reverse]
    exact Eq.symm (arrange_map (·.1) (fun e => (e.1.renumber f, e.2.renumber f))
      (fun a b => order.sortOrder_renumber f a.1 b.1)
      (fun a b => order.compare?_renumber f a.1 b.1) entries.reverse)

namespace Value

/-- A collection that is built anew and renumbered. -/
theorem renumber_rebuilt_collection (f : Nat → Nat) (id : Nat) (form : CollectionForm)
    (items : List Value) : (collection id form items).rebuilt.renumber f =
      collection (if form.isTracked then f id else 0) form
        (form.rebuild (items.map fun v => v.rebuilt.renumber f)) := by
  rw [rebuilt, renumber, renumberItems_eq_map, form.rebuild_renumber, rebuiltItems_eq_map,
    List.map_map]
  rfl

/-- A map that is built anew and renumbered. -/
theorem renumber_rebuilt_map (f : Nat → Nat) (id : Nat) (form : MapForm)
    (entries : List (Value × Value)) : (map id form entries).rebuilt.renumber f =
      map (f id) form
        (form.rebuild (entries.map fun e => (e.1.rebuilt.renumber f, e.2.rebuilt.renumber f))) := by
  rw [rebuilt, renumber, renumberEntries_eq_map, form.rebuild_renumber, rebuiltEntries_eq_map,
    List.map_map]
  rfl

/-- An object that is built anew and renumbered. -/
theorem renumber_rebuilt_object (f : Nat → Nat) (id : Nat) (c : String) (fields : List Value) :
    (object id c fields).rebuilt.renumber f =
      object (f id) c (fields.map fun v => v.rebuilt.renumber f) := by
  rw [rebuilt, renumber, renumberItems_eq_map, rebuiltItems_eq_map, List.map_map]
  rfl

end Value

end RemoteCall
