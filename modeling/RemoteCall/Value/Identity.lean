import RemoteCall.Value.Basic

/-!
# Identity of values

Two values are identical if they agree in everything: contents, instance numbers, and the bits of
floating-point numbers. Unlike equality of contents this is equality itself, so it is decidable.
-/

namespace RemoteCall

namespace Value

mutual

/-- Whether two values agree in everything. -/
def identical : Value → Value → Bool
  | null, null => true
  | scalar a, scalar b => a == b
  | variant c i, variant d j => c == d && i == j
  | collection m f xs, collection n g ys => m == n && f == g && identicalItems xs ys
  | map m f xs, map n g ys => m == n && f == g && identicalEntries xs ys
  | object m c xs, object n d ys => m == n && c == d && identicalItems xs ys
  | _, _ => false

/-- Whether values agree in everything, place by place. -/
def identicalItems : List Value → List Value → Bool
  | [], [] => true
  | x :: xs, y :: ys => x.identical y && identicalItems xs ys
  | _, _ => false

/-- Whether entries agree in everything, place by place. -/
def identicalEntries : List (Value × Value) → List (Value × Value) → Bool
  | [], [] => true
  | (k, v) :: xs, (l, w) :: ys => k.identical l && v.identical w && identicalEntries xs ys
  | _, _ => false

end

/-- What holds of a value whenever it holds of its parts holds of every value. -/
@[elab_as_elim]
theorem byParts {motive : Value → Prop} (null : motive .null) (scalar : ∀ s, motive (.scalar s))
    (variant : ∀ c i, motive (.variant c i))
    (collection : ∀ id form items, (∀ v ∈ items, motive v) → motive (.collection id form items))
    (map : ∀ id form entries, (∀ e ∈ entries, motive e.1 ∧ motive e.2) →
      motive (.map id form entries))
    (object : ∀ id c fields, (∀ v ∈ fields, motive v) → motive (.object id c fields))
    (v : Value) : motive v := by
  refine @Value.rec motive (fun vs => ∀ v ∈ vs, motive v)
    (fun es => ∀ e ∈ es, motive e.1 ∧ motive e.2) (fun e => motive e.1 ∧ motive e.2)
    null scalar variant collection map object ?_ ?_ ?_ ?_ ?_ v
  · intro v hv
    cases hv
  · intro v vs hv hvs w hw
    rcases List.mem_cons.mp hw with rfl | hw
    · exact hv
    · exact hvs w hw
  · intro e he
    cases he
  · intro e es he hes d hd
    rcases List.mem_cons.mp hd with rfl | hd
    · exact he
    · exact hes d hd
  · intro k v hk hv
    exact ⟨hk, hv⟩

/-- Values agree in everything, place by place, if they are the same values. -/
theorem identicalItems_iff {xs ys : List Value} (h : ∀ x ∈ xs, ∀ y, x.identical y = true ↔ x = y) :
    identicalItems xs ys = true ↔ xs = ys := by
  induction xs generalizing ys with
  | nil => cases ys <;> simp [identicalItems]
  | cons x xs ih =>
    cases ys with
    | nil => simp [identicalItems]
    | cons y ys =>
      rw [identicalItems, Bool.and_eq_true, h x List.mem_cons_self,
        ih fun w hw => h w (List.mem_cons_of_mem x hw), List.cons.injEq]

/-- Entries agree in everything, place by place, if they are the same entries. -/
theorem identicalEntries_iff {xs ys : List (Value × Value)}
    (h : ∀ e ∈ xs, (∀ y, e.1.identical y = true ↔ e.1 = y) ∧
      ∀ y, e.2.identical y = true ↔ e.2 = y) :
    identicalEntries xs ys = true ↔ xs = ys := by
  induction xs generalizing ys with
  | nil => cases ys <;> simp [identicalEntries]
  | cons x xs ih =>
    obtain ⟨k, v⟩ := x
    cases ys with
    | nil => simp [identicalEntries]
    | cons y ys =>
      obtain ⟨l, w⟩ := y
      obtain ⟨hk, hv⟩ := h (k, v) List.mem_cons_self
      rw [identicalEntries, Bool.and_eq_true, Bool.and_eq_true, hk, hv,
        ih fun e he => h e (List.mem_cons_of_mem _ he), List.cons.injEq, Prod.mk.injEq]

/-- Values that agree in everything are one value. -/
theorem identical_iff (v w : Value) : v.identical w = true ↔ v = w := by
  induction v using byParts generalizing w with
  | null => cases w <;> simp [identical]
  | scalar s => cases w <;> simp [identical]
  | variant c i => cases w <;> simp [identical]
  | collection id form items ih => cases w <;> simp [identical, identicalItems_iff ih, and_assoc]
  | map id form entries ih => cases w <;> simp [identical, identicalEntries_iff ih, and_assoc]
  | object id c fields ih => cases w <;> simp [identical, identicalItems_iff ih, and_assoc]

instance : DecidableEq Value := fun v w => decidable_of_iff _ (identical_iff v w)

end Value

end RemoteCall
