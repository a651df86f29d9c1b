import RemoteCall.Proofs.Value.Graph

/-!
# Equality of contents

Two values are the same if they are of one kind and their parts are the same, part by part. The
relation is symmetric and transitive and does not look at the numbers of instances; what is not a
number is not the same as itself, so it is not reflexive.
-/

namespace RemoteCall

namespace Ieee

variable {f : Ieee} {a b c : Nat}

/-- Equal numbers are numbers with one key. -/
theorem equal_iff : f.equal a b = true ↔
    f.isNaN a = false ∧ f.isNaN b = false ∧ f.key a = f.key b := by
  simp only [equal, Bool.and_eq_true, Bool.not_eq_true', beq_iff_eq, and_assoc]

/-- Equality of numbers is symmetric. -/
theorem equal_symm (h : f.equal a b = true) : f.equal b a = true := by
  obtain ⟨ha, hb, he⟩ := equal_iff.mp h
  exact equal_iff.mpr ⟨hb, ha, he.symm⟩

/-- Equality of numbers is transitive. -/
theorem equal_trans (h : f.equal a b = true) (h' : f.equal b c = true) : f.equal a c = true := by
  obtain ⟨ha, _, he⟩ := equal_iff.mp h
  obtain ⟨_, hc, he'⟩ := equal_iff.mp h'
  exact equal_iff.mpr ⟨ha, hc, he.trans he'⟩

end Ieee

namespace Scalar

/-- Scalars that are the same are equal numbers of one format, or one scalar of another type. -/
theorem same_cases {a b : Scalar} (h : a.same b = true) :
    (∃ x y, a = .float x ∧ b = .float y ∧ Ieee.single.equal x.toNat y.toNat = true) ∨
    (∃ x y, a = .double x ∧ b = .double y ∧ Ieee.double.equal x.toNat y.toNat = true) ∨
    a = b := by
  unfold same at h
  split at h
  · exact .inl ⟨_, _, rfl, rfl, h⟩
  · exact .inr (.inl ⟨_, _, rfl, rfl, h⟩)
  · exact .inr (.inr (eq_of_beq h))

/-- Being the same scalar is symmetric. -/
theorem same_symm {a b : Scalar} (h : a.same b = true) : b.same a = true := by
  rcases same_cases h with ⟨x, y, rfl, rfl, he⟩ | ⟨x, y, rfl, rfl, he⟩ | rfl
  · exact Ieee.equal_symm he
  · exact Ieee.equal_symm he
  · exact h

/-- Being the same scalar is transitive. -/
theorem same_trans {a b c : Scalar} (h : a.same b = true) (h' : b.same c = true) :
    a.same c = true := by
  rcases same_cases h with ⟨x, y, rfl, rfl, he⟩ | ⟨x, y, rfl, rfl, he⟩ | rfl
  · rcases same_cases h' with ⟨y', z, hy, rfl, he'⟩ | ⟨y', z, hy, -, -⟩ | rfl
    · cases hy
      exact Ieee.equal_trans he he'
    · cases hy
    · exact h
  · rcases same_cases h' with ⟨y', z, hy, -, -⟩ | ⟨y', z, hy, rfl, he'⟩ | rfl
    · cases hy
    · cases hy
      exact Ieee.equal_trans he he'
    · exact h
  · exact h'

end Scalar

namespace Value

/-- Whether two values are the same but for their parts. -/
def sameHead : Value → Value → Bool
  | null, null => true
  | scalar a, scalar b => a.same b
  | variant c i, variant d j => c == d && i == j
  | collection _ f _, collection _ g _ => f == g
  | map _ f _, map _ g _ => f == g
  | object _ c _, object _ d _ => c == d
  | _, _ => false

/-- Being the same but for the parts is symmetric. -/
theorem sameHead_symm {a b : Value} (h : a.sameHead b = true) : b.sameHead a = true := by
  unfold sameHead at h
  split at h
  · rfl
  · exact Scalar.same_symm h
  · simp only [Bool.and_eq_true, beq_iff_eq] at h
    simp only [sameHead, h.1, h.2, BEq.rfl, Bool.and_self]
  · simp only [sameHead, eq_of_beq h, BEq.rfl]
  · simp only [sameHead, eq_of_beq h, BEq.rfl]
  · simp only [sameHead, eq_of_beq h, BEq.rfl]
  · cases h

/-- Being the same but for the parts is transitive. -/
theorem sameHead_trans {a b c : Value} (h : a.sameHead b = true) (h' : b.sameHead c = true) :
    a.sameHead c = true := by
  unfold sameHead at h
  split at h
  · exact h'
  · cases c with
    | scalar t => exact Scalar.same_trans h h'
    | _ => cases h'
  · simp only [Bool.and_eq_true, beq_iff_eq] at h
    rwa [h.1, h.2]
  · cases c with
    | collection => rwa [eq_of_beq h]
    | _ => cases h'
  · cases c with
    | map => rwa [eq_of_beq h]
    | _ => cases h'
  · cases c with
    | object => rwa [eq_of_beq h]
    | _ => cases h'
  · cases h

/-- Entries are the same place by place exactly if their keys and values in a row are. -/
theorem sameEntries_eq (xs ys : List (Value × Value)) : sameEntries xs ys =
    sameItems (xs.flatMap fun e => [e.1, e.2]) (ys.flatMap fun e => [e.1, e.2]) := by
  induction xs generalizing ys with
  | nil =>
    cases ys with
    | nil => rfl
    | cons e ys => rfl
  | cons d xs ih =>
    cases ys with
    | nil => rfl
    | cons e ys =>
      change (d.1.same e.1 && d.2.same e.2 && sameEntries xs ys) =
        (d.1.same e.1 && (d.2.same e.2 && sameItems _ _))
      rw [ih, Bool.and_assoc]
      rfl

/-- Values are the same if they are so but for their parts and their parts are. -/
theorem same_eq (a b : Value) :
    a.same b = (a.sameHead b && sameItems a.children b.children) := by
  cases a <;> cases b <;> first | rfl | simp only [same, sameHead, children, sameEntries_eq,
    sameItems, Bool.and_true]

/-- Two values are the same if they are so but for their parts and their parts are. -/
theorem same_iff {a b : Value} : a.same b = true ↔
    a.sameHead b = true ∧ sameItems a.children b.children = true := by
  rw [same_eq, Bool.and_eq_true]

/-- Values are the same place by place if the first ones are and the others are. -/
theorem sameItems_cons {x y : Value} {xs ys : List Value} :
    sameItems (x :: xs) (y :: ys) = true ↔ x.same y = true ∧ sameItems xs ys = true := by
  rw [sameItems, Bool.and_eq_true]

/-- Being the same place by place is symmetric if it is so for each item. -/
theorem sameItems_symm {xs ys : List Value}
    (h : ∀ x ∈ xs, ∀ y, x.same y = true → y.same x = true) (hs : sameItems xs ys = true) :
    sameItems ys xs = true := by
  induction xs generalizing ys with
  | nil =>
    cases ys with
    | nil => rfl
    | cons y ys => cases hs
  | cons x xs ih =>
    cases ys with
    | nil => cases hs
    | cons y ys =>
      obtain ⟨hx, hxs⟩ := sameItems_cons.mp hs
      refine sameItems_cons.mpr ⟨h x List.mem_cons_self y hx, ih ?_ hxs⟩
      exact fun w hw => h w (List.mem_cons_of_mem x hw)

/-- Being the same place by place is transitive if it is so for each item. -/
theorem sameItems_trans {xs ys zs : List Value}
    (h : ∀ x ∈ xs, ∀ y z, x.same y = true → y.same z = true → x.same z = true)
    (hs : sameItems xs ys = true) (hs' : sameItems ys zs = true) : sameItems xs zs = true := by
  induction xs generalizing ys zs with
  | nil =>
    cases ys with
    | nil => exact hs'
    | cons y ys => cases hs
  | cons x xs ih =>
    cases ys with
    | nil => cases hs
    | cons y ys =>
      cases zs with
      | nil => cases hs'
      | cons z zs =>
        obtain ⟨hx, hxs⟩ := sameItems_cons.mp hs
        obtain ⟨hy, hys⟩ := sameItems_cons.mp hs'
        refine sameItems_cons.mpr ⟨h x List.mem_cons_self y z hx hy, ih ?_ hxs hys⟩
        exact fun w hw => h w (List.mem_cons_of_mem x hw)

/-- Being the same is symmetric. -/
theorem same_symm {a b : Value} (h : a.same b = true) : b.same a = true := by
  induction a using byChildren generalizing b with
  | step a ih =>
    obtain ⟨hhead, hparts⟩ := same_iff.mp h
    exact same_iff.mpr ⟨sameHead_symm hhead, sameItems_symm (fun x hx y => ih x hx) hparts⟩

/-- Being the same is transitive. -/
theorem same_trans {a b c : Value} (h : a.same b = true) (h' : b.same c = true) :
    a.same c = true := by
  induction a using byChildren generalizing b c with
  | step a ih =>
    obtain ⟨hhead, hparts⟩ := same_iff.mp h
    obtain ⟨hhead', hparts'⟩ := same_iff.mp h'
    refine same_iff.mpr ⟨sameHead_trans hhead hhead', ?_⟩
    exact sameItems_trans (fun x hx y z => ih x hx) hparts hparts'

/-- The sides of a comparison can be exchanged. -/
theorem same_comm (a b : Value) : a.same b = b.same a :=
  Bool.eq_iff_iff.mpr ⟨same_symm, same_symm⟩

/-- Values that are the same are the same as the same values. -/
theorem same_congr {a b : Value} (h : a.same b = true) (c : Value) : a.same c = b.same c :=
  Bool.eq_iff_iff.mpr ⟨same_trans (same_symm h), same_trans h⟩

section Bare

/-- Values without numbers are each without its numbers. -/
theorem bareItems_eq_map (vs : List Value) : bareItems vs = vs.map bare := by
  induction vs with
  | nil => rfl
  | cons v vs ih => rw [bareItems, ih, List.map_cons]

/-- Entries without numbers are keys and values without theirs. -/
theorem bareEntries_eq_map (entries : List (Value × Value)) :
    bareEntries entries = entries.map fun e => (e.1.bare, e.2.bare) := by
  induction entries with
  | nil => rfl
  | cons e entries ih => rw [bareEntries, ih, List.map_cons]

/-- The parts of a value without numbers are its parts without numbers. -/
theorem children_bare (v : Value) : v.bare.children = v.children.map bare := by
  cases v with
  | null => rfl
  | scalar s => rfl
  | variant c i => rfl
  | collection id form items => exact bareItems_eq_map items
  | object id c fields => exact bareItems_eq_map fields
  | map id form entries =>
    rw [bare, children, children, bareEntries_eq_map, List.flatMap_map, List.map_flatMap]
    rfl

/-- Values without numbers are the same as others if the values are. -/
theorem sameItems_map_bare {xs ys : List Value} (h : ∀ x ∈ xs, ∀ y, x.bare.same y = x.same y) :
    sameItems (xs.map bare) ys = sameItems xs ys := by
  induction xs generalizing ys with
  | nil => rfl
  | cons x xs ih =>
    cases ys with
    | nil => rfl
    | cons y ys =>
      rw [List.map_cons, sameItems, sameItems, h x List.mem_cons_self,
        ih fun w hw => h w (List.mem_cons_of_mem x hw)]

/-- A value without its numbers is the same as what the value is. -/
theorem bare_same (a b : Value) : a.bare.same b = a.same b := by
  induction a using byChildren generalizing b with
  | step a ih =>
    have hhead : a.bare.sameHead b = a.sameHead b := by
      cases a <;> cases b <;> rfl
    rw [same_eq, same_eq, children_bare, sameItems_map_bare fun x hx y => ih x hx y, hhead]

/-- Whether values are the same does not depend on their numbers. -/
theorem bare_same_bare (a b : Value) : a.bare.same b.bare = a.same b := by
  rw [bare_same, same_comm, bare_same, same_comm]

end Bare

end Value

end RemoteCall
