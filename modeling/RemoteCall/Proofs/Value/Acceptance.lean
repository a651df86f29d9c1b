import RemoteCall.Proofs.Value.Graph
import RemoteCall.Typing.Assignable

/-!
# What types accept

Whether a value may stand where a type is asked for is decided by its outermost form, so values that
are alike are accepted alike. This holds of a single value, of a result under the rule that a
primitive type refuses null, and of arguments against a signature.
-/

namespace RemoteCall

variable {v w : Value} {vs ws : List Value}

namespace Value

/-- A type does not look at the numbers of instances. -/
theorem accepts_bare (t : TypeRef) (v : Value) : t.accepts v.bare = t.accepts v := by
  cases v with
  | collection id form items =>
    cases t with
    | collection kind => cases kind <;> cases form <;> rfl
    | _ => cases form <;> rfl
  | map id form entries =>
    cases t with
    | map kind => cases kind <;> cases form <;> rfl
    | _ => cases form <;> rfl
  | object id c fields => cases t <;> rfl
  | null => rfl
  | scalar s => rfl
  | variant c i => rfl

/-- Only null is null without its instance numbers. -/
theorem isNull_bare (v : Value) : v.bare.isNull = v.isNull := by
  cases v with
  | _ => rfl

end Value

/-- A return type does not look at the numbers of instances. -/
theorem TypeSpec.acceptsReturn_bare (s : TypeSpec) (v : Value) :
    s.acceptsReturn v.bare = s.acceptsReturn v := by
  rw [acceptsReturn, acceptsReturn, Value.isNull_bare, Value.accepts_bare]

/-- Arguments match by their forms alone. -/
theorem Signature.isMatch_congr (s : Signature)
    (h : Value.bareItems vs = Value.bareItems ws) : s.isMatch vs = s.isMatch ws := by
  unfold isMatch
  generalize s.params = params
  induction vs generalizing ws params with
  | nil =>
    cases ws with
    | nil => rfl
    | cons w ws => cases h
  | cons v vs ih =>
    cases ws with
    | nil => cases h
    | cons w ws =>
      obtain ⟨hhead, htail⟩ := List.cons.inj h
      cases params with
      | nil => rfl
      | cons param params =>
        have hrest := ih htail params
        have hparam : param.type.accepts v = param.type.accepts w := by
          rw [← Value.accepts_bare, hhead, Value.accepts_bare]
        simp only [List.length_cons, List.zip_cons_cons, List.all_cons, hparam]
        grind

namespace Graph

/-- A graph is like itself. -/
theorem Alike.refl (g : Graph) : g.Alike g := ⟨rfl, fun _ _ => Iff.rfl⟩

/-- What is like something alike is alike. -/
theorem Alike.trans {g h k : Graph} (hgh : g.Alike h) (hhk : h.Alike k) : g.Alike k :=
  ⟨hgh.contents.trans hhk.contents, fun p q => (hgh.sharing p q).trans (hhk.sharing p q)⟩

/-- Return types take values that are alike alike. -/
theorem Alike.acceptsReturn_eq (h : Alike [v] [w]) (s : TypeSpec) :
    s.acceptsReturn w = s.acceptsReturn v := by
  have hbare : v.bare = w.bare := (List.cons.inj h.contents).1
  rw [← s.acceptsReturn_bare w, ← s.acceptsReturn_bare v, hbare]

end Graph

end RemoteCall
