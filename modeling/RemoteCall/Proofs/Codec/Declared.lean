import RemoteCall.Proofs.Codec.Classes

/-!
# Names that are declared

The reader of a type reference finds classes by their numbers, so every name that it gives is the
name of a registered class, however deep in an array type it stands. Comparators are checked against
the policy as soon as they are read.
-/

namespace RemoteCall

namespace Registry

variable {r : Registry} {name : String} {shape shape' : ClassShape}

/-- A class of this name and shape is registered. -/
def Declares (r : Registry) (name : String) (shape : ClassShape) : Prop :=
  ∃ c ∈ r.classes, c.name = name ∧ c.shape = shape

/-- A class that is found by its number is declared. -/
theorem declares_of_byClassId {classId : Nat} {c : RegisteredClass}
    (h : r.byClassId classId = .ok c) : r.Declares c.name c.shape :=
  ⟨c, (byClassId_eq_ok h).2.1, rfl, rfl⟩

/-- Where names are not shared, a name is declared in one shape only. -/
theorem Regular.declares_unique (hr : r.Regular) (h : r.Declares name shape)
    (h' : r.Declares name shape') : shape = shape' := by
  obtain ⟨c, hc, rfl, rfl⟩ := h
  obtain ⟨d, hd, hname, rfl⟩ := h'
  have hfirst : r.byName? c.name = some c := find?_eq_some_of_pairwise hr.names hc
  have hsecond : r.byName? d.name = some d := find?_eq_some_of_pairwise hr.names hd
  rw [hname, hfirst] at hsecond
  rw [Option.some.inj hsecond]

end Registry

/-- Every class that the type names is registered. -/
def TypeRef.Declared (r : Registry) : TypeRef → Prop
  | registered name => ∃ shape, r.Declares name shape
  | array element => element.Declared r
  | _ => True

namespace Decoder

open Reader

variable (s : CodecSettings)

/-- A type reference that is read names registered classes only. -/
theorem typeRef_declared (room : Nat) :
    Gives (fun type => type.Declared s.registry) (typeRef s room) := by
  induction room with
  | zero => exact .throw _
  | succ room ih =>
    refine .bind_any fun id => ?_
    refine .ite (fun _ => .pure trivial) fun _ => .ite (fun _ => .pure trivial) fun _ => ?_
    refine .ite (fun _ => .bind_any fun tag => .map _ fun _ _ _ _ => trivial) fun _ => ?_
    refine .ite (fun _ => .bind_any fun tag => .map _ fun _ _ _ _ => trivial) fun _ => ?_
    refine .ite (fun _ => ?array) fun _ => .ite (fun _ => ?registered) fun _ => ?scalar
    case array => exact .bind ih fun element helement => .bind_any fun _ => .pure helement
    case registered =>
      refine .bind (.lift fun c hc => Registry.declares_of_byClassId hc) fun c hc => ?_
      exact .pure ⟨c.shape, hc⟩
    case scalar =>
      cases ScalarType.ofClassId? id with
      | none => exact .throw _
      | some t => exact .pure trivial

/-- A comparator that is read is permitted. -/
theorem comparator_permitted :
    Gives (fun order => s.comparators.permits order = true) (comparator s) := by
  refine .bind_any fun id => ?_
  have hcheck (order : Comparator) : Gives (fun order => s.comparators.permits order = true)
      (do
        s.comparators.check order
        return order : Reader Comparator) :=
    .bind (.lift fun _ hchecked => ComparatorPolicy.check_eq_ok_iff.mp hchecked) fun _ hpermits =>
      .pure hpermits
  exact .ite (fun _ => .bind_any hcheck) fun _ => .bind_any hcheck

end Decoder

end RemoteCall
