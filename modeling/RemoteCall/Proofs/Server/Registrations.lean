import Mathlib.Data.List.Induction
import Mathlib.Data.List.Nodup
import RemoteCall.Proofs.Keyed
import RemoteCall.Server.Service

/-!
# Services by their registrations

A service is built by registering methods one after the other, and a table of several services. A
table exists exactly if each service has a method and their names differ. A method that is looked
for in a service is the one that was registered last under its name and parameters.
-/

namespace RemoteCall

variable {m : Type → Type}

/-- What a service is built of. -/
structure Binding (m : Type → Type) where
  name : String
  /-- The methods in the order in which they are registered. -/
  registrations : List (Method m)

/-- A method is registered under a name and parameters. -/
def Method.IsUnder (f : Method m) (name : String) (params : List TypeSpec) : Prop :=
  f.name = name ∧ f.signature.params = params

namespace Service

/-- A method is known by its name and parameters. -/
theorem isMethod_iff {name : String} {params : List TypeSpec} {f : Method m} :
    isMethod name params f = true ↔ f.IsUnder name params := by
  simp only [isMethod, Method.IsUnder, Bool.and_eq_true, beq_iff_eq]

/-- A method that is put in is found under its own name and parameters, and under others what has
been there. -/
theorem find?_putMethod (name : String) (params : List TypeSpec) (f : Method m)
    (methods : List (Method m)) : (putMethod f methods).find? (isMethod name params) =
      if isMethod name params f then some f else methods.find? (isMethod name params) := by
  induction methods with
  | nil =>
    rw [putMethod, List.find?_cons]
    cases isMethod name params f <;> rfl
  | cons g rest ih =>
    have hown : isMethod f.name f.signature.params g = true →
        isMethod name params g = isMethod name params f := by
      intro hg
      obtain ⟨hname, hparams⟩ := isMethod_iff.mp hg
      rw [isMethod, isMethod, hname, hparams]
    have hother : isMethod f.name f.signature.params g ≠ true →
        isMethod name params f = true → isMethod name params g = false := by
      intro hg hf
      obtain ⟨hname, hparams⟩ := isMethod_iff.mp hf
      rw [← hname, ← hparams]
      exact Bool.eq_false_iff.mpr hg
    rw [putMethod]
    by_cases hg : isMethod f.name f.signature.params g = true
    · rw [if_pos hg, List.find?_cons, List.find?_cons, hown hg]
      cases isMethod name params f <;> rfl
    · rw [if_neg hg, List.find?_cons, List.find?_cons, ih]
      by_cases hf : isMethod name params f = true
      · rw [hother hg hf, if_pos hf]
      · rw [if_neg hf, if_neg hf]

/-- Something has been put in. -/
theorem putMethod_ne_nil (f : Method m) (methods : List (Method m)) :
    putMethod f methods ≠ [] := by
  cases methods with
  | nil => exact List.cons_ne_nil _ _
  | cons g rest =>
    rw [putMethod]
    split
    · exact List.cons_ne_nil _ _
    · exact List.cons_ne_nil _ _

end Service

namespace Binding

/-- The service with the methods registered. -/
def service (b : Binding m) : Service m :=
  b.registrations.foldl (fun s f => s.bind f.name f.signature f.handler) (.named b.name)

/-- One more registration. -/
theorem service_concat (name : String) (registrations : List (Method m)) (f : Method m) :
    (service ⟨name, registrations ++ [f]⟩) =
      (service ⟨name, registrations⟩).bind f.name f.signature f.handler := by
  rw [service, List.foldl_append, List.foldl_cons, List.foldl_nil]
  rfl

/-- Registering methods keeps the name. -/
theorem service_name (b : Binding m) : b.service.name = b.name := by
  obtain ⟨name, registrations⟩ := b
  induction registrations using List.reverseRecOn with
  | nil => rfl
  | append_singleton registrations f ih =>
    rw [service_concat]
    exact ih

/-- There are methods exactly if some have been registered. -/
theorem service_methods_eq_nil_iff (b : Binding m) :
    b.service.methods = [] ↔ b.registrations = [] := by
  obtain ⟨name, registrations⟩ := b
  cases registrations using List.reverseRecOn with
  | nil => exact Iff.rfl
  | append_singleton registrations f =>
    have hput := Service.putMethod_ne_nil f (service ⟨name, registrations⟩).methods
    have hconcat : registrations ++ [f] ≠ [] := List.concat_ne_nil f registrations
    rw [service_concat]
    exact iff_of_false hput hconcat

/-- A method is looked for from behind. -/
theorem method?_service (b : Binding m) (name : String) (params : List TypeSpec) :
    b.service.method? name params =
      b.registrations.reverse.find? (Service.isMethod name params) := by
  obtain ⟨own, registrations⟩ := b
  induction registrations using List.reverseRecOn with
  | nil => rfl
  | append_singleton registrations f ih =>
    have hput := Service.find?_putMethod name params f (service ⟨own, registrations⟩).methods
    rw [service_concat, List.reverse_append, List.reverse_singleton, List.singleton_append,
      List.find?_cons, ← ih]
    refine hput.trans ?_
    cases Service.isMethod name params f <;> rfl

/-- A method is found as it was registered last. -/
theorem method?_service_eq_some_iff (b : Binding m) {name : String} {params : List TypeSpec}
    {f : Method m} : b.service.method? name params = some f ↔
      ∃ earlier later, b.registrations = earlier ++ f :: later ∧ f.IsUnder name params ∧
        ∀ g ∈ later, ¬g.IsUnder name params := by
  rw [method?_service, List.find?_eq_some_iff_append]
  simp only [Service.isMethod_iff, Bool.not_eq_true', Bool.eq_false_iff, ne_eq]
  constructor
  · rintro ⟨hf, later, earlier, hsplit, hlater⟩
    refine ⟨earlier.reverse, later.reverse, ?_, hf, fun g hg => hlater g (List.mem_reverse.mp hg)⟩
    have hturned := congrArg List.reverse hsplit
    rwa [List.reverse_reverse, List.reverse_append, List.reverse_cons, List.append_assoc] at hturned
  · rintro ⟨earlier, later, hsplit, hf, hlater⟩
    refine ⟨hf, later.reverse, earlier.reverse, ?_, fun g hg => hlater g (List.mem_reverse.mp hg)⟩
    rw [hsplit, List.reverse_append, List.reverse_cons, List.append_assoc]
    rfl

/-- No method is found exactly if none was registered. -/
theorem method?_service_eq_none_iff (b : Binding m) {name : String} {params : List TypeSpec} :
    b.service.method? name params = none ↔ ∀ f ∈ b.registrations, ¬f.IsUnder name params := by
  rw [method?_service, List.find?_eq_none]
  simp only [List.mem_reverse, Service.isMethod_iff]

end Binding

namespace ServiceTable

variable {services : List (Service m)} {t : ServiceTable m} {s : Service m}

/-- A service is added if it has methods and a name of its own. -/
theorem add_eq_ok_iff {t' : ServiceTable m} : t.add s = .ok t' ↔
    t' = ⟨t.services ++ [s]⟩ ∧ s.methods ≠ [] ∧ s.name ∉ t.services.map (·.name) := by
  have hnamed : (t.service? s.name).isSome = true ↔ s.name ∈ t.services.map (·.name) := by
    simp only [service?, List.find?_isSome, beq_iff_eq, List.mem_map]
  unfold add
  split
  case isTrue hempty =>
    simp only [List.isEmpty_iff.mp hempty, reduceCtorEq, ne_eq, not_true_eq_false, false_and,
      and_false]
  case isFalse hempty =>
    have hmethods : s.methods ≠ [] := fun hnil => hempty (List.isEmpty_iff.mpr hnil)
    split
    case isTrue htaken =>
      simp only [hnamed.mp htaken, reduceCtorEq, not_true_eq_false, and_false]
    case isFalse hfree =>
      simp only [mt hnamed.mpr hfree, hmethods, Except.ok.injEq, ne_eq, not_false_eq_true, and_true,
        eq_comm]

/-- Services one after the other, and one more. -/
theorem ofServices_concat (services : List (Service m)) (s : Service m) :
    ofServices (services ++ [s]) = ofServices services >>= fun t => t.add s := by
  unfold ofServices
  rw [List.foldlM_append]
  refine congrArg _ (funext fun t => ?_)
  rw [List.foldlM_cons]
  cases t.add s <;> rfl

/-- A table is made exactly of services with methods and with different names. -/
theorem ofServices_eq_ok_iff : ofServices services = .ok t ↔
    t = ⟨services⟩ ∧ (∀ s ∈ services, s.methods ≠ []) ∧ (services.map (·.name)).Nodup := by
  induction services using List.reverseRecOn generalizing t with
  | nil =>
    simp only [List.not_mem_nil, false_implies, implies_true, List.map_nil, List.nodup_nil,
      and_true]
    exact ⟨fun h => (Except.ok.inj h).symm, fun h => h ▸ rfl⟩
  | append_singleton services s ih =>
    have hnames : ((services ++ [s]).map (·.name)).Nodup ↔
        (services.map (·.name)).Nodup ∧ s.name ∉ services.map (·.name) := by
      rw [List.map_append, List.map_singleton, ← List.concat_eq_append, List.nodup_concat, and_comm]
    rw [ofServices_concat, hnames]
    simp only [List.forall_mem_append, List.forall_mem_singleton]
    constructor
    · intro h
      cases hrest : ofServices services with
      | error p =>
        rw [hrest] at h
        cases h
      | ok rest =>
        rw [hrest] at h
        obtain ⟨rfl, hmethods, hdistinct⟩ := ih.mp hrest
        obtain ⟨rfl, hs, hname⟩ := add_eq_ok_iff.mp h
        exact ⟨rfl, ⟨hmethods, hs⟩, hdistinct, hname⟩
    · rintro ⟨rfl, ⟨hmethods, hs⟩, hdistinct, hname⟩
      rw [ih.mpr ⟨rfl, hmethods, hdistinct⟩]
      exact add_eq_ok_iff.mpr ⟨rfl, hs, hname⟩

/-- A table of bound services exists exactly if each has a registration and their names differ. -/
theorem exists_ofBindings_iff (bindings : List (Binding m)) :
    (∃ t, ofServices (bindings.map Binding.service) = .ok t) ↔
      (∀ b ∈ bindings, b.registrations ≠ []) ∧ (bindings.map (·.name)).Nodup := by
  have hnames : (bindings.map Binding.service).map (·.name) = bindings.map (·.name) := by
    rw [List.map_map]
    exact List.map_congr_left fun b _ => b.service_name
  simp only [ofServices_eq_ok_iff, exists_eq_left, hnames, List.forall_mem_map, ne_eq,
    Binding.service_methods_eq_nil_iff]

end ServiceTable

/-- A method is the last one that is registered in a service under a name and parameters. -/
def LastRegistered (bindings : List (Binding m)) (service name : String) (params : List TypeSpec)
    (f : Method m) : Prop :=
  ∃ b ∈ bindings, b.name = service ∧ ∃ earlier later, b.registrations = earlier ++ f :: later ∧
    f.IsUnder name params ∧ ∀ g ∈ later, ¬g.IsUnder name params

/-- No method is registered in a service under a name and parameters. -/
def Unregistered (bindings : List (Binding m)) (service name : String)
    (params : List TypeSpec) : Prop :=
  ∀ b ∈ bindings, b.name = service → ∀ f ∈ b.registrations, ¬f.IsUnder name params

section Resolving

variable {bindings : List (Binding m)} {t : ServiceTable m} {service name : String}
  {params : List TypeSpec}

/-- The service of a name is that of its binding. -/
theorem service?_eq_some_iff (h : ServiceTable.ofServices (bindings.map Binding.service) = .ok t)
    {s : Service m} :
    t.service? service = some s ↔ ∃ b ∈ bindings, b.name = service ∧ b.service = s := by
  obtain ⟨rfl, -, hnames⟩ := ServiceTable.ofServices_eq_ok_iff.mp h
  constructor
  · intro hs
    obtain ⟨b, hb, rfl⟩ := List.mem_map.mp (List.mem_of_find?_eq_some hs)
    have hname : b.service.name = service := key_of_find? hs
    exact ⟨b, hb, b.service_name.symm.trans hname, rfl⟩
  · rintro ⟨b, hb, rfl, rfl⟩
    have hmem := List.mem_map_of_mem (f := Binding.service) hb
    rw [← b.service_name]
    exact find?_key_of_mem hnames hmem

/-- What is found in a table is the method that was registered last. -/
theorem resolve?_eq_some_iff (h : ServiceTable.ofServices (bindings.map Binding.service) = .ok t)
    {f : Method m} :
    t.resolve? service name params = some f ↔ LastRegistered bindings service name params f := by
  unfold ServiceTable.resolve? LastRegistered
  simp only [Option.bind_eq_bind, Option.bind_eq_some_iff, service?_eq_some_iff h]
  constructor
  · rintro ⟨s, ⟨b, hb, hname, rfl⟩, hf⟩
    exact ⟨b, hb, hname, b.method?_service_eq_some_iff.mp hf⟩
  · rintro ⟨b, hb, hname, hf⟩
    exact ⟨b.service, ⟨b, hb, hname, rfl⟩, b.method?_service_eq_some_iff.mpr hf⟩

/-- Nothing is found in a table exactly if nothing was registered. -/
theorem resolve?_eq_none_iff (h : ServiceTable.ofServices (bindings.map Binding.service) = .ok t) :
    t.resolve? service name params = none ↔ Unregistered bindings service name params := by
  unfold ServiceTable.resolve? Unregistered
  simp only [Option.bind_eq_bind, Option.bind_eq_none_iff, service?_eq_some_iff h]
  constructor
  · intro hnone b hb hname
    exact b.method?_service_eq_none_iff.mp (hnone b.service ⟨b, hb, hname, rfl⟩)
  · rintro hnone s ⟨b, hb, hname, rfl⟩
    exact b.method?_service_eq_none_iff.mpr (hnone b hb hname)

end Resolving

end RemoteCall
