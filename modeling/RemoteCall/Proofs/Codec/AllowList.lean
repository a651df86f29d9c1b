import RemoteCall.Proofs.Codec.Everywhere
import RemoteCall.Proofs.Codec.Signatures
import RemoteCall.Value.Identity

/-!
# Only what is allowed is decoded

The sender of some bytes does not choose what they become. Whatever a codec accepts, every object
and every variant in it is of a class that was registered for that, with as many fields or among as
many variants as the class declares, every comparator is one that the policy permits, and arrays
keep to their element types. This holds in every depth, and of what references put there as well.
-/

namespace RemoteCall

/-- What the settings allow a value to be, its parts apart. -/
def Value.Allowed (s : CodecSettings) : Value → Prop
  | object _ className fields =>
    ∃ names, s.registry.Declares className (.object names) ∧ fields.length = names.length
  | variant className ordinal =>
    ∃ variants, s.registry.Declares className (.enum variants) ∧ ordinal.toNat < variants.length
  | collection _ (.sortedSet order) _ => s.comparators.permits order = true
  | map _ (.sorted order) _ => s.comparators.permits order = true
  | collection _ (.array element) items =>
    element ≠ .void ∧ (∀ v ∈ items, element.accepts v = true) ∧ element.Declared s.registry
  | _ => True

/-- Every value in the graph is allowed. -/
def Graph.Allowed (s : CodecSettings) (g : Graph) : Prop := g.Everywhere (Value.Allowed s)

/-- What the settings allow a type specification to be: it names registered classes only, and the
flag is on a type that may carry it. -/
structure TypeSpec.Allowed (s : CodecSettings) (spec : TypeSpec) : Prop where
  declared : spec.type.Declared s.registry
  primitive : spec.isPrimitive = true → spec.type.hasPrimitive = true

/-- The return type and all parameters of the signature are allowed. -/
def Signature.Allowed (s : CodecSettings) (sig : Signature) : Prop :=
  ∀ spec ∈ sig.returns :: sig.params, spec.Allowed s

namespace Decoder

variable (s : CodecSettings)

/-- Results are repeated as often as asked. -/
theorem length_of_repeated {item : Decoder α} {count : Nat} {st st' : DecodeState} {as : List α}
    (h : repeated item count st = .ok as st') : as.length = count :=
  (repeated_eq_ok (R := fun _ _ _ => True) (I := fun _ => True) (C := fun _ => True)
    (fun _ _ _ _ _ _ => ⟨trivial, trivial⟩) h trivial fun _ _ => trivial).1

/-- A value whose contents are read is allowed: each way to read them makes the check that it
needs. -/
theorem allowed_granted (bytes : List UInt8) (final : DecodeState) :
    Granted s bytes final (Value.Allowed s) := by
  constructor
  case null => trivial
  case contents =>
    intro room position st st' v h _ _
    cases h with
    | scalar a left => trivial
    | variant declared inRange left => exact ⟨_, declared, inRange⟩
    | array declared keeps left read => exact ⟨keeps.1, keeps.2, declared⟩
    | list left read => trivial
    | set left read => trivial
    | sortedSet permitted left read => exact permitted
    | map left read => trivial
    | sortedMap permitted left read => exact permitted
    | object declared read => exact ⟨_, declared, length_of_repeated read⟩

/-- A type specification that is read is allowed. -/
theorem typeSpec_allowed (isPrimitive : Bool) :
    Reader.Gives (TypeSpec.Allowed s) (typeSpec s isPrimitive) := by
  refine .bind (typeRef_declared s s.maxDepth) fun type htype => .ite (fun hvalid => ?_)
    fun _ => .throw _
  have hprimitive : isPrimitive = true → type.hasPrimitive = true := by
    rintro rfl
    simpa [TypeSpec.isValid] using hvalid
  exact .pure ⟨htype, hprimitive⟩

/-- A signature that is read is allowed. -/
theorem signature_allowed : Reader.Gives (Signature.Allowed s) (signature s) := by
  refine .bind_any fun count => .bind_any fun flags => .ite (fun _ => .throw _) fun _ => ?_
  refine .bind (typeSpec_allowed s _) fun returns hreturns => ?_
  refine .bind (params_gives (typeSpec_allowed s) flags count 1) fun params hparams => .pure ?_
  exact List.forall_mem_cons.mpr ⟨hreturns, hparams.2⟩

/-- The signature of a request that is read is allowed. -/
theorem request_signature_allowed {st final : DecodeState} {r : Request}
    (h : request s st = .ok r final) : r.signature.Allowed s := by
  obtain ⟨_, _, h⟩ := wire_bind_eq_ok_any h
  obtain ⟨id, _, h⟩ := wire_bind_eq_ok_any h
  obtain ⟨timestamp, _, h⟩ := wire_bind_eq_ok_any h
  obtain ⟨service, _, h⟩ := wire_bind_eq_ok_any h
  obtain ⟨method, _, h⟩ := wire_bind_eq_ok_any h
  obtain ⟨sig, _, hsig, h⟩ := wire_bind_eq_ok (signature_allowed s) h
  obtain ⟨count, _, h⟩ := wire_bind_eq_ok_any h
  obtain ⟨arguments, _, _, h⟩ := bind_eq_ok h
  obtain ⟨rfl, rfl⟩ := pure_eq_ok h
  exact hsig

end Decoder

/-- **Only what is allowed is decoded.** Whatever a codec accepts as a value, as a request or as a
response, every value in it is allowed, at any depth and behind any reference, and so is the
signature of a request. A name that registrations declare they declare in one shape only, so it is
that class whose fields and variants are counted. -/
theorem decoded_allowed (s : CodecSettings) :
    (∀ bytes v, s.decodeValue bytes = .ok v → Graph.Allowed s [v]) ∧
    (∀ bytes r, s.decodeRequest bytes = .ok r →
      Graph.Allowed s r.arguments ∧ r.signature.Allowed s) ∧
    (∀ bytes r, s.decodeResponse bytes = .ok r → Graph.Allowed s [r.payload]) ∧
    (s.registry.Registered → ∀ name shape shape', s.registry.Declares name shape →
      s.registry.Declares name shape' → shape = shape') := by
  refine ⟨fun bytes v h => ?value, fun bytes r h => ?request, fun bytes r h => ?response,
    fun hregistered name shape shape' => hregistered.regular.declares_unique⟩
  case value =>
    obtain ⟨final, hfinal⟩ := Decoder.exists_final h
    exact (Decoder.allowed_granted s bytes final).value hfinal
  case request =>
    obtain ⟨final, hfinal⟩ := Decoder.exists_final h
    exact ⟨(Decoder.allowed_granted s bytes final).request hfinal,
      Decoder.request_signature_allowed s hfinal⟩
  case response =>
    obtain ⟨final, hfinal⟩ := Decoder.exists_final h
    exact (Decoder.allowed_granted s bytes final).response hfinal

namespace Drawing

/-- Points have a color and neighbors. -/
def registry : Registry :=
  ⟨[⟨0, "Point", .object ["color", "neighbors"]⟩, ⟨1, "Color", .enum ["Red", "Green"]⟩]⟩

/-- The standard settings with points and colors. -/
def settings : CodecSettings := { CodecSettings.standard with registry }

/-- A green point without neighbors. -/
def point : Value :=
  .object 1 "Point" [.variant "Color" 1, .collection 2 (.array (.registered "Point")) []]

/-- A list that holds the point twice, and an empty sorted set. -/
def value : Value := .collection 0 .list [point, point, .collection 3 (.sortedSet .reverse) []]

/-- The bytes of the list. The second place of the point is a reference. -/
def bytes : List UInt8 := [23, 0, 1, 3, 0, 65, 0, 66, 1, 22, 0, 64, 0, 65, 2, 23, 0, 3, 2, 0]

end Drawing

/-- A list with a point in two places is accepted and allowed where points are registered, which are
points with a color and neighbors only, and refused where they are not. -/
theorem decoded_allowed_drawing :
    Drawing.settings.decodeValue Drawing.bytes = .ok Drawing.value ∧
    Graph.Allowed Drawing.settings [Drawing.value] ∧
    (∀ shape, Drawing.settings.registry.Declares "Point" shape →
      shape = .object ["color", "neighbors"]) ∧
    CodecSettings.standard.decodeValue Drawing.bytes = .error (.unregisteredClassId 64) := by
  have hread : Drawing.settings.decodeValue Drawing.bytes = .ok Drawing.value := by
    decide +kernel
  have hregistered : Drawing.settings.registry.Registered := ⟨Drawing.registry.classes, rfl⟩
  have hpoint : Drawing.settings.registry.Declares "Point" (.object ["color", "neighbors"]) :=
    ⟨_, List.mem_cons_self, rfl, rfl⟩
  have hallowed := decoded_allowed Drawing.settings
  refine ⟨hread, hallowed.1 _ _ hread, fun shape hshape => ?_, by decide +kernel⟩
  exact hallowed.2.2.2 hregistered _ _ _ hshape hpoint

end RemoteCall
