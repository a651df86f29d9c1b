import RemoteCall.Typing.Native

/-!
# Services

A service has a name and methods; a method has a name, a signature and a handler. Methods of one
service may share a name as long as their parameters differ: they are found by name and exact
parameters, flags included, and the return type plays no part. Binding the same name and
parameters again replaces the method. The services of one server have different names and at least
one method each.

Handlers run in a monad `m`, which is the host's choice.
-/

namespace RemoteCall

/-- Why a handler gives no value. -/
inductive InvocationError
  | failed (reason : String)
  | invalidArgument (reason : String)
  | codec (cause : CodecError)
  deriving DecidableEq

namespace InvocationError

/-- The wording of a failure. -/
def message : InvocationError → String
  | failed reason => reason
  | invalidArgument reason => "Invalid argument: " ++ reason
  | codec cause => cause.message

end InvocationError

/-- How a run of a handler ends. -/
inductive Outcome
  | returned (v : Value)
  | failed (e : InvocationError)
  /-- The handler broke off, with a text if it gave one. -/
  | panicked (text : Option String)

/-- What runs when a method is called. -/
abbrev Handler (m : Type → Type) := List Value → m Outcome

/-- The argument at a position as data of a native type. -/
def NativeType.argument (t : NativeType) (arguments : List Value) (position : Nat) :
    Except InvocationError t.Data :=
  match arguments[position]? with
  | none => .error (.invalidArgument s!"missing argument {position} of {arguments.length}")
  | some v => (t.ofValue v).mapError InvocationError.codec

/-- A method of a service. -/
structure Method (m : Type → Type) where
  name : String
  signature : Signature
  handler : Handler m

/-- A method as text: its name and its signature. -/
def Method.text (f : Method m) : String := f.name ++ f.signature.text

/-- A named service. -/
structure Service (m : Type → Type) where
  name : String
  /-- The methods, no two of one name and parameters. -/
  methods : List (Method m)

namespace Service

/-- Whether a method is the one of a name and parameters. -/
def isMethod (name : String) (params : List TypeSpec) (f : Method m) : Bool :=
  f.name == name && f.signature.params == params

/-- The methods with one more, which takes the place of one of the same name and parameters. -/
def putMethod (f : Method m) : List (Method m) → List (Method m)
  | [] => [f]
  | g :: rest =>
    if isMethod f.name f.signature.params g then f :: rest else g :: putMethod f rest

/-- A service without methods. -/
def named (name : String) : Service m := ⟨name, []⟩

/-- The service with a method bound to a handler. -/
def bind (s : Service m) (name : String) (signature : Signature) (handler : Handler m) :
    Service m :=
  { s with methods := putMethod ⟨name, signature, handler⟩ s.methods }

/-- The method of a name and parameters. -/
def method? (s : Service m) (name : String) (params : List TypeSpec) : Option (Method m) :=
  s.methods.find? (isMethod name params)

end Service

/-- Why services cannot be offered together. -/
inductive ServiceProblem
  | noMethods (service : String)
  | duplicate (service : String)
  deriving DecidableEq

namespace ServiceProblem

/-- The wording of a problem. -/
def message : ServiceProblem → String
  | noMethods service => "service " ++ service ++ " has no methods"
  | duplicate service => "duplicate service binding: " ++ service

end ServiceProblem

/-- The services of one server. -/
structure ServiceTable (m : Type → Type) where
  services : List (Service m)

namespace ServiceTable

/-- No services. -/
def empty : ServiceTable m := ⟨[]⟩

/-- The service of a name. -/
def service? (t : ServiceTable m) (name : String) : Option (Service m) :=
  t.services.find? (·.name == name)

/-- Adds a service, or says why it cannot be added. -/
def add (t : ServiceTable m) (s : Service m) : Except ServiceProblem (ServiceTable m) :=
  if s.methods.isEmpty then .error (.noMethods s.name)
  else if (t.service? s.name).isSome then .error (.duplicate s.name)
  else .ok ⟨t.services ++ [s]⟩

/-- A table of services, up to the first that cannot be added. -/
def ofServices (services : List (Service m)) : Except ServiceProblem (ServiceTable m) :=
  services.foldlM add empty

/-- The method of a service by its name and exact parameters. -/
def resolve? (t : ServiceTable m) (service method : String) (params : List TypeSpec) :
    Option (Method m) := do
  (← t.service? service).method? method params

end ServiceTable

end RemoteCall
