import Mathlib.Data.List.Forall2
import RemoteCall.Proofs.Server.Registrations
import RemoteCall.Server.Dispatch

/-!
# Dispatch runs the right handler

A request on its own is refused without a run of any handler if its arguments do not match its own
signature, or if no method is registered that it can call. Otherwise the handler runs that was
registered last, once and on the arguments of the request, and the response reports how it ended.
Handlers run in a monad, so what runs can be read off the program that dispatch is: a refusal is a
pure program, and anything else is the handler followed by a pure step.
-/

namespace RemoteCall

/-- The arguments match the parameters of the request's own signature, one by one. -/
def Request.Matches (r : Request) : Prop :=
  List.Forall₂ (fun param argument => param.type.accepts argument = true)
    r.signature.params r.arguments

/-- A value may be returned where a specification is declared: it is of the type, and not null if
the specification is primitive and has values at all. -/
def TypeSpec.MayReturn (s : TypeSpec) (v : Value) : Prop :=
  s.type.accepts v = true ∧ (s.isPrimitive = true → s.type ≠ .void → v ≠ .null)

/-- The arguments are compared with the parameters in number and one by one. -/
theorem Request.isMatch_iff (r : Request) : r.isMatch = true ↔ r.Matches := by
  rw [isMatch, Signature.isMatch, Bool.and_eq_true, beq_iff_eq, Matches, List.forall₂_iff_zip,
    List.all_eq_true, eq_comm]
  exact and_congr_right fun _ => ⟨fun h a b hab => h (a, b) hab, fun h e he => h he⟩

/-- Null is the value that is null. -/
theorem Value.isNull_iff (v : Value) : v.isNull = true ↔ v = .null := by
  cases v <;> simp [isNull]

/-- What may be returned is decided by the specification. -/
theorem TypeSpec.acceptsReturn_iff (s : TypeSpec) (v : Value) :
    s.acceptsReturn v = true ↔ s.MayReturn v := by
  have hnull := v.isNull_iff
  unfold acceptsReturn MayReturn
  split
  case isTrue h =>
    simp only [Bool.and_eq_true, bne_iff_ne, hnull] at h
    simp [h]
  case isFalse h =>
    simp only [Bool.and_eq_true, bne_iff_ne, hnull, not_and] at h
    simp only [iff_self_and]
    exact fun _ hprimitive hvoid => h ⟨hprimitive, hvoid⟩

/-- A response to a request has its id and a status; only a success has no message or a payload. -/
structure Request.AnsweredWith (r : Request) (verdict : Status) (response : Response) : Prop where
  id : response.id = r.id
  status : response.status = verdict
  message : response.message = none ↔ verdict = .ok
  payload : verdict ≠ .ok → response.payload = .null

/-- How a response reports the end of a handler. -/
inductive Request.Reported (r : Request) : Outcome → Response → Prop
  /-- The handler has returned what it may return. -/
  | taken {v : Value} {response : Response} (may : r.signature.returns.MayReturn v)
      (answer : r.AnsweredWith .ok response) (payload : response.payload = v) :
      Reported r (.returned v) response
  /-- The handler has returned what it may not return. -/
  | refused {v : Value} {response : Response} (mayNot : ¬r.signature.returns.MayReturn v)
      (answer : r.AnsweredWith .invocationError response) : Reported r (.returned v) response
  | failed {e : InvocationError} {response : Response}
      (answer : r.AnsweredWith .invocationError response) : Reported r (.failed e) response
  | panicked {text : Option String} {response : Response}
      (answer : r.AnsweredWith .invocationError response) : Reported r (.panicked text) response

/-- What is made of a request, in the order of precedence, where services are built of
registrations. -/
inductive Dispatched {m : Type → Type} [Monad m] (bindings : List (Binding m)) (r : Request) :
    m Response → Prop
  /-- The arguments do not match. No handler runs. -/
  | mismatched {response : Response} (mismatch : ¬r.Matches)
      (answer : r.AnsweredWith .parameterError response) : Dispatched bindings r (pure response)
  /-- There is no such method. No handler runs. -/
  | unbound {response : Response} (fit : r.Matches)
      (none : Unregistered bindings r.service r.method r.signature.params)
      (answer : r.AnsweredWith .lookupError response) : Dispatched bindings r (pure response)
  /-- The handler that was registered last runs once, on the arguments of the request. -/
  | invoked {f : Method m} {respond : Outcome → Response} (fit : r.Matches)
      (last : LastRegistered bindings r.service r.method r.signature.params f)
      (reported : ∀ outcome, r.Reported outcome (respond outcome)) :
      Dispatched bindings r (f.handler r.arguments >>= fun outcome => pure (respond outcome))

namespace Request

variable (r : Request) (timestamp : Int64)

/-- A failure is an answer with its status. -/
theorem answeredWith_failure {verdict : Status} (h : verdict ≠ .ok) (message : String) :
    r.AnsweredWith verdict (.failure r.id timestamp verdict message) where
  id := rfl
  status := rfl
  message := iff_of_false (Option.some_ne_none message) h
  payload := fun _ => rfl

/-- A success is an answer. -/
theorem answeredWith_success (v : Value) : r.AnsweredWith .ok (.success r.id timestamp v) where
  id := rfl
  status := rfl
  message := iff_of_true rfl rfl
  payload := fun h => absurd rfl h

/-- Every end of a handler is reported. -/
theorem reported_report (outcome : Outcome) : r.Reported outcome (r.report timestamp outcome) := by
  have hfailure (message : String) : r.AnsweredWith .invocationError
      (.failure r.id timestamp .invocationError message) :=
    r.answeredWith_failure timestamp (by decide) message
  cases outcome with
  | returned v =>
    have hmay := r.signature.returns.acceptsReturn_iff v
    rw [report]
    split
    case isTrue htaken =>
      exact .taken (hmay.mp htaken) (r.answeredWith_success timestamp v) rfl
    case isFalse hrefused => exact .refused (mt hmay.mpr hrefused) (hfailure _)
  | failed e => exact .failed (hfailure _)
  | panicked text => exact .panicked (hfailure _)

end Request

/-- **Dispatch runs the right handler.** A table of services exists exactly if each has a method
registered and their names differ. Over such a table every request is refused as its arguments and
the registrations say, without a run of any handler, or the handler that was registered last under
its service, name and parameters runs, once and on its arguments, and the response reports the end
of that run. -/
theorem dispatch_runs {m : Type → Type} [Monad m] (bindings : List (Binding m)) :
    ((∃ t, ServiceTable.ofServices (bindings.map Binding.service) = .ok t) ↔
      (∀ b ∈ bindings, b.registrations ≠ []) ∧ (bindings.map (·.name)).Nodup) ∧
    ∀ d : Dispatcher m, ServiceTable.ofServices (bindings.map Binding.service) = .ok d.services →
      ∀ timestamp r, Dispatched bindings r (d.dispatch timestamp r) := by
  refine ⟨ServiceTable.exists_ofBindings_iff bindings, fun d hd timestamp r => ?_⟩
  have hmatches := r.isMatch_iff
  rw [Dispatcher.dispatch]
  split
  case isTrue hmatch =>
    have hfit := hmatches.mp hmatch
    cases hmethod : d.method? r with
    | none =>
      have hanswer : ∀ message, r.AnsweredWith .lookupError
          (.failure r.id timestamp .lookupError message) :=
        r.answeredWith_failure timestamp (by decide)
      exact .unbound hfit ((resolve?_eq_none_iff hd).mp hmethod) (hanswer _)
    | some f =>
      exact .invoked hfit ((resolve?_eq_some_iff hd).mp hmethod) (r.reported_report timestamp)
  case isFalse hmismatch =>
    have hanswer : ∀ message, r.AnsweredWith .parameterError
        (.failure r.id timestamp .parameterError message) :=
      r.answeredWith_failure timestamp (by decide)
    exact .mismatched (mt hmatches.mpr hmismatch) (hanswer _)

namespace Overloaded

/-- A parameter or result that is an integer, and primitive or not. -/
def int (isPrimitive : Bool) : TypeSpec := ⟨.scalar .int, isPrimitive⟩

/-- A handler that notes its run and returns a value. -/
def noting (label : Nat) (v : Value) : Handler (StateM (List Nat)) := fun _ =>
  modifyGet fun runs => (.returned v, runs ++ [label])

/-- A method of one parameter that is registered twice, and once more with a parameter that is
primitive. -/
def binding : Binding (StateM (List Nat)) where
  name := "counter"
  registrations := [⟨"add", ⟨int true, [int false]⟩, noting 1 .null⟩,
    ⟨"add", ⟨int true, [int false]⟩, noting 2 (.scalar (.int 7))⟩,
    ⟨"add", ⟨int true, [int true]⟩, noting 3 .null⟩]

/-- A dispatcher over the one service. -/
def dispatcher : Dispatcher (StateM (List Nat)) := ⟨⟨[binding.service]⟩, .standard, 1024⟩

/-- A request for the method of one parameter, primitive or not. -/
def request (isPrimitive : Bool) (arguments : List Value) : Request :=
  ⟨9, 0, "counter", "add", ⟨int true, [int isPrimitive]⟩, arguments⟩

end Overloaded

/-- Of two registrations the later one runs, a primitive parameter calls another method, whose null
is refused, and too many arguments make nothing run. -/
theorem dispatch_runs_overloaded :
    (∃ t, ServiceTable.ofServices [Overloaded.binding.service] = .ok t) ∧
    (∀ timestamp r, Dispatched [Overloaded.binding] r
      (Overloaded.dispatcher.dispatch timestamp r)) ∧
    (let ran := fun isPrimitive arguments =>
      ((Overloaded.dispatcher.dispatch 0 (Overloaded.request isPrimitive arguments)).run [])
    ((ran false [.null]).1.status = .ok ∧ (ran false [.null]).2 = [2]) ∧
      ((ran true [.null]).1.status = .invocationError ∧ (ran true [.null]).2 = [3]) ∧
      (ran true []).1.status = .parameterError ∧ (ran true []).2 = []) := by
  obtain ⟨hexists, hdispatched⟩ := dispatch_runs [Overloaded.binding]
  refine ⟨hexists.mpr ⟨?_, ?_⟩, hdispatched Overloaded.dispatcher rfl, ?_⟩
  · decide +kernel
  · decide +kernel
  · decide +kernel

end RemoteCall
