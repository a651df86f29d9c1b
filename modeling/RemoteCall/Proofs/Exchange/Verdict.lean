import RemoteCall.Proofs.Exchange.Basic
import RemoteCall.Proofs.Value.Acceptance

/-!
# What a call comes to

The three conditions of a call, in the order in which they are looked at: the arguments match the
signature, a method is bound, and its handler gives a value that the declared return type takes. The
first that fails decides the status. The server looks at the request and the value as it has them,
the client at the value as it has come back; that they agree is due to types accepting alike what is
alike.
-/

namespace RemoteCall

variable {m : Type → Type}

/-- A handler that has started is one for a request: it is that of the method bound, and it runs on
arguments that are alike. -/
structure Partners.Serves (p : Partners m) (r : Request) (w : Work m) : Prop where
  bound : p.dispatcher.method? r = some w.method
  request : w.invocation.request = { r with arguments := w.arguments }
  alike : Graph.Alike r.arguments w.arguments

/-- What a call of a request comes to, given the handler that has started for it, if one has. -/
inductive Partners.Agrees (p : Partners m) (r : Request) :
    Option (Work m) → Except CallError Value → Prop
  /-- The arguments do not match the signature. -/
  | parameterError (message : String) (mismatched : r.isMatch = false) :
      Agrees p r none (.error (.remote .parameterError message))
  /-- No method is bound for the service, the name and the parameters. -/
  | lookupError (message : String) (isMatch : r.isMatch = true)
      (unbound : p.dispatcher.method? r = none) :
      Agrees p r none (.error (.remote .lookupError message))
  /-- The handler gives no value that the declared return type takes. -/
  | invocationError (message : String) {w : Work m} (isMatch : r.isMatch = true)
      (serves : p.Serves r w)
      (refused : ∀ v, p.outcome w.invocation = .returned v →
        r.signature.returns.acceptsReturn v = false) :
      Agrees p r (some w) (.error (.remote .invocationError message))
  /-- The handler gives a value that the declared return type takes. -/
  | value {w : Work m} {v result : Value} (isMatch : r.isMatch = true) (serves : p.Serves r w)
      (returned : p.outcome w.invocation = .returned v)
      (accepted : r.signature.returns.acceptsReturn v = true) (alike : Graph.Alike [v] [result]) :
      Agrees p r (some w) (.ok result)

namespace Partners.Agrees

variable {p : Partners m} {r : Request} {w : Work m} {work : Option (Work m)}

/-- The report on an invocation tells what the call comes to. -/
theorem of_report (hmatch : r.isMatch = true) (hserves : p.Serves r w) (timestamp : Int64) :
    p.Agrees r (some w)
      (w.invocation.request.report timestamp (p.outcome w.invocation)).payload? := by
  have hreturns : w.invocation.request.signature.returns = r.signature.returns := by
    rw [hserves.request]
  cases houtcome : p.outcome w.invocation with
  | failed e =>
    refine .invocationError e.message hmatch hserves fun v hv => ?_
    cases houtcome.symm.trans hv
  | panicked text =>
    refine .invocationError _ hmatch hserves fun v hv => ?_
    cases houtcome.symm.trans hv
  | returned v =>
    rw [Request.report, hreturns]
    cases haccepts : r.signature.returns.acceptsReturn v with
    | true => exact .value hmatch hserves houtcome haccepts (.refl [v])
    | false =>
      refine .invocationError _ hmatch hserves fun v' hv' => ?_
      cases houtcome.symm.trans hv'
      exact haccepts

/-- What the client makes of a response that has come back alike is what the call comes to. It never
takes a value for one that the declared return type refuses. -/
theorem result {response : Response} (h : p.Agrees r work response.payload?) {v : Value}
    (hv : Graph.Alike [response.payload] [v]) :
    p.Agrees r work (RemoteMethod.result r .value { response with payload := v }) := by
  unfold RemoteMethod.result RemoteMethod.payload
  unfold Response.payload? at h ⊢
  have hsame : ({ response with payload := v } : Response).isOk = response.isOk := rfl
  rw [hsame]
  cases hok : response.isOk with
  | false =>
    rw [hok, if_neg Bool.false_ne_true] at h
    exact h
  | true =>
    rw [hok, if_pos rfl] at h
    cases h with
    | value isMatch serves returned accepted alike =>
      have halike := alike.trans hv
      have haccepts : r.signature.returns.acceptsReturn v = true :=
        (halike.acceptsReturn_eq _).trans accepted
      have hresult : p.Agrees r _ (.ok v) := .value isMatch serves returned accepted halike
      simp only [if_true, haccepts, bind, Except.bind, pure, Except.pure]
      exact hresult

end Partners.Agrees

end RemoteCall
