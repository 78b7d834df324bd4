import CloudGateway.Services.CallData
import Mathlib.Algebra.GroupWithZero.Nat

/-!
# Unary calls while the server shuts down

Once the server or its completion queue shuts down, a registration completes with
`ok = false`: no call has arrived, and `request_` is as it was. `Proceed` of a
`CallDataBase` is not told.

`CallQueue.machine` is `Calls.machine` with such completions added, at any point
of a run and any number of times.
-/

namespace CloudGateway.Services

variable {ρ : Type}

/-- gRPC gives a registration back without a call. -/
def Call.takeRefusal (k : Call ρ) : Option (Call ρ) :=
  if .request ∈ k.ops then
    some { k with ops := k.ops.erase .request, completions := k.completions ++ [.request] }
  else none

namespace Calls

/-- How often `publish_` has been invoked. -/
def publishes (w : Calls ρ) : Nat := (w.calls.map (·.published.length)).sum

/-- How many registrations have completed with `ok = true`. -/
def arrivals (w : Calls ρ) : Nat := (w.calls.map (·.accepted.length)).sum

end Calls

/-- What `Proceed` has done about a registration that completed with `ok = false`. -/
structure Refusal where
  /-- Invocations of `publish_`. -/
  published : Nat
  /-- Handlers constructed and registered on the queue. -/
  registered : Nat
  /-- The handler has deleted itself. -/
  freed : Bool
deriving DecidableEq, Repr

/-- The calls of one kind. -/
structure CallQueue (ρ : Type) where
  calls : Calls ρ
  /-- History: the registrations that completed with `ok = false`, in order. -/
  refusals : List Refusal
deriving DecidableEq, Repr

namespace CallQueue

/-- What can happen to the calls of one kind. -/
inductive Action (ρ : Type) where
  /-- Anything that happens while the server runs. -/
  | call (a : Calls.Action ρ)
  /-- A registration completes with `ok = false`; `publish_` may invoke its callback at once. -/
  | refuse (i : Nat) (inside : Option (Bool × String))
deriving DecidableEq, Repr

/-- `Proceed` on a handler whose registration has completed with `ok = false`. -/
def proceedRefused [Inhabited ρ] (base : CallDataBase ρ) (q : CallQueue ρ) (w : Calls ρ) (i : Nat)
    (inside : Option (Bool × String)) : CallQueue ρ :=
  let w' := w.proceed base i inside
  { calls := w'
    refusals := q.refusals ++ [{
      published := w'.publishes - w.publishes
      registered := w'.calls.length - w.calls.length
      freed := (w'.handler i).isNone }] }

/-- One step. -/
def step [Inhabited ρ] (base : CallDataBase ρ) (q : CallQueue ρ) (a : Action ρ) :
    Option (CallQueue ρ) :=
  match a with
  | .call a => (Calls.step base q.calls a).map (fun w => { q with calls := w })
  | .refuse i inside =>
      if q.calls.fault then none
      else (q.calls.take i Call.takeRefusal).map (fun w => q.proceedRefused base w i inside)

/-- The calls of one kind, begun as in `Calls.machine`. -/
def machine [Inhabited ρ] (base : CallDataBase ρ) : Reactive.Machine (CallQueue ρ) (Action ρ) where
  init := { calls := (Calls.machine base).init, refusals := [] }
  step := step base

end CallQueue

end CloudGateway.Services
