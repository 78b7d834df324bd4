import CloudGateway.Services.StreamWorld

/-!
# The stream handlers under two threads

`push_command` runs on the MQTT thread, `Proceed` on the completion-queue thread.
`Threads` splits both at their synchronisation points: `push_command` into its
load of `active_` and its critical section, and an accept into the store of
`active_`, the flush under `pending_mu_` command by command, and the rest. Any
number of `push_command` calls may be between their two steps.

The critical sections of `mu_` are single steps, and so are the other branches of
`Proceed`: besides its own object, each touches only `active_`, once.
-/

namespace CloudGateway.Services

open Proto

/-- A `push_command` call that has loaded `active_`. -/
structure PushCall where
  cmd : GatewayCommand
  /-- `auto* h = active_.load()`. -/
  loaded : Option Nat
deriving DecidableEq, Repr

/-- Where the completion-queue thread is. -/
inductive CqThread where
  /-- In `cq_->Next`. -/
  | next
  /-- In `Proceed` of an accepted handler, after `active_.store(this)`. -/
  | stored (h : Nat)
  /-- In its `flush_pending(this)`, holding `pending_mu_`. -/
  | flushing (h : Nat)
deriving DecidableEq, Repr

/-- The handler whose accept is under way. -/
def CqThread.accepting : CqThread → Option Nat
  | .next => none
  | .stored h | .flushing h => some h

/-- `pending_mu_` is held by `flush_pending`. -/
def CqThread.locked : CqThread → Bool
  | .flushing _ => true
  | _ => false

/-- The handlers, and how far each thread is. -/
structure Threads where
  world : World
  /-- The `push_command` calls in progress. -/
  pushing : List PushCall
  cq : CqThread
deriving DecidableEq, Repr

/-- `Proceed(ok)` takes the branch that accepts a connection. -/
def World.accepts (w : World) (h : Nat) : Completion → Bool
  | .write _ _ => false
  | c => c.ok && (w.handler h).any (fun s => decide (s.state = .accepting))

namespace Threads

/-- No `push_command` and no `Proceed` is in progress. -/
def atRest (w : World) : Threads := { world := w, pushing := [], cq := .next }

/-- `auto* h = active_.load()`. -/
def load (t : Threads) (cmd : GatewayCommand) : Threads :=
  { t with
    world := { t.world with pushed := t.world.pushed ++ [cmd] }
    pushing := t.pushing ++ [{ cmd := cmd, loaded := t.world.active }] }

/-- A completion: an accept stops after `active_.store(this)`, everything else runs through. -/
def dispatch [JsonText] (t : Threads) (w : World) (h : Nat) (c : Completion) : Threads :=
  if w.accepts h c then { t with world := w.acceptStore h, cq := .stored h }
  else { t with world := w.runCQ h c }

/-- The atomic steps of the two threads. -/
inductive Action where
  /-- `push_command(cmd)` loads `active_`. -/
  | load (cmd : GatewayCommand)
  /-- The `i`-th call in progress has loaded null: its section under `pending_mu_`. -/
  | append (i : Nat)
  /-- The `i`-th call in progress has loaded `h`: `h->enqueue(cmd)`. -/
  | enqueue (i : Nat)
  /-- `cq_->Next` returns a completion. -/
  | complete (h : Nat) (c : Completion)
  /-- `flush_pending` takes `pending_mu_`. -/
  | lock
  /-- `h->enqueue(pending_commands_.front()); pending_commands_.pop()`. -/
  | flushOne
  /-- `flush_pending` returns, and the accept ends. -/
  | unlock
deriving DecidableEq, Repr

/-- One atomic step. -/
def step [JsonText] (t : Threads) (a : Action) : Option Threads :=
  if t.world.fault then none
  else
    match a with
    | .load cmd => some (t.load cmd)
    -- waits for `pending_mu_`
    | .append i =>
        (t.pushing[i]?).bind (fun p =>
          if p.loaded = none ∧ t.cq.locked = false then
            some { t with world := t.world.pushPending p.cmd, pushing := t.pushing.eraseIdx i }
          else none)
    | .enqueue i =>
        (t.pushing[i]?).bind (fun p => p.loaded.map (fun h =>
          { t with world := t.world.enqueue h p.cmd, pushing := t.pushing.eraseIdx i }))
    -- `Next` is called again only when `Proceed` has returned
    | .complete h c =>
        if t.cq = .next then (t.world.take h c).map (fun w => t.dispatch w h c) else none
    | .lock =>
        match t.cq with
        | .stored h => some { t with cq := .flushing h }
        | _ => none
    | .flushOne =>
        match t.cq, t.world.pendingCommands with
        | .flushing h, cmd :: rest =>
            some { t with world := { t.world.enqueue h cmd with pendingCommands := rest } }
        | _, _ => none
    | .unlock =>
        match t.cq, t.world.pendingCommands with
        | .flushing h, [] =>
            some { t with world := t.world.modify h (·.startReading), cq := .next }
        | _, _ => none

/-- The two threads as a machine: atomic steps in any order. -/
def machine [JsonText] : Reactive.Machine Threads Action where
  init := atRest .start
  step := step

end Threads

end CloudGateway.Services
