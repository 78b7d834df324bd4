import CloudGateway.Lib.Machine
import CloudGateway.Services.StreamHandler

/-!
# The stream handlers together

`World` holds every handler ever constructed, by address, with the two globals
the handlers share: `active_`, the handler commands go to, and
`pending_commands_`, where they wait while there is none. Addresses are never
reused, so a dangling pointer stays recognisable.

`World.machine` takes `push_command` and each iteration of the completion-queue
loop as one step. Using a deleted handler is undefined behaviour: it sets
`fault`, and no step follows.
-/

namespace CloudGateway.Services

open Proto

/-- All handlers, and what they share. -/
structure World where
  /-- The handlers ever constructed; the position is the address. -/
  conns : List Connection
  /-- `active_`. -/
  active : Option Nat
  /-- `pending_commands_`. -/
  pendingCommands : List GatewayCommand
  /-- A deleted handler has been used. -/
  fault : Bool
  /-- History: the arguments of `push_command`, in order. -/
  pushed : List GatewayCommand
  /-- History: the handlers that stored themselves into `active_`, in order. -/
  accepted : List Nat
deriving DecidableEq, Repr

namespace World

/-- After `GrpcServer::start` has constructed its one handler. -/
def start : World :=
  { conns := [.construct], active := none, pendingCommands := [], fault := false, pushed := [],
    accepted := [] }

/-- The object at an address, unless it is gone. -/
def handler (w : World) (h : Nat) : Option VehicleStreamHandler :=
  (w.conns[h]?).bind Connection.handler

/-- Act on the handler at one address. -/
def modify (w : World) (h : Nat) (f : Connection → Connection) : World :=
  { w with conns := w.conns.modify h f }

/-- Undefined behaviour. -/
def crash (w : World) : World := { w with fault := true }

/-- `h->enqueue(cmd)`. -/
def enqueue (w : World) (h : Nat) (cmd : GatewayCommand) : World :=
  match w.handler h with
  | none => w.crash
  | some _ => w.modify h (·.enqueue cmd)

/-- `pending_commands_.push(cmd)`. -/
def pushPending (w : World) (cmd : GatewayCommand) : World :=
  { w with pendingCommands := w.pendingCommands ++ [cmd] }

/-- `push_command`. -/
def pushCommand (w : World) (cmd : GatewayCommand) : World :=
  let w := { w with pushed := w.pushed ++ [cmd] }
  match w.active with
  | none => w.pushPending cmd
  | some h => w.enqueue h cmd

/-- The loop of `flush_pending`, over the commands still in `pending_commands_`. -/
def drainTo (h : Nat) : List GatewayCommand → World → World
  | [], w => w
  | cmd :: rest, w => drainTo h rest { w.enqueue h cmd with pendingCommands := rest }

/-- `flush_pending`. -/
def flushPending (w : World) (h : Nat) : World := drainTo h w.pendingCommands w

/-- `Proceed` in `ACCEPTING` up to `active_.store(this)`: the sibling is constructed first. -/
def acceptStore (w : World) (h : Nat) : World :=
  { w with conns := w.conns ++ [.construct], active := some h, accepted := w.accepted ++ [h] }

/-- `exp = this; active_.compare_exchange_strong(exp, nullptr)`. -/
def clearActive (w : World) (h : Nat) : World :=
  { w with active := if w.active = some h then none else w.active }

/-- `VehicleStreamHandler::Proceed`. -/
def proceed [JsonText] (w : World) (h : Nat) (ok : Bool) : World :=
  match w.handler h with
  | none => w.crash
  | some s =>
      match s.state with
      | .create => w.modify h (·.register)
      | .accepting =>
          -- the handler is published before the pending commands reach it
          if !ok then w.modify h (·.free)
          else ((w.acceptStore h).flushPending h).modify h (·.startReading)
      | .reading =>
          if !ok then (w.clearActive h).modify h (·.startFinish)
          else w.modify h (·.readNext)
      -- neither `write_queue_` nor `writing_` is looked at
      | .finish => (w.clearActive h).modify h (·.free)

/-- `StreamWriter::Proceed`. -/
def writerProceed (w : World) (h : Nat) (ok : Bool) : World :=
  match w.handler h with
  | none => w.crash
  | some _ => w.modify h (·.onWriteDone ok)

/-- One iteration of `GrpcServer::runCQ`, for a tag of handler `h`. -/
def runCQ [JsonText] (w : World) (h : Nat) (c : Completion) : World :=
  match c with
  | .write _ ok => w.writerProceed h ok
  | .request ok => w.proceed h ok
  | .read ev => w.proceed h ev.isSome
  | .finish ok => w.proceed h ok

/-- gRPC completes an operation of handler `h`: the world in which `Next` returns it. -/
def take (w : World) (h : Nat) (c : Completion) : Option World :=
  (w.conns[h]?).bind (fun k => (k.take c).map (fun k' => { w with conns := w.conns.set h k' }))

/-- What can happen: a command is pushed, or an outstanding operation completes. -/
inductive Action where
  | push (cmd : GatewayCommand)
  | complete (h : Nat) (c : Completion)
deriving DecidableEq, Repr

/-- One whole step. -/
def step [JsonText] (w : World) (a : Action) : Option World :=
  if w.fault then none
  else
    match a with
    | .push cmd => some (w.pushCommand cmd)
    | .complete h c => (w.take h c).map (fun w' => w'.runCQ h c)

/-- The handlers as a machine: pushes and completions in any order. -/
def machine [JsonText] : Reactive.Machine World Action where
  init := start
  step := step

end World

end CloudGateway.Services
