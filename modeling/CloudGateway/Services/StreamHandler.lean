import CloudGateway.Infra.Constants
import CloudGateway.Lib.Machine
import CloudGateway.Proto.VehicleGateway

/-!
# `VehicleStreamHandler`, one stream at a time

A handler drives one `VehicleCommandStream` call. It hands operations to gRPC
under two tags: itself, for the registration of the call and for `Read` and
`Finish`, and its `StreamWriter`, for `Write`. Each operation comes back as
exactly one completion, and completions under different tags come back in any
order.

`VehicleStreamHandler` holds the members of the C++ object. `Connection` puts
the object next to the gRPC side of its stream: what is outstanding under each
tag, and the history of calls, completions and `publish_` invocations. The gRPC
side outlives the object, so a completion may find the object gone.

What the handlers share (`active_`, `pending_commands_`, the completion-queue
loop) is in `StreamWorld`.
-/

namespace CloudGateway.Services

open Proto Constants

/-- `VehicleStreamHandler::State`. -/
inductive StreamState where
  | create
  | accepting
  | reading
  | finish
deriving DecidableEq, Repr

/-- The members of a handler that change. -/
structure VehicleStreamHandler where
  state : StreamState
  writeQueue : List GatewayCommand
  writing : Bool
  incoming : VehicleEvent
deriving DecidableEq, Repr

namespace VehicleStreamHandler

/-- The constructor's initialisers. -/
def new : VehicleStreamHandler :=
  { state := .create, writeQueue := [], writing := false, incoming := .notSet }

/-- `flush_write_queue_locked`, with the command it hands to `stream_.Write`, if any. -/
def flushWriteQueueLocked (s : VehicleStreamHandler) :
    VehicleStreamHandler × Option GatewayCommand :=
  match s.writeQueue with
  | [] => (s, none)
  | cmd :: rest =>
      if s.writing then (s, none)
      else ({ s with writing := true, writeQueue := rest }, some cmd)

/-- `enqueue`. -/
def enqueue (s : VehicleStreamHandler) (cmd : GatewayCommand) :
    VehicleStreamHandler × Option GatewayCommand :=
  let s := { s with writeQueue := s.writeQueue ++ [cmd] }
  if !s.writing then s.flushWriteQueueLocked else (s, none)

/-- `on_write_done`. A failed write stops the writer and flushes nothing. -/
def onWriteDone (s : VehicleStreamHandler) (ok : Bool) :
    VehicleStreamHandler × Option GatewayCommand :=
  if !ok then ({ s with writing := false }, none)
  else flushWriteQueueLocked { s with writing := false }

/-- `handle_incoming`: the topic and payload it passes to `publish_`, if it calls it. -/
def handleIncoming [JsonText] (ev : VehicleEvent) : Option (String × String) :=
  match ev with
  | .eta r =>
      some (kTopicTripEta, JsonText.dump (.object [
        ("vinNumber", .str r.vinNumber),
        ("requestId", .int r.requestId),
        ("estimatedFare", .float r.fare),
        ("estimatedTime", .float r.time),
        ("status", .str r.status)]))
  | .status r =>
      some (kTopicTripStatus, JsonText.dump (.object [
        ("vinNumber", .str r.vinNumber),
        ("tripId", .int r.tripId),
        ("tripStatus", .str r.status)]))
  | .arrive r =>
      some (kTopicTripArrive, JsonText.dump (.object [
        ("vinNumber", .str r.vinNumber),
        ("tripId", .int r.tripId),
        ("longitude", .float r.long_),
        ("latitude", .float r.lat)]))
  | .location r =>
      some (kTopicUpdateLocation, JsonText.dump (.object [
        ("vinNumber", .str r.vinNumber),
        ("latitude", .float r.latitude),
        ("longitude", .float r.longitude)]))
  -- acknowledgements are logged; `trip_move_ack` and an unset event match no branch
  | .tripInitAck _ | .tripParkAck _ | .orderUpdateLocationAck _ | .orderUpdateStatusAck _
  | .tripCancelAck _ | .tripMoveAck _ | .notSet => none

end VehicleStreamHandler

/-! ## A handler and its stream -/

/-- Operations under the handler's own tag. -/
inductive OwnOp where
  /-- `svc_->RequestVehicleCommandStream(&ctx_, &stream_, cq_, cq_, this)`. -/
  | request
  /-- `stream_.Read(&incoming_, this)`. -/
  | read
  /-- `stream_.Finish(grpc::Status::OK, this)`. -/
  | finish
deriving DecidableEq, Repr

/-- Everything a handler hands to gRPC. -/
inductive StreamOp where
  | own (op : OwnOp)
  /-- `stream_.Write(cmd, &writer_)`. -/
  | write (cmd : GatewayCommand)
deriving DecidableEq, Repr

/-- A completion, as `cq_->Next` returns it. A `Read` completes with an event or, `ok = false`, with none. -/
inductive Completion where
  | request (ok : Bool)
  | read (ev : Option VehicleEvent)
  | finish (ok : Bool)
  | write (cmd : GatewayCommand) (ok : Bool)
deriving DecidableEq, Repr

/-- The `ok` flag `cq_->Next` stores. -/
def Completion.ok : Completion → Bool
  | .request ok => ok
  | .read ev => ev.isSome
  | .finish ok => ok
  | .write _ ok => ok

/-- A handler object and the gRPC side of its stream. -/
structure Connection where
  /-- The object, `none` once it has deleted itself. -/
  handler : Option VehicleStreamHandler
  /-- Outstanding under the handler's own tag. -/
  ownOps : List OwnOp
  /-- Commands carried by the `Write`s outstanding under the writer's tag. -/
  writes : List GatewayCommand
  /-- History: everything handed to gRPC, in order. -/
  calls : List StreamOp
  /-- History: the completions delivered, in order. -/
  completions : List Completion
  /-- History: the arguments of the `publish_` calls, in order. -/
  published : List (String × String)
deriving DecidableEq, Repr

namespace Connection

/-- Hand an operation of the handler's own tag to gRPC. -/
def issueOwn (k : Connection) (op : OwnOp) : Connection :=
  { k with ownOps := k.ownOps ++ [op], calls := k.calls ++ [.own op] }

/-- Hand a command to `stream_.Write`, where there is one. -/
def issueWrite (k : Connection) : Option GatewayCommand → Connection
  | none => k
  | some cmd => { k with writes := k.writes ++ [cmd], calls := k.calls ++ [.write cmd] }

/-- Assign `state_`. -/
def setState (k : Connection) (st : StreamState) : Connection :=
  { k with handler := k.handler.map (fun s => { s with state := st }) }

/-- `delete this`. -/
def free (k : Connection) : Connection := { k with handler := none }

/-- Run a method that may start a `Write`. -/
def writeWith (k : Connection)
    (f : VehicleStreamHandler → VehicleStreamHandler × Option GatewayCommand) : Connection :=
  match k.handler with
  | none => k
  | some s => issueWrite { k with handler := some (f s).1 } (f s).2

/-- `h->enqueue(cmd)`. -/
def enqueue (k : Connection) (cmd : GatewayCommand) : Connection :=
  k.writeWith (fun s => s.enqueue cmd)

/-- `owner_->on_write_done(ok)`. -/
def onWriteDone (k : Connection) (ok : Bool) : Connection :=
  k.writeWith (fun s => s.onWriteDone ok)

/-- `Proceed` in `CREATE`. -/
def register (k : Connection) : Connection := (k.setState .accepting).issueOwn .request

/-- The end of `Proceed` in `ACCEPTING`: `state_ = READING; stream_.Read(&incoming_, this)`. -/
def startReading (k : Connection) : Connection := (k.setState .reading).issueOwn .read

/-- `Proceed` in `READING` after a successful `Read`: handle the event and read on. -/
def readNext [JsonText] (k : Connection) : Connection :=
  match k.handler with
  | none => k
  | some s =>
      { k with published := k.published ++
          (VehicleStreamHandler.handleIncoming s.incoming).toList }.issueOwn .read

/-- `Proceed` in `READING` after a failed `Read`, `active_` aside. -/
def startFinish (k : Connection) : Connection := (k.setState .finish).issueOwn .finish

/-- `new VehicleStreamHandler(svc_, cq_, publish_)`, whose constructor calls `Proceed(true)`. -/
def construct : Connection :=
  register { handler := some .new, ownOps := [], writes := [], calls := [], completions := [],
             published := [] }

/--
gRPC completes an outstanding operation. A `Read` that brings an event has
written it into `incoming_` by then.
-/
def take (k : Connection) (c : Completion) : Option Connection :=
  match c with
  | .request _ =>
      if .request ∈ k.ownOps then
        some { k with ownOps := k.ownOps.erase .request, completions := k.completions ++ [c] }
      else none
  | .read ev =>
      if .read ∈ k.ownOps then
        some { k with
          ownOps := k.ownOps.erase .read
          completions := k.completions ++ [c]
          handler := k.handler.map (fun s => { s with incoming := ev.getD s.incoming }) }
      else none
  | .finish _ =>
      if .finish ∈ k.ownOps then
        some { k with ownOps := k.ownOps.erase .finish, completions := k.completions ++ [c] }
      else none
  | .write cmd _ =>
      if cmd ∈ k.writes then
        some { k with writes := k.writes.erase cmd, completions := k.completions ++ [c] }
      else none

/-! ## One connection as a machine -/

/-- What `Proceed` does to its own connection; `flushed` is what `flush_pending` finds. -/
def proceed [JsonText] (k : Connection) (flushed : List GatewayCommand) (ok : Bool) : Connection :=
  match k.handler with
  | none => k
  | some s =>
      match s.state with
      | .create => k.register
      | .accepting => if !ok then k.free else (flushed.foldl enqueue k).startReading
      | .reading => if !ok then k.startFinish else k.readNext
      | .finish => k.free

/-- What the tag of a completion does to its own connection. -/
def dispatch [JsonText] (k : Connection) (flushed : List GatewayCommand) (c : Completion) :
    Connection :=
  match c with
  | .write _ ok => k.onWriteDone ok
  | .request ok => k.proceed flushed ok
  | .read ev => k.proceed flushed ev.isSome
  | .finish ok => k.proceed flushed ok

/-- What can happen to one connection: a command is enqueued, or an operation completes. -/
inductive Action where
  | enqueue (cmd : GatewayCommand)
  | complete (c : Completion) (flushed : List GatewayCommand)
deriving DecidableEq, Repr

/-- One step of a connection. Only a handler that still exists can be enqueued to. -/
def step [JsonText] (k : Connection) (a : Action) : Option Connection :=
  match a with
  | .enqueue cmd => if k.handler.isSome then some (k.enqueue cmd) else none
  | .complete c flushed => (k.take c).map (fun k' => k'.dispatch flushed c)

/-- A connection on its own: `enqueue` calls and completions in any order. -/
def machine [JsonText] : Reactive.Machine Connection Action where
  init := construct
  step := step

end Connection

end CloudGateway.Services
