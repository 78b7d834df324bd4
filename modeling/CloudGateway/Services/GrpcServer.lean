import CloudGateway.Services.CallData
import CloudGateway.Services.StreamWorld

/-!
# `GrpcServer`

`start` constructs one object of each unary kind and one stream handler, and
`runCQ` casts every tag to `IStreamTag` and calls its virtual `Proceed(bool)`.
The stream handlers and their writers are `IStreamTag`s. A `CallDataBase` is not
one, and its `Proceed()` is not virtual.

`Server.machine` lets clients call the unary methods at any time. gRPC hands a
call only to an object that has registered for its method; until there is one,
the call waits.
-/

namespace CloudGateway.Services

open Proto

/-- A client's call of a unary method. -/
structure UnaryCall where
  rpc : Rpc
  request : rpc.Request

/-- What `cq_->Next` can return. -/
inductive Tag where
  /-- A `CallDataBase*`. -/
  | callData (m : Rpc) (i : Nat)
  /-- A `VehicleStreamHandler*` or `StreamWriter*`, with what has completed. -/
  | stream (h : Nat) (c : Completion)

/-- The objects `start` and their successors construct, and the calls of the clients. -/
structure Server where
  /-- The unary call objects. -/
  calls : (m : Rpc) → Calls m.Request
  /-- The stream handlers. -/
  streams : World
  /-- Unary calls gRPC has not handed to any object. -/
  waiting : List UnaryCall
  /-- A tag has been cast to a type it does not have. -/
  fault : Bool
  /-- History: the unary calls made, in order. -/
  called : List UnaryCall

namespace Server

/-- `GrpcServer::start`, before the completion-queue thread runs. -/
def start : Server :=
  { calls := fun _ => .constructed
    streams := .start
    waiting := []
    fault := false
    called := [] }

/-- The body of the loop of `GrpcServer::runCQ`. -/
def runCQ [JsonText] (s : Server) : Tag → Server
  -- `static_cast<IStreamTag*>` of an object that is none
  | .callData _ _ => { s with fault := true }
  | .stream h c => { s with streams := s.streams.runCQ h c }

/-- What can happen to the server. -/
inductive Action where
  /-- A client makes a unary call. -/
  | call (c : UnaryCall)
  /-- gRPC hands the `j`-th waiting call to the `i`-th object of its kind. -/
  | accept (i j : Nat)
  /-- A unary `Finish` completes. -/
  | finish (m : Rpc) (i : Nat)
  /-- A command is pushed to the stream. -/
  | push (cmd : GatewayCommand)
  /-- An operation of a stream handler completes. -/
  | complete (h : Nat) (c : Completion)

/-- Replace the unary objects of one kind. -/
def setCalls (s : Server) (m : Rpc) (w : Calls m.Request) : Server :=
  { s with calls := Function.update s.calls m w }

/-- One step. -/
def step [JsonText] (s : Server) (a : Action) : Option Server :=
  if s.fault || s.streams.fault then none
  else
    match a with
    | .call c => some { s with waiting := s.waiting ++ [c], called := s.called ++ [c] }
    | .accept i j =>
        (s.waiting[j]?).bind (fun c =>
          ((s.calls c.rpc).take i (·.takeRequest c.request)).map (fun w =>
            ({ s with waiting := s.waiting.eraseIdx j }.setCalls c.rpc w).runCQ
              (.callData c.rpc i)))
    | .finish m i =>
        ((s.calls m).take i Call.takeFinish).map (fun w =>
          (s.setCalls m w).runCQ (.callData m i))
    | .push cmd => some { s with streams := s.streams.pushCommand cmd }
    | .complete h c =>
        (s.streams.take h c).map (fun w => { s with streams := w }.runCQ (.stream h c))

/-- The server, from the moment its completion-queue thread starts. -/
def machine [JsonText] : Reactive.Machine Server Action where
  init := start
  step := step

end Server

end CloudGateway.Services
