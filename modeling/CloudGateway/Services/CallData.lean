import CloudGateway.Infra.Constants
import CloudGateway.Lib.Machine
import CloudGateway.Proto.VehicleGateway

/-!
# Unary calls

A `CallDataBase` object serves one unary call. Its `Proceed` registers it, takes
the call and spawns the handler of the next one, and deletes it, in that order.
The six subclasses differ in the method they register for, their topic and their
payload.

`Call` puts an object next to what it has outstanding: operations of gRPC under
its tag, and callbacks given to `publish_`. `Calls` holds all objects of one
kind, by address. `Calls.machine` begins with one `Proceed` on a fresh object
and delivers every completion as `Proceed` to the object that owns it.
-/

namespace CloudGateway.Services

open Proto Constants

/-! ## The six kinds -/

/-- The methods in which the subclasses of `CallDataBase` differ. -/
structure CallDataBase (ρ : Type) where
  mqttTopic : String
  buildPayload : ρ → String

section Kinds

variable [JsonText]

def etaCallData : CallDataBase EtaRequest where
  mqttTopic := kTopicTripEta
  buildPayload r := JsonText.dump (.object [
    ("vin_number", .str r.vinNumber),
    ("request_id", .int r.requestId),
    ("estimated_fare", .float r.fare),
    ("estimated_time", .float r.time)])

def statusCallData : CallDataBase StatusRequest where
  mqttTopic := kTopicTripStatus
  buildPayload r := JsonText.dump (.object [
    ("vinNumber", .str r.vinNumber),
    ("trip_id", .int r.tripId),
    ("status", .str r.status)])

def arriveCallData : CallDataBase ArriveRequest where
  mqttTopic := kTopicTripArrive
  buildPayload r := JsonText.dump (.object [
    ("vinNumber", .str r.vinNumber),
    ("tripId", .int r.tripId),
    ("longitude", .float r.long_),
    ("latitude", .float r.lat)])

def updateLocationCallData : CallDataBase UpdateVehicleLocationRequest where
  mqttTopic := kTopicUpdateLocation
  buildPayload r := JsonText.dump (.object [
    ("vinNumber", .str r.vinNumber),
    ("longitude", .float r.longitude),
    ("latitude", .float r.latitude)])

def tripInitCallData : CallDataBase TripInitRequest where
  mqttTopic := kTopicTripInit
  buildPayload r := JsonText.dump (.object [
    ("vinNumber", .str r.vinNumber),
    ("requestId", .int r.requestId),
    ("startLong", .float r.startLong),
    ("startLat", .float r.startLat),
    ("endLong", .float r.endLong),
    ("endLat", .float r.endLat)])

def tripMoveCallData : CallDataBase TripMoveRequest where
  mqttTopic := kTopicTripMove
  buildPayload r := JsonText.dump (.object [
    ("vinNumber", .str r.vinNumber),
    ("tripId", .int r.tripId),
    ("longitude", .float r.longitude),
    ("latitude", .float r.latitude)])

end Kinds

/-- The unary methods of the service; `register_rpc` of each subclass asks for its own. -/
inductive Rpc where
  | sendEta
  | sendStatus
  | sendArrive
  | updateVehicleLocation
  | tripInit
  | tripMove
deriving DecidableEq, Repr

/-- The type of `request_`. -/
abbrev Rpc.Request : Rpc → Type
  | .sendEta => EtaRequest
  | .sendStatus => StatusRequest
  | .sendArrive => ArriveRequest
  | .updateVehicleLocation => UpdateVehicleLocationRequest
  | .tripInit => TripInitRequest
  | .tripMove => TripMoveRequest

instance : (m : Rpc) → Inhabited m.Request
  | .sendEta => inferInstanceAs (Inhabited EtaRequest)
  | .sendStatus => inferInstanceAs (Inhabited StatusRequest)
  | .sendArrive => inferInstanceAs (Inhabited ArriveRequest)
  | .updateVehicleLocation => inferInstanceAs (Inhabited UpdateVehicleLocationRequest)
  | .tripInit => inferInstanceAs (Inhabited TripInitRequest)
  | .tripMove => inferInstanceAs (Inhabited TripMoveRequest)

/-- The subclass that serves a method. -/
def Rpc.callData [JsonText] : (m : Rpc) → CallDataBase m.Request
  | .sendEta => etaCallData
  | .sendStatus => statusCallData
  | .sendArrive => arriveCallData
  | .updateVehicleLocation => updateLocationCallData
  | .tripInit => tripInitCallData
  | .tripMove => tripMoveCallData

/-! ## One call -/

/-- `CallDataBase::State`. -/
inductive CallState where
  | create
  | process
  | finish
deriving DecidableEq, Repr

/-- `grpc::Status`, as far as `finish_rpc` goes. -/
inductive Status where
  | ok
  | internal (message : String)
deriving DecidableEq, Repr

/-- The members of a call object that change. -/
structure CallData (ρ : Type) where
  state : CallState
  request : ρ
  response : Response
deriving DecidableEq, Repr

namespace CallData

variable {ρ : Type}

/-- The constructor. It does not call `Proceed`. -/
def new [Inhabited ρ] : CallData ρ := { state := .create, request := default, response := default }

/-- `set_response`. -/
def setResponse (d : CallData ρ) (ok : Bool) (msg : String) : CallData ρ :=
  { d with response := { success := ok, message := msg } }

/-- The status `finish_rpc(ok)` passes to `responder_.Finish`. -/
def finishRpc (d : CallData ρ) (ok : Bool) : Status :=
  if ok then .ok else .internal d.response.message

end CallData

/-- What gRPC completes for a call object, under its one tag. -/
inductive CallOp where
  /-- `register_rpc`. -/
  | request
  /-- `responder_.Finish`. -/
  | finish
deriving DecidableEq, Repr

/-- A call object, what it has outstanding, and its history. -/
structure Call (ρ : Type) where
  /-- The object, `none` once it has deleted itself. -/
  handler : Option (CallData ρ)
  /-- Outstanding operations under its tag. -/
  ops : List CallOp
  /-- Callbacks given to `publish_` and not yet invoked. -/
  callbacks : Nat
  /-- History: the requests gRPC has delivered to it. -/
  accepted : List ρ
  /-- History: the topics and payloads passed to `publish_`. -/
  published : List (String × String)
  /-- History: what the callbacks were invoked with. -/
  reported : List (Bool × String)
  /-- History: the arguments of `responder_.Finish`. -/
  finished : List (Response × Status)
  /-- History: the completions delivered. -/
  completions : List CallOp
  /-- History: how often `delete this` has run. -/
  deletes : Nat
deriving DecidableEq, Repr

namespace Call

variable {ρ : Type}

/-- `new XCallData(svc_, cq_, publish_)`. -/
def construct [Inhabited ρ] : Call ρ :=
  { handler := some .new, ops := [], callbacks := 0, accepted := [], published := [],
    reported := [], finished := [], completions := [], deletes := 0 }

/-- `Proceed` in `CREATE`: `state_ = State::PROCESS; register_rpc();`. -/
def register (k : Call ρ) : Call ρ :=
  { k with
    handler := k.handler.map (fun d => { d with state := .process })
    ops := k.ops ++ [.request] }

/-- `Proceed` in `PROCESS`, from `mqtt_topic()` to the call of `publish_`. -/
def process (base : CallDataBase ρ) (k : Call ρ) : Call ρ :=
  match k.handler with
  | none => k
  | some d =>
      { k with
        handler := some { d with state := .finish }
        published := k.published ++ [(base.mqttTopic, base.buildPayload d.request)]
        callbacks := k.callbacks + 1 }

/-- The callback `Proceed` gives to `publish_`: `set_response`, then `finish_rpc`. -/
def callback (k : Call ρ) (ok : Bool) (err : String) : Call ρ :=
  match k.handler with
  | none => k
  | some d =>
      let d := if ok then d.setResponse true "ok"
        else d.setResponse false ("mqtt publish failed: " ++ err)
      { k with
        handler := some d
        callbacks := k.callbacks - 1
        reported := k.reported ++ [(ok, err)]
        finished := k.finished ++ [(d.response, d.finishRpc ok)]
        ops := k.ops ++ [.finish] }

/-- `delete this`. -/
def free (k : Call ρ) : Call ρ := { k with handler := none, deletes := k.deletes + 1 }

/-- gRPC delivers a call: the request is in `request_` when the tag comes back. -/
def takeRequest (k : Call ρ) (r : ρ) : Option (Call ρ) :=
  if .request ∈ k.ops then
    some { k with
      ops := k.ops.erase .request
      completions := k.completions ++ [.request]
      accepted := k.accepted ++ [r]
      handler := k.handler.map (fun d => { d with request := r }) }
  else none

/-- gRPC completes a `Finish`. -/
def takeFinish (k : Call ρ) : Option (Call ρ) :=
  if .finish ∈ k.ops then
    some { k with ops := k.ops.erase .finish, completions := k.completions ++ [.finish] }
  else none

end Call

/-! ## All calls of one kind -/

/-- The call objects of one kind, by address. -/
structure Calls (ρ : Type) where
  calls : List (Call ρ)
  /-- A deleted object has been used. -/
  fault : Bool
deriving DecidableEq, Repr

namespace Calls

variable {ρ : Type}

/-- One fresh object, on which `Proceed` has not been called. -/
def constructed [Inhabited ρ] : Calls ρ := { calls := [.construct], fault := false }

/-- The object at an address, unless it is gone. -/
def handler (w : Calls ρ) (i : Nat) : Option (CallData ρ) := (w.calls[i]?).bind Call.handler

/-- Act on the object at one address. -/
def modify (w : Calls ρ) (i : Nat) (f : Call ρ → Call ρ) : Calls ρ :=
  { w with calls := w.calls.modify i f }

/-- Undefined behaviour. -/
def crash (w : Calls ρ) : Calls ρ := { w with fault := true }

/-- `publish_` invokes the callback, which has captured `this`. -/
def callback (w : Calls ρ) (i : Nat) (ok : Bool) (err : String) : Calls ρ :=
  match w.handler i with
  | none => w.crash
  | some _ => w.modify i (·.callback ok err)

/-- `clone()->Proceed()`. -/
def spawn [Inhabited ρ] (w : Calls ρ) : Calls ρ :=
  { w with calls := w.calls ++ [Call.construct.register] }

/-- `CallDataBase::Proceed`. `inside` is what the callback gets, where `publish_` invokes it itself. -/
def proceed [Inhabited ρ] (base : CallDataBase ρ) (w : Calls ρ) (i : Nat)
    (inside : Option (Bool × String)) : Calls ρ :=
  match w.handler i with
  | none => w.crash
  | some d =>
      match d.state with
      | .create => w.modify i (·.register)
      | .process =>
          -- the handler of the next call is registered before this call is published
          let w := w.spawn.modify i (·.process base)
          match inside with
          | none => w
          | some (ok, err) => w.callback i ok err
      | .finish => w.modify i (·.free)

/-- What can happen to the calls of one kind. -/
inductive Action (ρ : Type) where
  /-- A call arrives at a registered object; `publish_` may invoke its callback at once. -/
  | accept (i : Nat) (r : ρ) (inside : Option (Bool × String))
  /-- `publish_` invokes a callback later. -/
  | callback (i : Nat) (ok : Bool) (err : String)
  /-- A `Finish` completes. -/
  | finish (i : Nat)
deriving DecidableEq, Repr

/-- Replace the call at an address by what gRPC makes of it, if that is possible. -/
def take (w : Calls ρ) (i : Nat) (f : Call ρ → Option (Call ρ)) : Option (Calls ρ) :=
  (w.calls[i]?).bind (fun k => (f k).map (fun k' => { w with calls := w.calls.set i k' }))

/-- One step. A callback can be invoked once for each `publish_`. -/
def step [Inhabited ρ] (base : CallDataBase ρ) (w : Calls ρ) (a : Action ρ) : Option (Calls ρ) :=
  if w.fault then none
  else
    match a with
    | .accept i r inside => (w.take i (·.takeRequest r)).map (fun w' => w'.proceed base i inside)
    | .callback i ok err =>
        (w.calls[i]?).bind (fun k => if 0 < k.callbacks then some (w.callback i ok err) else none)
    | .finish i => (w.take i Call.takeFinish).map (fun w' => w'.proceed base i none)

/-- The calls of one kind, begun by one `Proceed` on a fresh object. -/
def machine [Inhabited ρ] (base : CallDataBase ρ) : Reactive.Machine (Calls ρ) (Action ρ) where
  init := constructed.proceed base 0 none
  step := step base

end Calls

end CloudGateway.Services
