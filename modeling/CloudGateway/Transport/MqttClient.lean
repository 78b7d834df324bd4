import CloudGateway.Json
import CloudGateway.Lib.Machine

/-!
# `MqttClient`

`start` creates an `io_context` and a client on it, and `stop` destroys both; a
`Session` is what lives between the two. Work is posted to the `io_context` and
runs in the order in which it was posted, and the broker is told of a topic by a
`do_subscribe` in the session. `pending_topics_` outlives the sessions.

`MqttClient.machine` takes each call of `subscribe`, `start` and `stop`, each item
of posted work and each completed receive as one step. What the thread of the
`io_context` still does while `stop` waits for it, it does before the step.
-/

namespace CloudGateway.Transport

/-- A call `subscribe(topic)`. The code keeps the topic; which call it was is history. -/
structure Subscription where
  call : Nat
  topic : Bytes
deriving DecidableEq, Repr

/-- What is posted to the `io_context`. -/
inductive Work where
  /-- Posted by `start`: `do_subscribe` for every pending topic. -/
  | flush
  /-- Posted by `subscribe`. -/
  | doSubscribe (x : Subscription)
deriving DecidableEq, Repr

/-- `ioc_` and `client_`. -/
structure Session where
  /-- Work posted and not yet run, oldest first. -/
  posted : List Work
  /-- An `async_receive` is outstanding. -/
  receiving : Bool
  /-- History: the calls of `do_subscribe` in this session, in order. -/
  issued : List Subscription
  /-- History: how many `subscribe` calls there had been when the session began. -/
  since : Nat
deriving DecidableEq, Repr

/-- What `async_publish` is given. It is sent at most once, and the broker retains it. -/
structure Publication where
  topic : Bytes
  payload : Bytes
deriving DecidableEq, Repr

/-- The members of the client that change. -/
structure MqttClient where
  started : Bool
  stopped : Bool
  pendingTopics : List Subscription
  /-- `ioc_` and `client_`, which are set and reset together. -/
  session : Option Session
  /-- History: the calls of `subscribe`, in order. -/
  subscriptions : List Subscription
  /-- History: what each session that has ended had issued. -/
  ended : List (List Subscription)
deriving DecidableEq, Repr

namespace MqttClient

/-- The constructor. -/
def new : MqttClient :=
  { started := false, stopped := false, pendingTopics := [], session := none
    subscriptions := [], ended := [] }

/-- Act on the running session. -/
def modify (c : MqttClient) (f : Session → Session) : MqttClient :=
  { c with session := c.session.map f }

/-- `boost::asio::post(*ioc_, …)`. -/
def post (c : MqttClient) (w : Work) : MqttClient :=
  c.modify (fun s => { s with posted := s.posted ++ [w] })

/-- `do_subscribe`. -/
def doSubscribe (c : MqttClient) (x : Subscription) : MqttClient :=
  c.modify (fun s => { s with issued := s.issued ++ [x] })

/-- The loop over `pending_topics_`, and `pending_topics_.clear()`. -/
def flush (c : MqttClient) : MqttClient :=
  { c.pendingTopics.foldl doSubscribe c with pendingTopics := [] }

/-- `arm_receive`. -/
def armReceive (c : MqttClient) : MqttClient := c.modify (fun s => { s with receiving := true })

/-- `start`. -/
def start (c : MqttClient) : MqttClient :=
  if c.started then c
  else
    -- a new `io_context` has no work and a new client no subscriptions
    let session := { posted := [], receiving := false, issued := [],
                     since := c.subscriptions.length }
    (({ c with started := true, stopped := false, session := some session }).post
      .flush).armReceive

/-- `stop`. -/
def stop (c : MqttClient) : MqttClient :=
  if !c.started then c
  else
    let c := { c with started := false }
    if c.stopped then c
    else
      -- work that has not run goes with the `io_context`
      { c with
        stopped := true
        session := none
        ended := c.ended ++ (c.session.map (·.issued)).toList }

/-- `subscribe`. -/
def subscribe (c : MqttClient) (topic : Bytes) : MqttClient :=
  let x : Subscription := { call := c.subscriptions.length, topic := topic }
  let c := { c with
    pendingTopics := c.pendingTopics ++ [x]
    subscriptions := c.subscriptions ++ [x] }
  if c.started && c.session.isSome then c.post (.doSubscribe x) else c

/-- `publish`: what `async_publish` is given, or what the callback is told instead. -/
def publish (c : MqttClient) (topic payload : Bytes) : Except Bytes Publication :=
  if !c.started || c.session.isNone then .error (utf8 "MQTT client not started")
  else .ok { topic := topic, payload := payload }

/-- One item of posted work. -/
def perform (c : MqttClient) : Work → MqttClient
  | .flush => c.flush
  | .doSubscribe x => c.doSubscribe x

/-- `ioc_->run()`, up to the next item of posted work. -/
def run (c : MqttClient) : Option MqttClient :=
  match c.session with
  | none => none
  | some s =>
      match s.posted with
      | [] => none
      | w :: rest => some (({ c with session := some { s with posted := rest } }).perform w)

/-- A receive completes: its handler is about to be called. -/
def takeReceive (c : MqttClient) : Option MqttClient :=
  match c.session with
  | none => none
  | some s =>
      if s.receiving then some { c with session := some { s with receiving := false } } else none

/-- The receive handler without an error, up to `cb_(topic, payload)`. -/
def beforeCallback (c : MqttClient) : MqttClient :=
  if !c.pendingTopics.isEmpty then c.flush else c

/-- `if (!stopped_) arm_receive();`, the end of the handler, with and without an error. -/
def rearm (c : MqttClient) : MqttClient := if !c.stopped then c.armReceive else c

/-- What can happen to a client. -/
inductive Action where
  | subscribe (topic : Bytes)
  | start
  | stop
  /-- The oldest item of posted work runs. -/
  | run
  /-- A message is received, and `cb_` returns. -/
  | message
  /-- A receive completes with an error. -/
  | error
deriving DecidableEq, Repr

/-- One step. -/
def step (c : MqttClient) (a : Action) : Option MqttClient :=
  match a with
  | .subscribe topic => some (c.subscribe topic)
  | .start => some c.start
  | .stop => some c.stop
  | .run => c.run
  | .message => c.takeReceive.map (fun c => c.beforeCallback.rearm)
  | .error => c.takeReceive.map rearm

/-- A client, from its construction. -/
def machine : Reactive.Machine MqttClient Action where
  init := new
  step := step

end MqttClient

end CloudGateway.Transport
