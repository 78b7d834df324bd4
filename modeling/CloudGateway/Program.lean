import CloudGateway.Main
import CloudGateway.Services.AuthServices

/-!
# `main` as a program

`Gateway.machine` begins once the parts have been wired together and leaves the
client to anyone. `Program.machine` is `main` itself: it begins after
`mqtt.start()`, one action for each further statement of `main` that other
threads can see, and between any two of them the other threads do what they can.
The MQTT thread runs posted work and receives messages, the Zenoh thread brings
locations, and the completion-queue thread completes operations of the streams.

Whatever any of them publishes goes through the one MQTT client. Until the server
has been started no operation completes, and no location arrives unless `main`
has declared its subscriber and not yet reset the session.
-/

namespace CloudGateway

open Services Transport Proto Constants

/-- The topics `main` subscribes to, in order. -/
def commandTopics : List Bytes :=
  [utf8 kTopicTripInit, utf8 kTopicTripMove, utf8 kTopicTripPark, utf8 kTopicOrderUpdateLocation,
   utf8 kTopicOrderUpdateStatus, utf8 kTopicTripCancel]

/-- The calls of `mqtt.subscribe`, and `mqtt.start()`. -/
def Gateway.started : Gateway :=
  { wired with mqtt := (commandTopics.foldl MqttClient.subscribe MqttClient.new).start }

/-- `start_loc.dump()`. -/
def startLocation [JsonText] (cfg : Settings) : Except JsonException String := do
  let vinNumber ← dumpable cfg.vinNumber
  return JsonText.dump (.object [
    ("vinNumber", .str vinNumber), ("latitude", .float cfg.startLat),
    ("longitude", .float cfg.startLon)])

/-- The statement of `main` that is next. -/
inductive Statement where
  /-- `zsession->declare_subscriber("autoware/location", …)`. -/
  | declareSubscriber
  /-- `auth.setup()`. -/
  | setup
  /-- `auth.create_vehicle()`. -/
  | createVehicle
  /-- `auth.vechile_login()`, and the publication of the start location. -/
  | vechileLogin
  /-- `grpc_server.start()`. -/
  | startServer
  /-- `grpc_server.wait()`, `zsession.reset()` and `mqtt.stop()`. -/
  | wait
  | returned
deriving DecidableEq, Repr

/-- `main`, its objects, and what they have published. -/
structure Program where
  next : Statement
  gateway : Gateway
  auth : AuthWorld
  /-- History: what `async_publish` has been given, in order. -/
  sent : List Publication
  /-- History: what `publish` has been called with while the client was not started. -/
  refused : List Publication

namespace Program

/-- After `mqtt.start()`. -/
def start (config : Config) : Program :=
  { next := .declareSubscriber, gateway := .started, auth := .start config, sent := []
    refused := [] }

/-- `mqtt.publish(topic, payload, …)`. -/
def publish (p : Program) (topic payload : String) : Program :=
  match p.gateway.mqtt.publish (utf8 topic) (utf8 payload) with
  | .ok publication => { p with sent := p.sent ++ [publication] }
  | .error _ => { p with refused := p.refused ++ [⟨utf8 topic, utf8 payload⟩] }

/-- The subscriber of `autoware/location` exists. -/
def locating (p : Program) : Bool := p.next ≠ .declareSubscriber && p.next ≠ .returned

/-- The completion-queue thread runs. -/
def serving (p : Program) : Bool := p.next = .wait || p.next = .returned

/-- What the handler at an address has published. -/
def publishedAt (w : World) (h : Nat) : List (String × String) :=
  ((w.conns[h]?).map (·.published)).getD []

/-- What can happen to the program. -/
inductive Action where
  | declareSubscriber
  | setup (replies : List HttpResponse)
  | createVehicle (replies : List HttpResponse) (saves : List SaveOutcome)
  | vechileLogin (replies : List HttpResponse) (saves : List SaveOutcome)
  | startServer
  /-- The server has been stopped, and `main` returns. -/
  | shutdown
  /-- Posted work runs. -/
  | run
  /-- A receive completes with an error. -/
  | receiveError
  | receive (m : Message)
  /-- A payload on `autoware/location`. -/
  | location (payload : Bytes)
  /-- An operation of a stream handler completes. -/
  | complete (h : Nat) (c : Completion)
  /-- Someone else writes or removes the credentials file. -/
  | replaceFile (file : Option Bytes)
deriving DecidableEq

/-- `main` takes a statement. -/
def advance (p : Program) (here next : Statement) (p' : Program) : Option Program :=
  if p.next = here then some { p' with next := next } else none

/-- `if (auth.vechile_login()) { … }`. What `dump` throws is not caught. -/
def login [JsonLibrary] (cfg : Settings) (p : Program) (replies : List HttpResponse)
    (saves : List SaveOutcome) : Program :=
  let (loggedIn, auth) := (p.auth.given replies saves).vechileLogin
  let p := { p with auth := auth }
  if loggedIn then
    match startLocation cfg with
    | .ok text => p.publish kTopicUpdateLocation text
    | .error _ => { p with gateway := { p.gateway with terminated := true } }
  else p

/-- One step. -/
def step [JsonLibrary] (cfg : Settings) (p : Program) (a : Action) : Option Program :=
  if p.gateway.terminated || p.gateway.trips.world.fault then none
  else
    match a with
    | .declareSubscriber => p.advance .declareSubscriber .setup p
    | .setup replies =>
        p.advance .setup .createVehicle { p with auth := (p.auth.given replies []).setup.2 }
    | .createVehicle replies saves =>
        let (returned, auth) := (p.auth.given replies saves).createVehicle false false
        p.advance .createVehicle .vechileLogin { p with auth := p.auth.noteCreation returned auth }
    | .vechileLogin replies saves =>
        p.advance .vechileLogin .startServer (p.login cfg replies saves)
    | .startServer => p.advance .startServer .wait p
    | .shutdown =>
        p.advance .wait .returned
          { p with gateway := { p.gateway with mqtt := p.gateway.mqtt.stop } }
    | .run => (p.gateway.step (.client .run)).map (fun g => { p with gateway := g })
    | .receiveError => (p.gateway.step (.client .error)).map (fun g => { p with gateway := g })
    | .receive m => (p.gateway.step (.receive m)).map (fun g => { p with gateway := g })
    | .location payload =>
        if p.locating then
          match locationMessage cfg.vinNumber payload with
          | .ok text => some (p.publish kTopicStreamLocation text)
          -- a warning is logged
          | .error _ => some p
        else none
    | .complete h c =>
        if p.serving then
          -- `publish_` is `mqtt.publish`
          (p.gateway.step (.complete h c)).map (fun g =>
            let reports := (publishedAt g.trips.world h).drop
              (publishedAt p.gateway.trips.world h).length
            reports.foldl (fun p r => p.publish r.1 r.2) { p with gateway := g })
        else none
    | .replaceFile file => some { p with auth := { p.auth with file := file } }

/-- `main`, from `mqtt.start()` on. -/
def machine [JsonLibrary] (cfg : Settings) (config : Config) : Reactive.Machine Program Action where
  init := start config
  step := step cfg

end Program

end CloudGateway
