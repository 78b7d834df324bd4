import CloudGateway.Application.TripOrchestrator
import CloudGateway.Infra.Config
import CloudGateway.Infra.Constants
import CloudGateway.Services.StreamWorld
import CloudGateway.Transport.MqttClient

/-!
# The wiring of `main`

What the MQTT client receives goes to the router, from there to the orchestrator,
and through a callback to the stream handlers, as a `GatewayCommand`.

`Gateway.machine` is the gateway from the moment its parts have been wired
together: messages and receive errors, calls of the client, and completions of
the stream handlers, in any order.

Beside it, `main` subscribes to the location of the vehicle and publishes it.
-/

namespace CloudGateway

open Services Application Transport Proto Constants

/-- The callbacks `main` gives to the orchestrator. -/
def tripCallbacks : TripCallbacks World where
  onTripInit := some (fun vinNumber reqId sLat sLon eLat eLon w =>
    w.pushCommand (.tripInit {
      vinNumber := vinNumber, requestId := reqId, startLat := sLat, startLong := sLon
      endLat := eLat, endLong := eLon }))
  onTripMove := some (fun vinNumber tripId lat lon w =>
    w.pushCommand (.tripMove {
      vinNumber := vinNumber, tripId := tripId, latitude := lat, longitude := lon }))
  onTripPark := some (fun vinNumber lon lat w =>
    w.pushCommand (.tripPark { vinNumber := vinNumber, latitude := lat, longitude := lon }))
  onOrderUpdateLocation := some (fun vinNumber w =>
    w.pushCommand (.orderUpdateLocation { vinNumber := vinNumber }))
  onOrderUpdateStatus := some (fun vinNumber w =>
    w.pushCommand (.orderUpdateStatus { vinNumber := vinNumber }))
  onTripCancel := some (fun vinNumber requestId w =>
    w.pushCommand (.tripCancel { vinNumber := vinNumber, requestId := requestId }))

/-- The routes of `main`. -/
def routes [JsonLibrary] : MqttRouter (Trips World) :=
  MqttRouter.new
    |>.on (utf8 kTopicTripInit) (Trips.handleTripInit tripCallbacks)
    |>.on (utf8 kTopicTripMove) (Trips.handleTripMove tripCallbacks)
    |>.on (utf8 kTopicTripPark) (Trips.handleTripPark tripCallbacks)
    |>.on (utf8 kTopicOrderUpdateLocation) (Trips.handleOrderUpdateLocation tripCallbacks)
    |>.on (utf8 kTopicOrderUpdateStatus) (Trips.handleOrderUpdateStatus tripCallbacks)
    |>.on (utf8 kTopicTripCancel) (Trips.handleTripCancel tripCallbacks)

/-- What the client receives. -/
structure Message where
  topic : Bytes
  payload : Bytes
deriving DecidableEq, Repr

/-- The client, and what the router's handlers act on. -/
structure Gateway where
  mqtt : MqttClient
  trips : Trips World
  /-- An exception has left `ioc_->run()`. -/
  terminated : Bool
  /-- History: the messages received, in order. -/
  received : List Message

namespace Gateway

/-- Before the first `subscribe`. -/
def wired : Gateway :=
  { mqtt := .new, trips := { ids := .new, world := .start }, terminated := false, received := [] }

/-- The receive handler on a message, from `beforeCallback` to its end. -/
def onMessage [JsonLibrary] (g : Gateway) (m : Message) : Gateway :=
  let mqtt := g.mqtt.beforeCallback
  let g := { g with received := g.received ++ [m] }
  match routes.dispatch m.topic m.payload g.trips with
  | (.ok _, trips) => { g with mqtt := mqtt.rearm, trips := trips }
  | (.error _, trips) => { g with mqtt := mqtt, trips := trips, terminated := true }

/-- What can happen to the gateway. -/
inductive Action where
  /-- The client receives a message. -/
  | receive (m : Message)
  /-- Anything else that can happen to the client. -/
  | client (a : MqttClient.Action)
  /-- An operation of a stream handler completes. -/
  | complete (h : Nat) (c : Completion)
deriving DecidableEq, Repr

/-- One step. -/
def step [JsonLibrary] (g : Gateway) (a : Action) : Option Gateway :=
  if g.terminated || g.trips.world.fault then none
  else
    match a with
    | .receive m => g.mqtt.takeReceive.map (fun c => { g with mqtt := c }.onMessage m)
    | .client .message => none
    | .client a => (g.mqtt.step a).map (fun c => { g with mqtt := c })
    | .complete h c =>
        (g.trips.world.step (.complete h c)).map (fun w =>
          { g with trips := { g.trips with world := w } })

/-- The gateway, wired as `main` wires it. -/
def machine [JsonLibrary] : Reactive.Machine Gateway Action where
  init := wired
  step := step

end Gateway

/-! ## The location -/

/-- What the subscriber of `autoware/location` makes of a payload. -/
def locationMessage [JsonLibrary] (vinNumber payload : Bytes) : Except JsonException String := do
  let j ← JsonLibrary.parse payload
  let (latitude, j) ← j.subscript "latitude"
  let (longitude, j) ← j.subscript "longitude"
  let (tripId, _) ← j.subscript "tripId"
  let vinNumber ← dumpable vinNumber
  return JsonText.dump (.object [
    ("vinNumber", .str vinNumber), ("latitude", latitude), ("longitude", longitude),
    ("tripId", tripId)])

/-- The subscriber of `autoware/location`: what it publishes. -/
def onLocation [JsonLibrary] (cfg : Settings) (mqtt : MqttClient) (payload : Bytes) :
    Except JsonException (Option Publication) :=
  tryCatch
    (do
      let text ← locationMessage cfg.vinNumber payload
      return (mqtt.publish (utf8 kTopicStreamLocation) (utf8 text)).toOption)
    -- a warning is logged
    (fun _ => return none)

end CloudGateway
