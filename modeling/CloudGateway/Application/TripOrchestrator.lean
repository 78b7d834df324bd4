import CloudGateway.Services.MqttRouter

/-!
# `TripOrchestrator`

A handler for each kind of command: it parses the payload, reads what it needs,
stores an id where it is one it keeps, and invokes a callback. The callbacks act
on a state `ω` of their own. All reading comes before anything is stored, so a
handler is a `read…` that may throw and what it does with what it has read.
-/

namespace CloudGateway.Application

open Services JsonLibrary

/-- `TripCallbacks`. The parameters are in the order of the source. -/
structure TripCallbacks (ω : Type) where
  /-- `vin_number, request_id, start_lat, start_lon, end_lat, end_lon`. -/
  onTripInit : Option (String → Int64 → Double → Double → Double → Double → ω → ω)
  /-- `vin_number, trip_id, lat, lon`. -/
  onTripMove : Option (String → Int64 → Double → Double → ω → ω)
  /-- `vin_number, lon, lat`. -/
  onTripPark : Option (String → Double → Double → ω → ω)
  /-- `vin_number`. -/
  onOrderUpdateLocation : Option (String → ω → ω)
  /-- `vin_number`. -/
  onOrderUpdateStatus : Option (String → ω → ω)
  /-- `vin_number, trip_id`. -/
  onTripCancel : Option (String → Int64 → ω → ω)

/-- The ids the orchestrator keeps. -/
structure TripIds where
  tripId : Int64
  requestId : Double
deriving DecidableEq, Repr

/-- `trip_id_{0}`, `request_id_{0}`. -/
def TripIds.new : TripIds := { tripId := 0, requestId := .ofInt64 0 }

/-- `active_trip_id`. -/
def TripIds.activeTripId (ids : TripIds) : Int64 := ids.tripId

/-- `active_request_id`: the `double` is converted back, where C++ defines that. -/
def TripIds.activeRequestId (ids : TripIds) : Option Int64 := ids.requestId.toInt64?

/-- The orchestrator's ids next to the state its callbacks act on. -/
structure Trips (ω : Type) where
  ids : TripIds
  world : ω

section Reading

variable [JsonLibrary]

/-- `vin, request_id, start_lon, start_lat, end_lon, end_lat`, as `handle_trip_init` reads them. -/
def readTripInit (payload : Bytes) :
    Except JsonException (String × Int64 × Double × Double × Double × Double) := do
  let j ← parse payload
  let vin ← (← j.at "vinNumber").getString
  let requestId ← (← j.at "requestId").getInt64
  let startLon ← (← j.at "startLong").getDouble
  let startLat ← (← j.at "startLat").getDouble
  let endLon ← (← j.at "endLong").getDouble
  let endLat ← (← j.at "endLat").getDouble
  return (vin, requestId, startLon, startLat, endLon, endLat)

/-- `vin, trip_id, lon, lat`, as `handle_trip_move` reads them. -/
def readTripMove (payload : Bytes) : Except JsonException (String × Int64 × Double × Double) := do
  let j ← parse payload
  let vin ← (← j.at "vinNumber").getString
  let tripId ← (← j.at "tripId").getInt64
  let lon ← (← j.at "longitude").getDouble
  let lat ← (← j.at "latitude").getDouble
  return (vin, tripId, lon, lat)

/-- `vin, lon, lat`, as `handle_trip_park` reads them. -/
def readTripPark (payload : Bytes) : Except JsonException (String × Double × Double) := do
  let j ← parse payload
  let vin ← (← j.at "vinNumber").getString
  let lon ← (← j.at "longitude").getDouble
  let lat ← (← j.at "latitude").getDouble
  return (vin, lon, lat)

/-- `vin`, as both `handle_order_update_…` read it. -/
def readOrderUpdate (payload : Bytes) : Except JsonException String := do
  let j ← parse payload
  let vin ← (← j.at "vinNumber").getString
  return vin

/-- `vin, request_id`, as `handle_trip_cancel` reads them. -/
def readTripCancel (payload : Bytes) : Except JsonException (String × Int64) := do
  let j ← parse payload
  let vin ← (← j.at "vinNumber").getString
  let requestId ← (← j.at "requestId").getInt64
  return (vin, requestId)

end Reading

namespace Trips

variable {ω : Type}

/-- `trip_id_.store(id)`. -/
def storeTripId (s : Trips ω) (id : Int64) : Trips ω := { s with ids := { s.ids with tripId := id } }

/-- `request_id_.store(id)`, into an `std::atomic<double>`. -/
def storeRequestId (s : Trips ω) (id : Int64) : Trips ω :=
  { s with ids := { s.ids with requestId := .ofInt64 id } }

/-- `if (callback) callback(…)`. -/
def invoke (s : Trips ω) (callback : Option (ω → ω)) : Trips ω :=
  match callback with
  | none => s
  | some f => { s with world := f s.world }

/-- The shape of every handler: what reading throws leaves the handler. -/
def handle {α : Type} (read : Bytes → Except JsonException α) (act : α → Trips ω → Trips ω) :
    Handler (Trips ω) := fun payload s =>
  match read payload with
  | .error e => (.error (.json e), s)
  | .ok a => (.ok (), act a s)

variable [JsonLibrary] (callbacks : TripCallbacks ω)

/-- `handle_trip_init`. -/
def handleTripInit : Handler (Trips ω) :=
  handle readTripInit (fun (vin, requestId, startLon, startLat, endLon, endLat) s =>
    (s.storeRequestId requestId).invoke
      (callbacks.onTripInit.map (fun f => f vin requestId startLat startLon endLat endLon)))

/-- `handle_trip_move`. -/
def handleTripMove : Handler (Trips ω) :=
  handle readTripMove (fun (vin, tripId, lon, lat) s =>
    (s.storeTripId tripId).invoke (callbacks.onTripMove.map (fun f => f vin tripId lat lon)))

/-- `handle_trip_park`. -/
def handleTripPark : Handler (Trips ω) :=
  handle readTripPark (fun (vin, lon, lat) s =>
    s.invoke (callbacks.onTripPark.map (fun f => f vin lon lat)))

/-- `handle_order_update_location`. -/
def handleOrderUpdateLocation : Handler (Trips ω) :=
  handle readOrderUpdate (fun vin s =>
    s.invoke (callbacks.onOrderUpdateLocation.map (fun f => f vin)))

/-- `handle_order_update_status`. -/
def handleOrderUpdateStatus : Handler (Trips ω) :=
  handle readOrderUpdate (fun vin s =>
    s.invoke (callbacks.onOrderUpdateStatus.map (fun f => f vin)))

/-- `handle_trip_cancel`. It does not store the id. -/
def handleTripCancel : Handler (Trips ω) :=
  handle readTripCancel (fun (vin, requestId) s =>
    s.invoke (callbacks.onTripCancel.map (fun f => f vin requestId)))

end Trips

end CloudGateway.Application
