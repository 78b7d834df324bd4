import CloudGateway.Json

/-!
# The messages of `vehicle_gateway.proto`

Field names follow the proto file in lower camel case; `long_` is the C++ name
protobuf gives the field `long`.
-/

namespace CloudGateway.Proto

structure EtaRequest where
  vinNumber : String
  requestId : Int64
  time : Double
  fare : Double
  status : String
deriving DecidableEq, Repr, Inhabited

structure TripParkRequest where
  vinNumber : String
  longitude : Double
  latitude : Double
deriving DecidableEq, Repr, Inhabited

structure OrderUpdateLocationRequest where
  vinNumber : String
deriving DecidableEq, Repr, Inhabited

structure OrderUpdateStatusRequest where
  vinNumber : String
deriving DecidableEq, Repr, Inhabited

structure StatusRequest where
  vinNumber : String
  tripId : Int64
  status : String
deriving DecidableEq, Repr, Inhabited

structure ArriveRequest where
  vinNumber : String
  tripId : Int64
  long_ : Double
  lat : Double
deriving DecidableEq, Repr, Inhabited

structure UpdateVehicleLocationRequest where
  vinNumber : String
  longitude : Double
  latitude : Double
deriving DecidableEq, Repr, Inhabited

structure TripInitRequest where
  vinNumber : String
  requestId : Int64
  startLong : Double
  startLat : Double
  endLong : Double
  endLat : Double
deriving DecidableEq, Repr, Inhabited

structure TripMoveRequest where
  vinNumber : String
  tripId : Int64
  longitude : Double
  latitude : Double
deriving DecidableEq, Repr, Inhabited

structure TripCancelRequest where
  vinNumber : String
  requestId : Int64
deriving DecidableEq, Repr, Inhabited

/-- The shape all the `…Response` messages share. -/
structure Response where
  success : Bool
  message : String
deriving DecidableEq, Repr, Inhabited

abbrev TripInitResponse := Response
abbrev TripMoveResponse := Response
abbrev TripParkResponse := Response
abbrev OrderUpdateLocationResponse := Response
abbrev OrderUpdateStatusResponse := Response
abbrev TripCancelResponse := Response

/-- `GatewayCommand.command`, a oneof that may be unset. -/
inductive GatewayCommand where
  | notSet
  | tripInit (r : TripInitRequest)
  | tripMove (r : TripMoveRequest)
  | tripPark (r : TripParkRequest)
  | orderUpdateLocation (r : OrderUpdateLocationRequest)
  | orderUpdateStatus (r : OrderUpdateStatusRequest)
  | tripCancel (r : TripCancelRequest)
deriving DecidableEq, Repr, Inhabited

/-- `VehicleEvent.event`, a oneof that may be unset. -/
inductive VehicleEvent where
  | notSet
  | tripInitAck (r : TripInitResponse)
  | tripMoveAck (r : TripMoveResponse)
  | tripParkAck (r : TripParkResponse)
  | orderUpdateLocationAck (r : OrderUpdateLocationResponse)
  | orderUpdateStatusAck (r : OrderUpdateStatusResponse)
  | eta (r : EtaRequest)
  | status (r : StatusRequest)
  | arrive (r : ArriveRequest)
  | location (r : UpdateVehicleLocationRequest)
  | tripCancelAck (r : TripCancelResponse)
deriving DecidableEq, Repr, Inhabited

end CloudGateway.Proto
