/-!
# MQTT topics
-/

namespace CloudGateway.Constants

def kTopicTripInit : String := "topic/trip/init"
def kTopicTripMove : String := "topic/trip/move"
def kTopicTripEta : String := "topic/trip/eta"
def kTopicTripStatus : String := "topic/trip/status"
def kTopicTripArrive : String := "topic/trip/arrive"
def kTopicUpdateLocation : String := "topic/vehicle/update/location"
def kTopicTripPark : String := "topic/trip/park"
def kTopicOrderUpdateLocation : String := "topic/update_location/order"
def kTopicOrderUpdateStatus : String := "topic/update_status/order"
def kTopicTripCancel : String := "topic/trip/cancel"
def kTopicStreamLocation : String := "topic/trip/stream_location"

end CloudGateway.Constants
