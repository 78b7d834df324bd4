import CloudGateway.Proof.JsonAccess
import CloudGateway.Services.CallData
import CloudGateway.Services.StreamHandler

/-!
# The two reporting paths

Four messages can be sent as a unary call and as an event on the stream. Each
path has an encoder of its own. Since the printer of the library is a parameter,
two payloads that are equal whatever the printer are payloads of one document
(`document_eq_of_dump`), so equality of the documents can be asked of the texts.
-/

namespace CloudGateway.Proof

open Services Proto Constants

/-- What a vehicle can report on either path. -/
inductive Report where
  | eta (r : EtaRequest)
  | status (r : StatusRequest)
  | arrive (r : ArriveRequest)
  | location (r : UpdateVehicleLocationRequest)

namespace Report

/-- The topic and payload the unary call publishes. -/
def unary [JsonText] : Report → String × String
  | .eta r => (etaCallData.mqttTopic, etaCallData.buildPayload r)
  | .status r => (statusCallData.mqttTopic, statusCallData.buildPayload r)
  | .arrive r => (arriveCallData.mqttTopic, arriveCallData.buildPayload r)
  | .location r => (updateLocationCallData.mqttTopic, updateLocationCallData.buildPayload r)

/-- The event that carries the message. -/
def event : Report → VehicleEvent
  | .eta r => .eta r
  | .status r => .status r
  | .arrive r => .arrive r
  | .location r => .location r

/-- The topic and payload the stream handler publishes, if it publishes anything. -/
def stream [JsonText] (r : Report) : Option (String × String) :=
  VehicleStreamHandler.handleIncoming r.event

/-- The message says where the vehicle is, and nothing about how a trip goes. -/
def isPosition : Report → Bool
  | .eta _ => false
  | .status _ => false
  | .arrive _ => true
  | .location _ => true

/-- Both paths publish one document on one topic: the texts are equal whatever the printer. -/
def Agree (r : Report) : Prop := ∀ _ : JsonText, r.stream = some r.unary

end Report

/-- Printers tell documents apart. -/
theorem document_eq_of_dump {a b : Json} (h : ∀ j : JsonText, j.dump a = j.dump b) : a = b := by
  classical
  have htext : (if a = a then "a" else "b") = (if b = a then "a" else "b") :=
    h ⟨fun d => if d = a then "a" else "b"⟩
  by_contra hne
  rw [if_pos rfl, if_neg (Ne.symm hne)] at htext
  exact absurd htext (by decide)

/-- Payloads of different documents differ, for some printer. -/
theorem not_agree_of_documents {r : Report} {topic : String} {a b : Json} (hne : a ≠ b)
    (hunary : ∀ j : JsonText, r.unary = (topic, j.dump a))
    (hstream : ∀ j : JsonText, r.stream = some (topic, j.dump b)) : ¬ r.Agree := by
  intro hagree
  refine hne (document_eq_of_dump (fun j => ?_))
  have hboth := hagree j
  rw [hunary j, hstream j] at hboth
  exact (congrArg Prod.snd (Option.some.inj hboth)).symm

/-- The unary report of an ETA has other keys, and no status. -/
theorem eta_documents_ne (r : EtaRequest) :
    Json.object [("vin_number", .str r.vinNumber), ("request_id", .int r.requestId),
        ("estimated_fare", .float r.fare), ("estimated_time", .float r.time)]
      ≠ Json.object [("vinNumber", .str r.vinNumber), ("requestId", .int r.requestId),
        ("estimatedFare", .float r.fare), ("estimatedTime", .float r.time),
        ("status", .str r.status)] := by
  have hmem : ("vin_number", Json.str r.vinNumber) ∈ [("vin_number", Json.str r.vinNumber),
      ("request_id", .int r.requestId), ("estimated_fare", .float r.fare),
      ("estimated_time", .float r.time)] := List.mem_cons_self
  exact object_ne_of_key (by simp) hmem (by simp)

/-- The unary report of a status has other keys. -/
theorem status_documents_ne (r : StatusRequest) :
    Json.object [("vinNumber", .str r.vinNumber), ("trip_id", .int r.tripId),
        ("status", .str r.status)]
      ≠ Json.object [("vinNumber", .str r.vinNumber), ("tripId", .int r.tripId),
        ("tripStatus", .str r.status)] := by
  have hmem : ("trip_id", Json.int r.tripId) ∈ [("vinNumber", Json.str r.vinNumber),
      ("trip_id", .int r.tripId), ("status", .str r.status)] :=
    List.mem_cons_of_mem _ List.mem_cons_self
  exact object_ne_of_key (by simp) hmem (by simp)

/-- The order in which the location is written down does not matter. -/
theorem location_documents_eq (r : UpdateVehicleLocationRequest) :
    Json.object [("vinNumber", .str r.vinNumber), ("latitude", .float r.latitude),
        ("longitude", .float r.longitude)]
      = Json.object [("vinNumber", .str r.vinNumber), ("longitude", .float r.longitude),
        ("latitude", .float r.latitude)] := by
  have hlat : "latitude" < "vinNumber" := by decide
  have hlong : "longitude" < "vinNumber" := by decide
  have hboth : "latitude" < "longitude" := by decide
  have hnot : ¬ "longitude" < "latitude" := by decide
  have hne : "longitude" ≠ "latitude" := by decide
  simp only [Json.object, List.foldl_cons, List.foldl_nil, Json.assign, if_pos hlat, if_pos hlong,
    if_pos hboth, if_neg hnot, if_neg hne]

/--
**The two paths agree on positions only.** An arrival and a location are
published as the same document on the same topic; an ETA and a trip status are
not, whatever they say.
-/
theorem reports_agree_iff (r : Report) : r.Agree ↔ r.isPosition = true := by
  cases r with
  | eta r =>
      have hnot : ¬ (Report.eta r).Agree :=
        not_agree_of_documents (eta_documents_ne r) (fun _ => rfl) (fun _ => rfl)
      exact ⟨fun h => absurd h hnot, fun h => Bool.noConfusion h⟩
  | status r =>
      have hnot : ¬ (Report.status r).Agree :=
        not_agree_of_documents (status_documents_ne r) (fun _ => rfl) (fun _ => rfl)
      exact ⟨fun h => absurd h hnot, fun h => Bool.noConfusion h⟩
  | arrive r => exact ⟨fun _ => rfl, fun _ _ => rfl⟩
  | location r =>
      refine ⟨fun _ => rfl, fun _ j => ?_⟩
      show some (kTopicUpdateLocation, j.dump _) = some (kTopicUpdateLocation, j.dump _)
      rw [location_documents_eq]

/-- A trip status sent on the stream is not what the unary call publishes for it. -/
theorem not_reports_agree : ¬ ∀ r : Report, r.Agree := by
  intro h
  have hstatus := h (.status ⟨"V1", 7, "done"⟩)
  exact not_agree_of_documents (status_documents_ne ⟨"V1", 7, "done"⟩) (fun _ => rfl)
    (fun _ => rfl) hstatus

end CloudGateway.Proof
