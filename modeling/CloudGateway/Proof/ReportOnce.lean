import CloudGateway.Proof.Connections
import CloudGateway.Proof.JsonAccess

/-!
# Every vehicle report is published once

A handler reads one event at a time into one buffer, and decodes it before it
reads on. So what it has published, in order, is what the events it has read
report, in order: each of the four reports once, on its own topic and with every
field of its message, and nothing for the other events. After a failed `Read` it
reads no more.
-/

namespace CloudGateway.Proof

open Services Proto Reactive Constants

/-! ## What an event reports -/

/-- The event is a report, not an acknowledgement. -/
def isReport : VehicleEvent → Bool
  | .eta _ | .status _ | .arrive _ | .location _ => true
  | .tripInitAck _ | .tripMoveAck _ | .tripParkAck _ | .orderUpdateLocationAck _
  | .orderUpdateStatusAck _ | .tripCancelAck _ | .notSet => false

/-- The topic of each kind of report. -/
def topicOf : VehicleEvent → Option String
  | .eta _ => some kTopicTripEta
  | .status _ => some kTopicTripStatus
  | .arrive _ => some kTopicTripArrive
  | .location _ => some kTopicUpdateLocation
  | .tripInitAck _ | .tripMoveAck _ | .tripParkAck _ | .orderUpdateLocationAck _
  | .orderUpdateStatusAck _ | .tripCancelAck _ | .notSet => none

/-- The fields of the message of a report, in the order of the proto file, under their keys. -/
def fieldsOf : VehicleEvent → List (String × Json)
  | .eta r => [("vinNumber", .str r.vinNumber), ("requestId", .int r.requestId),
      ("estimatedTime", .float r.time), ("estimatedFare", .float r.fare), ("status", .str r.status)]
  | .status r => [("vinNumber", .str r.vinNumber), ("tripId", .int r.tripId),
      ("tripStatus", .str r.status)]
  | .arrive r => [("vinNumber", .str r.vinNumber), ("tripId", .int r.tripId),
      ("longitude", .float r.long_), ("latitude", .float r.lat)]
  | .location r => [("vinNumber", .str r.vinNumber), ("longitude", .float r.longitude),
      ("latitude", .float r.latitude)]
  | .tripInitAck _ | .tripMoveAck _ | .tripParkAck _ | .orderUpdateLocationAck _
  | .orderUpdateStatusAck _ | .tripCancelAck _ | .notSet => []

/-- A topic and a payload say what an event reported: every field, and nothing else. -/
structure Says [JsonText] (ev : VehicleEvent) (p : String × String) : Prop where
  topic : topicOf ev = some p.1
  /-- No two fields share a key. -/
  keys : ((fieldsOf ev).map (·.1)).Nodup
  payload : ∃ members, p.2 = JsonText.dump (.obj members)
    ∧ ∀ key v, members.lookup key = some v ↔ (key, v) ∈ fieldsOf ev

/-- The events a handler has read, in order. -/
def eventsRead (k : Connection) : List VehicleEvent :=
  k.completions.filterMap (fun c => match c with
    | .read ev => ev
    | .request _ | .finish _ | .write _ _ => none)

/-- The publications of a handler match what it has read. -/
structure ReportedOnce [JsonText] (k : Connection) : Prop where
  /-- One buffer, one `Read`. -/
  reads : k.ownOps.count .read ≤ 1
  /-- One publication for each report, in order. -/
  image : List.Forall₂ Says ((eventsRead k).filter isReport) k.published
  /-- No `Read` completes after one that failed. -/
  ended : k.completions.Pairwise (fun c d => c = .read none → ∀ ev, d ≠ .read ev)

variable [JsonText]

/-! ## One event -/

/-- An object with the fields of the message, assigned in whatever order. -/
theorem says_object {ev : VehicleEvent} {topic : String} {fields : List (String × Json)}
    (htopic : topicOf ev = some topic) (hkeys : ((fieldsOf ev).map (·.1)).Nodup)
    (hperm : fields.Perm (fieldsOf ev)) :
    Says ev (topic, JsonText.dump (.object fields)) where
  topic := htopic
  keys := hkeys
  payload := by
    refine ⟨_, rfl, fun key v => ?_⟩
    rw [object_lookup_iff ((hperm.map _).nodup_iff.mpr hkeys), hperm.mem_iff]

/-- **`handle_incoming` publishes a report as it came, and nothing else.** -/
theorem handleIncoming_says (ev : VehicleEvent) :
    List.Forall₂ Says ([ev].filter isReport) (VehicleStreamHandler.handleIncoming ev).toList := by
  cases ev with
  | eta r =>
      -- the fare is assigned before the time
      have hperm : ([("vinNumber", .str r.vinNumber), ("requestId", .int r.requestId),
          ("estimatedFare", .float r.fare), ("estimatedTime", .float r.time),
          ("status", .str r.status)] : List (String × Json)).Perm (fieldsOf (.eta r)) :=
        ((List.Perm.swap _ _ _).cons _).cons _
      exact .cons (says_object rfl (by simp [fieldsOf]) hperm) .nil
  | status r => exact .cons (says_object rfl (by simp [fieldsOf]) (.refl _)) .nil
  | arrive r => exact .cons (says_object rfl (by simp [fieldsOf]) (.refl _)) .nil
  | location r =>
      -- and the latitude before the longitude
      have hperm : ([("vinNumber", .str r.vinNumber), ("latitude", .float r.latitude),
          ("longitude", .float r.longitude)] : List (String × Json)).Perm
          (fieldsOf (.location r)) :=
        (List.Perm.swap _ _ _).cons _
      exact .cons (says_object rfl (by simp [fieldsOf]) hperm) .nil
  | notSet | tripInitAck r | tripMoveAck r | tripParkAck r | orderUpdateLocationAck r
  | orderUpdateStatusAck r | tripCancelAck r => exact .nil

/-! ## Runs -/

omit [JsonText] in
theorem reads_of_wf {k : Connection} (hwf : Wf k) : k.ownOps.count .read ≤ 1 := by
  refine Nat.le_trans List.count_le_length ?_
  rw [hwf.own]
  cases k.handler with
  | none => simp [ownOpsOf]
  | some s => cases hst : s.state <;> simp [ownOpsOf, waitsFor, hst]

/-- A step that reads no report publishes nothing. -/
theorem image_same {k k' : Connection} (hk : ReportedOnce k)
    (hreports : (eventsRead k').filter isReport = (eventsRead k).filter isReport)
    (hpublished : k'.published = k.published) :
    List.Forall₂ Says ((eventsRead k').filter isReport) k'.published := by
  rw [hreports, hpublished]
  exact hk.image

/-- **Every step publishes what it reads.** -/
theorem image_step {k k' : Connection} {a : Connection.Action} (hwf : Wf k) (hk : ReportedOnce k)
    (h : k.step a = some k') :
    List.Forall₂ Says ((eventsRead k').filter isReport) k'.published := by
  cases step_effect hwf h with
  | enqueue hs => exact image_same hk (by simp [eventsRead]) (by simp)
  | writeDone hs hw => exact image_same hk (by simp [eventsRead]) (by simp)
  | @readOk s ev _ hs hst =>
      have himage := hk.image
      have hone := handleIncoming_says ev
      simp only [eventsRead, List.filterMap_append, List.filter_append] at himage ⊢
      exact List.rel_append himage hone
  | _ => exact image_same hk (by simp [eventsRead]) rfl

/-- After a failed `Read` no `Read` completes: none is outstanding. -/
theorem ended_step {k k' : Connection} {a : Connection.Action} (hwf : Wf k) (hp : Phase k)
    (hk : ReportedOnce k) (h : k.step a = some k') :
    k'.completions.Pairwise (fun c d => c = .read none → ∀ ev, d ≠ .read ev) := by
  cases a with
  | enqueue cmd =>
      have hc : k'.completions = k.completions := by
        cases step_effect hwf h with
        | enqueue hs => simp
      rw [hc]; exact hk.ended
  | complete c flushed =>
      rw [step_completions hwf h]
      refine List.pairwise_append.mpr ⟨hk.ended, List.pairwise_singleton _ _, ?_⟩
      rintro d hd c hc rfl ev rfl
      obtain rfl := List.mem_singleton.mp hc
      have hfailed : received k (.read none) = true := decide_eq_true hd
      cases step_effect hwf h with
      | readOk hs hst => simp_all [Phase, stateOf]
      | readFailed hs hst => simp_all [Phase, stateOf]

theorem reportedOnce_reachable {k : Connection} (h : Connection.machine.Reachable k) :
    ReportedOnce k := by
  refine h.invariant (P := ReportedOnce) ?_ ?_
  · exact ⟨reads_of_wf wf_construct, .nil, .nil⟩
  · intro k a k' hr hk _ hs
    have hwf := wf_reachable hr
    exact ⟨reads_of_wf (wf_step hwf hs), image_step hwf hk hs,
      ended_step hwf (phase_reachable hr) hk hs⟩

/--
**Every report is published once, in order.** Whatever events arrive on however
many connections, and in whatever order, each handler publishes the reports it
has read, one publication for each, and none after its `Read` has failed.
-/
theorem reported_once {w : World} (h : World.machine.Reachable w) :
    ∀ k ∈ w.conns, ReportedOnce k := by
  intro k hk
  exact reportedOnce_reachable (conns_reachable h k hk)

omit [JsonText] in
/-- Two vehicles: a location and an acknowledgement from one, an arrival from the other. -/
theorem reported_once_two :
    ∃ (_ : JsonText) (w : World), World.machine.Reachable w
      ∧ w.conns.map (fun k => k.published.length) = [1, 1, 0] ∧ ∀ k ∈ w.conns, ReportedOnce k := by
  let _ : JsonText := ⟨fun _ => ""⟩
  obtain ⟨w, hr, hp⟩ := Machine.exists_reachable_of_run (M := World.machine)
    (l := [.complete 0 (.request true), .complete 1 (.request true),
      .complete 0 (.read (some (.location ⟨"V1", ⟨0⟩, ⟨0⟩⟩))),
      .complete 1 (.read (some (.arrive ⟨"V2", 7, ⟨0⟩, ⟨0⟩⟩))),
      .complete 0 (.read (some (.tripMoveAck ⟨true, ""⟩))), .complete 0 (.read none)])
    (p := fun w => decide (w.conns.map (fun k => k.published.length) = [1, 1, 0])) (by decide)
  exact ⟨_, w, hr, of_decide_eq_true hp, reported_once hr⟩

end CloudGateway.Proof
