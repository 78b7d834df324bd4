import CloudGateway.Proof.Inbound
import CloudGateway.Proof.Subscriptions
import CloudGateway.Proof.World

/-!
# The inbound pipeline

`dispatch_spec` says what the router does with a message: it applies the command
that carries it, or nothing. A run of the gateway is then, seen from the stream
handlers, a run of `World` in which accepted messages are pushes, and seen from
the client a run of `MqttClient`.
-/

namespace CloudGateway.Proof

open Services Application Transport Proto Constants JsonLibrary Reactive

/-! ## Dispatch -/

/-- The ids after a command: the handlers of `TripInit` and `TripMove` store theirs. -/
def noted (ids : TripIds) : GatewayCommand → TripIds
  | .tripInit r => { ids with requestId := .ofInt64 r.requestId }
  | .tripMove r => { ids with tripId := r.tripId }
  | .notSet | .tripPark _ | .orderUpdateLocation _ | .orderUpdateStatus _ | .tripCancel _ => ids

/-- What a command does: the ids are noted, and it is pushed. -/
def applied (s : Trips World) (cmd : GatewayCommand) : Trips World :=
  { ids := noted s.ids cmd, world := s.world.pushCommand cmd }

variable [JsonLibrary]

/-- The handler applies the command of every accepted message, and throws on any other. -/
def Serves (topic : String) (handler : Handler (Trips World)) : Prop :=
  ∀ payload s,
    (∃ cmd, Carries ⟨utf8 topic, payload⟩ cmd ∧ handler payload s = (.ok (), applied s cmd))
      ∨ accepts ⟨utf8 topic, payload⟩ = false ∧ ∃ e, handler payload s = (.error (.json e), s)

/-- A handler serves its topic if what it reads is a command of that topic, and it applies it. -/
theorem serves_handle {α : Type} {topic : String} {read : Bytes → Except JsonException α}
    {act : α → Trips World → Trips World} (command : α → GatewayCommand)
    (hread : ∀ payload a, read payload = .ok a ↔ Carries ⟨utf8 topic, payload⟩ (command a))
    (honly : ∀ cmd, commandTopic cmd = some topic → ∃ a, cmd = command a)
    (hact : ∀ a s, act a s = applied s (command a)) : Serves topic (Trips.handle read act) := by
  intro payload s
  cases hr : read payload with
  | ok a =>
      refine Or.inl ⟨command a, (hread payload a).mp hr, ?_⟩
      simp only [Trips.handle, hr, hact]
  | error e =>
      refine Or.inr ⟨?_, e, by simp only [Trips.handle, hr]⟩
      cases haccepts : accepts ⟨utf8 topic, payload⟩ with
      | false => rfl
      | true =>
          obtain ⟨cmd, hcarries⟩ := (accepts_iff_carries _).mp haccepts
          obtain ⟨t, ht, hutf⟩ := hcarries.topic
          obtain rfl := utf8_injective hutf
          obtain ⟨a, rfl⟩ := honly cmd ht
          rw [(hread payload a).mpr hcarries] at hr
          exact absurd hr (by simp)

theorem serves_tripInit : Serves kTopicTripInit (Trips.handleTripInit tripCallbacks) := by
  refine serves_handle
    (fun a => .tripInit ⟨a.1, a.2.1, a.2.2.1, a.2.2.2.1, a.2.2.2.2.1, a.2.2.2.2.2⟩)
    (fun _ _ => readTripInit_ok_iff) ?_ (fun _ _ => rfl)
  intro cmd ht
  cases cmd with
  | tripInit r =>
      exact ⟨(r.vinNumber, r.requestId, r.startLong, r.startLat, r.endLong, r.endLat), rfl⟩
  | notSet => exact absurd ht (by decide)
  | _ => exact absurd (Option.some.inj ht) (by decide)

theorem serves_tripMove : Serves kTopicTripMove (Trips.handleTripMove tripCallbacks) := by
  refine serves_handle (fun a => .tripMove ⟨a.1, a.2.1, a.2.2.1, a.2.2.2⟩)
    (fun _ _ => readTripMove_ok_iff) ?_ (fun _ _ => rfl)
  intro cmd ht
  cases cmd with
  | tripMove r => exact ⟨(r.vinNumber, r.tripId, r.longitude, r.latitude), rfl⟩
  | notSet => exact absurd ht (by decide)
  | _ => exact absurd (Option.some.inj ht) (by decide)

theorem serves_tripPark : Serves kTopicTripPark (Trips.handleTripPark tripCallbacks) := by
  refine serves_handle (fun a => .tripPark ⟨a.1, a.2.1, a.2.2⟩)
    (fun _ _ => readTripPark_ok_iff) ?_ (fun _ _ => rfl)
  intro cmd ht
  cases cmd with
  | tripPark r => exact ⟨(r.vinNumber, r.longitude, r.latitude), rfl⟩
  | notSet => exact absurd ht (by decide)
  | _ => exact absurd (Option.some.inj ht) (by decide)

theorem serves_orderUpdateLocation :
    Serves kTopicOrderUpdateLocation (Trips.handleOrderUpdateLocation tripCallbacks) := by
  refine serves_handle (fun vin => .orderUpdateLocation ⟨vin⟩)
    (fun _ _ => readOrderUpdate_ok_iff rfl rfl) ?_ (fun _ _ => rfl)
  intro cmd ht
  cases cmd with
  | orderUpdateLocation r => exact ⟨r.vinNumber, rfl⟩
  | notSet => exact absurd ht (by decide)
  | _ => exact absurd (Option.some.inj ht) (by decide)

theorem serves_orderUpdateStatus :
    Serves kTopicOrderUpdateStatus (Trips.handleOrderUpdateStatus tripCallbacks) := by
  refine serves_handle (fun vin => .orderUpdateStatus ⟨vin⟩)
    (fun _ _ => readOrderUpdate_ok_iff rfl rfl) ?_ (fun _ _ => rfl)
  intro cmd ht
  cases cmd with
  | orderUpdateStatus r => exact ⟨r.vinNumber, rfl⟩
  | notSet => exact absurd ht (by decide)
  | _ => exact absurd (Option.some.inj ht) (by decide)

theorem serves_tripCancel : Serves kTopicTripCancel (Trips.handleTripCancel tripCallbacks) := by
  refine serves_handle (fun a => .tripCancel ⟨a.1, a.2⟩)
    (fun _ _ => readTripCancel_ok_iff) ?_ (fun _ _ => rfl)
  intro cmd ht
  cases cmd with
  | tripCancel r => exact ⟨(r.vinNumber, r.requestId), rfl⟩
  | notSet => exact absurd ht (by decide)
  | _ => exact absurd (Option.some.inj ht) (by decide)

/-- The six topics are different, so no route replaces another. -/
theorem routes_handlers :
    routes.handlers
      = [(utf8 kTopicTripCancel, Trips.handleTripCancel tripCallbacks),
         (utf8 kTopicOrderUpdateStatus, Trips.handleOrderUpdateStatus tripCallbacks),
         (utf8 kTopicOrderUpdateLocation, Trips.handleOrderUpdateLocation tripCallbacks),
         (utf8 kTopicTripPark, Trips.handleTripPark tripCallbacks),
         (utf8 kTopicTripMove, Trips.handleTripMove tripCallbacks),
         (utf8 kTopicTripInit, Trips.handleTripInit tripCallbacks)] := rfl

/-- Every route serves its topic. -/
theorem routes_serve {topic : Bytes} {handler : Handler (Trips World)}
    (h : (topic, handler) ∈ routes.handlers) : ∃ t, topic = utf8 t ∧ Serves t handler := by
  rw [routes_handlers] at h
  simp only [List.mem_cons, Prod.mk.injEq, List.not_mem_nil, or_false] at h
  rcases h with ⟨rfl, rfl⟩ | ⟨rfl, rfl⟩ | ⟨rfl, rfl⟩ | ⟨rfl, rfl⟩ | ⟨rfl, rfl⟩ | ⟨rfl, rfl⟩
  · exact ⟨_, rfl, serves_tripCancel⟩
  · exact ⟨_, rfl, serves_orderUpdateStatus⟩
  · exact ⟨_, rfl, serves_orderUpdateLocation⟩
  · exact ⟨_, rfl, serves_tripPark⟩
  · exact ⟨_, rfl, serves_tripMove⟩
  · exact ⟨_, rfl, serves_tripInit⟩

/-- Every command has a route. -/
theorem routes_complete {cmd : GatewayCommand} {t : String} (h : commandTopic cmd = some t) :
    (routes.handlers.lookup (utf8 t)).isSome = true := by
  rw [routes_handlers, List.lookup_isSome_iff]
  cases cmd with
  | notSet => exact absurd h (by simp [commandTopic])
  | _ => obtain rfl := Option.some.inj h; simp

/--
**What the router does with a message.** It applies the command that carries the
message, if there is one, and otherwise changes nothing. Either way `dispatch`
returns.
-/
theorem dispatch_spec (m : Message) (s : Trips World) :
    (∃ cmd, Carries m cmd ∧ routes.dispatch m.topic m.payload s = (.ok (), applied s cmd))
      ∨ accepts m = false ∧ routes.dispatch m.topic m.payload s = (.ok (), s) := by
  cases hl : routes.handlers.lookup m.topic with
  | none =>
      refine Or.inr ⟨?_, by simp only [MqttRouter.dispatch, hl]⟩
      cases haccepts : accepts m with
      | false => rfl
      | true =>
          obtain ⟨cmd, hcarries⟩ := (accepts_iff_carries m).mp haccepts
          obtain ⟨t, ht, htopic⟩ := hcarries.topic
          have hsome := routes_complete ht
          rw [← htopic, hl] at hsome
          exact absurd hsome (by simp)
  | some handler =>
      obtain ⟨l₁, l₂, heq, _⟩ := List.lookup_eq_some_iff.mp hl
      have hmem : (m.topic, handler) ∈ routes.handlers := by
        rw [heq]; exact List.mem_append_right _ List.mem_cons_self
      obtain ⟨t, ht, hserves⟩ := routes_serve hmem
      obtain ⟨topic, payload⟩ := m
      obtain rfl := ht
      rcases hserves payload s with ⟨cmd, hcarries, hrun⟩ | ⟨haccepts, e, hrun⟩
      · exact Or.inl ⟨cmd, hcarries, by simp only [MqttRouter.dispatch, hl, hrun]⟩
      · exact Or.inr ⟨haccepts, by simp only [MqttRouter.dispatch, hl, hrun]⟩

/-! ## Runs of the gateway -/

omit [JsonLibrary] in
theorem pushCommand_pushed (w : World) (cmd : GatewayCommand) :
    (w.pushCommand cmd).pushed = w.pushed ++ [cmd] := by
  rcases Option.eq_none_or_eq_some w.active with ha | ⟨h, ha⟩
  · rw [pushCommand_none ha]
  · rw [pushCommand_some ha, World.enqueue]
    split <;> rfl

/-- A completion pushes nothing. -/
theorem complete_pushed {w w' : World} {h : Nat} {c : Completion} (hr : World.machine.Reachable w)
    (hs : w.step (.complete h c) = some w') : w'.pushed = w.pushed := by
  cases world_step_effect (connsWf_reachable hr) hs <;> rfl

omit [JsonLibrary] in
/-- The receive loop is armed in every session, whatever has been received. -/
theorem armed_reachable {c : MqttClient} (h : MqttClient.machine.Reachable c) :
    ∀ s, c.session = some s → s.receiving = true := by
  refine h.invariant (P := fun c => ∀ s, c.session = some s → s.receiving = true) ?_ ?_
  · intro s hs
    exact absurd hs (by simp [MqttClient.machine, MqttClient.new])
  · intro c a c' hr harmed _ hstep s' hs'
    have hcase := client_step_cases (sessionRuns_reachable hr) hstep
    cases hcase with
    | subscribeIdle hs => exact harmed s' hs'
    | @subscribeRunning _ s hs => obtain rfl := Option.some.inj hs'; exact harmed s hs
    | startRunning hs => exact harmed s' hs'
    | start hs => obtain rfl := Option.some.inj hs'; rfl
    | stopIdle hs => exact harmed s' hs'
    | stop hs => exact absurd hs' (by simp)
    | @flush s _ hs hp => obtain rfl := Option.some.inj hs'; exact harmed s hs
    | @doSubscribe s _ _ hs hp => obtain rfl := Option.some.inj hs'; exact harmed s hs
    | message hs hr => obtain rfl := Option.some.inj hs'; rfl
    | error hs hr => obtain rfl := Option.some.inj hs'; rfl

/-- The steps of the gateway. -/
inductive GatewayStep (g : Gateway) : Gateway.Action → Gateway → Prop where
  | command {m : Message} {cmd : GatewayCommand} {c : MqttClient}
      (hc : g.mqtt.step .message = some c) (hm : Carries m cmd) :
      GatewayStep g (.receive m)
        { g with mqtt := c, trips := applied g.trips cmd, received := g.received ++ [m] }
  | rejected {m : Message} {c : MqttClient} (hc : g.mqtt.step .message = some c)
      (hm : accepts m = false) :
      GatewayStep g (.receive m) { g with mqtt := c, received := g.received ++ [m] }
  | client {a : MqttClient.Action} {c : MqttClient} (hc : g.mqtt.step a = some c) :
      GatewayStep g (.client a) { g with mqtt := c }
  | complete {h : Nat} {c : Completion} {w : World}
      (hw : g.trips.world.step (.complete h c) = some w) :
      GatewayStep g (.complete h c) { g with trips := { g.trips with world := w } }

theorem gateway_step_cases {g g' : Gateway} {a : Gateway.Action} (h : g.step a = some g') :
    g.trips.world.fault = false ∧ GatewayStep g a g' := by
  unfold Gateway.step at h
  split at h
  · exact absurd h (by simp)
  rename_i hrun
  simp only [Bool.or_eq_true, not_or, Bool.not_eq_true] at hrun
  refine ⟨hrun.2, ?_⟩
  cases a with
  | receive m =>
      obtain ⟨c, hc, rfl⟩ := Option.map_eq_some_iff.mp h
      have hclient : g.mqtt.step .message = some c.beforeCallback.rearm := by
        simp only [MqttClient.step, hc, Option.map_some]
      simp only [Gateway.onMessage]
      rcases dispatch_spec m g.trips with ⟨cmd, hcarries, hrun⟩ | ⟨haccepts, hrun⟩
      · rw [hrun]
        exact .command hclient hcarries
      · rw [hrun]
        exact .rejected hclient haccepts
  | client a =>
      cases a with
      | message => exact absurd h (by simp)
      | _ => obtain ⟨c, hc, rfl⟩ := Option.map_eq_some_iff.mp h; exact .client hc
  | complete i c =>
      obtain ⟨w, hw, rfl⟩ := Option.map_eq_some_iff.mp h
      exact .complete hw

/--
What the messages received have led to. The last two say what is pushed and what
is noted; the client and the handlers do what they do on their own.
-/
structure Delivered (g : Gateway) : Prop where
  alive : g.terminated = false
  client : MqttClient.machine.Reachable g.mqtt
  world : World.machine.Reachable g.trips.world
  pushed : List.Forall₂ Carries (g.received.filter (fun m => accepts m)) g.trips.world.pushed
  ids : g.trips.ids = g.trips.world.pushed.foldl noted .new

theorem delivered_step {g g' : Gateway} {a : Gateway.Action} (hg : Delivered g)
    (h : g.step a = some g') : Delivered g' := by
  obtain ⟨hfault, hcase⟩ := gateway_step_cases h
  cases hcase with
  | @command m cmd c hc hm =>
      have haccepts : accepts m = true := (accepts_iff_carries m).mpr ⟨cmd, hm⟩
      refine ⟨hg.alive, hg.client.step (a := .message) hc, ?_, ?_, ?_⟩
      · exact hg.world.step (a := .push cmd) (by
          simp [World.machine, World.step, hfault, applied])
      · simp only [applied, pushCommand_pushed, List.filter_append, List.filter_cons, haccepts,
          if_true, List.filter_nil]
        exact List.rel_append hg.pushed (.cons hm .nil)
      · simp only [applied, pushCommand_pushed, List.foldl_append, List.foldl_cons, List.foldl_nil,
          ← hg.ids]
  | @rejected m c hc hm =>
      refine ⟨hg.alive, hg.client.step (a := .message) hc, hg.world, ?_, hg.ids⟩
      have hfilter : (g.received ++ [m]).filter (fun m => accepts m)
          = g.received.filter (fun m => accepts m) := by
        simp [List.filter_append, hm]
      simp only [hfilter]
      exact hg.pushed
  | @client a c hc =>
      exact ⟨hg.alive, hg.client.step (a := a) hc, hg.world, hg.pushed, hg.ids⟩
  | @complete i c w hw =>
      have hpushed := complete_pushed hg.world hw
      refine ⟨hg.alive, hg.client, hg.world.step (a := .complete i c) hw, ?_, ?_⟩
      · simp only [hpushed]
        exact hg.pushed
      · simp only [hpushed]
        exact hg.ids

theorem delivered_reachable {g : Gateway} (h : Gateway.machine.Reachable g) : Delivered g :=
  h.invariant (P := Delivered) ⟨rfl, .init, .init, .nil, rfl⟩
    (fun _ _ _ _ hg _ hs => delivered_step hg hs)

/-- The id of the trip a command moves. -/
def movedTo : GatewayCommand → Option Int64
  | .tripMove r => some r.tripId
  | .notSet | .tripInit _ | .tripPark _ | .orderUpdateLocation _ | .orderUpdateStatus _
  | .tripCancel _ => none

omit [JsonLibrary] in
/-- The trip id noted is that of the last `TripMove`. -/
theorem foldl_noted_tripId (cmds : List GatewayCommand) (ids : TripIds) :
    (cmds.foldl noted ids).tripId = (cmds.filterMap movedTo).getLastD ids.tripId := by
  induction cmds generalizing ids with
  | nil => rfl
  | cons cmd cmds ih =>
      rw [List.foldl_cons, ih (noted ids cmd), List.filterMap_cons]
      cases cmd with
      | tripMove r => simp only [movedTo, noted, List.getLastD_cons]
      | _ => rfl

/--
**The inbound pipeline.** Whatever has been received, the commands pushed are the
commands of the accepted messages, in order; the trip id is that of the last
`TripMove` among them; no exception has left the receive handler, and while the
client runs it is armed, so the next message finds it. A message that is not
accepted changes neither the ids nor what has been pushed, and `dispatch` returns
for every message.
-/
theorem inbound_pipeline {g : Gateway} (h : Gateway.machine.Reachable g) :
    List.Forall₂ Carries (g.received.filter (fun m => accepts m)) g.trips.world.pushed
      ∧ g.trips.ids.tripId = (g.trips.world.pushed.filterMap movedTo).getLastD 0
      ∧ g.terminated = false
      ∧ (∀ s, g.mqtt.session = some s → s.receiving = true)
      ∧ (∀ m, g.mqtt.started = true → g.trips.world.fault = false →
          ∃ g', g.step (.receive m) = some g' ∧ g'.received = g.received ++ [m])
      ∧ (∀ m : Message, accepts m = false →
          routes.dispatch m.topic m.payload g.trips = (.ok (), g.trips))
      ∧ ∀ m : Message, ∃ trips, routes.dispatch m.topic m.payload g.trips = (.ok (), trips) := by
  have hg := delivered_reachable h
  have harmed := armed_reachable hg.client
  refine ⟨hg.pushed, ?_, hg.alive, harmed, ?_, ?_, ?_⟩
  · rw [hg.ids]
    exact foldl_noted_tripId _ _
  · intro m hstarted hfault
    have hruns := sessionRuns_reachable hg.client
    obtain ⟨s, hs⟩ := Option.isSome_iff_exists.mp (hruns.started ▸ hstarted)
    have htake : g.mqtt.takeReceive.isSome = true := by
      simp [MqttClient.takeReceive, hs, harmed s hs]
    obtain ⟨c, hc⟩ := Option.isSome_iff_exists.mp htake
    refine ⟨({ g with mqtt := c } : Gateway).onMessage m, ?_, ?_⟩
    · simp [Gateway.step, hg.alive, hfault, hc]
    · simp only [Gateway.onMessage]
      split <;> rfl
  · intro m haccepts
    rcases dispatch_spec m g.trips with ⟨cmd, hcarries, _⟩ | ⟨_, hrun⟩
    · rw [(accepts_iff_carries m).mpr ⟨cmd, hcarries⟩] at haccepts
      exact absurd haccepts (by simp)
    · exact hrun
  · intro m
    rcases dispatch_spec m g.trips with ⟨cmd, _, hrun⟩ | ⟨_, hrun⟩
    · exact ⟨_, hrun⟩
    · exact ⟨_, hrun⟩

omit [JsonLibrary] in
/-- A `TripMove`, one without its latitude, and an order update of an unknown topic. -/
theorem inbound_pipeline_move :
    ∃ (_ : JsonLibrary) (g : Gateway), Gateway.machine.Reachable g
      ∧ g.received.length = 3
      ∧ g.trips.world.pushed = [.tripMove ⟨"V1", 7, ⟨0x3ff8000000000000⟩, ⟨0x4004000000000000⟩⟩]
      ∧ List.Forall₂ Carries (g.received.filter (fun m => accepts m)) g.trips.world.pushed
      ∧ g.trips.ids.tripId = 7 := by
  -- what the library makes of the payloads of this run
  let move := utf8
    "\x7b\"vinNumber\":\"V1\",\"tripId\":7,\"longitude\":1.5,\"latitude\":2.5\x7d"
  let half := utf8 "\x7b\"vinNumber\":\"V1\",\"tripId\":9,\"longitude\":1.5\x7d"
  let _ : JsonLibrary := libraryOf (fun _ => "") [
    (move, .obj [("latitude", .float ⟨0x4004000000000000⟩),
      ("longitude", .float ⟨0x3ff8000000000000⟩), ("tripId", .uint 7), ("vinNumber", .str "V1")]),
    (half, .obj [("longitude", .float ⟨0x3ff8000000000000⟩), ("tripId", .uint 9),
      ("vinNumber", .str "V1")])]
  obtain ⟨g, hr, hp⟩ := Machine.exists_reachable_of_run (M := Gateway.machine)
    (l := [.client (.subscribe (utf8 kTopicTripMove)), .client .start, .client .run,
      .receive ⟨utf8 kTopicTripMove, move⟩, .receive ⟨utf8 kTopicTripMove, half⟩,
      .receive ⟨utf8 "topic/trip", move⟩])
    (p := fun g => decide (g.received.length = 3 ∧ g.trips.world.pushed
      = [.tripMove ⟨"V1", 7, ⟨0x3ff8000000000000⟩, ⟨0x4004000000000000⟩⟩])) (by decide)
  obtain ⟨hlen, hpushed⟩ := of_decide_eq_true hp
  obtain ⟨hcarries, hid, _⟩ := inbound_pipeline hr
  refine ⟨_, g, hr, hlen, hpushed, hcarries, ?_⟩
  rw [hid, hpushed]
  rfl

end CloudGateway.Proof
