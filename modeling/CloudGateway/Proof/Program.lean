import CloudGateway.Proof.Connections
import CloudGateway.Proof.Pipeline
import CloudGateway.Program

/-!
# `main` as a program: what a step can do

`ProgramStep` lists what a step of `main` or of another thread does, and with what
it leaves the histories of the publications. The gateway within the program runs
the machine of the gateway, so what is proved of that, of the client and of the
stream handlers holds here.
-/

namespace CloudGateway.Proof

open Services Transport Proto Constants Reactive

/-! ## Publishing -/

/-- A publication, from the two strings `publish` is called with. -/
def publicationOf (r : String × String) : Publication := ⟨utf8 r.1, utf8 r.2⟩

theorem publish_running {p : Program} (h : SessionRuns p.gateway.mqtt)
    (hs : p.gateway.mqtt.started = true) (topic payload : String) :
    p.publish topic payload = { p with sent := p.sent ++ [publicationOf (topic, payload)] } := by
  have hsome : p.gateway.mqtt.session.isNone = false := by
    rw [← Option.not_isSome, ← h.started, hs]
    rfl
  simp [Program.publish, MqttClient.publish, hs, hsome, publicationOf]

theorem publish_stopped {p : Program} (hs : p.gateway.mqtt.started = false)
    (topic payload : String) :
    p.publish topic payload
      = { p with refused := p.refused ++ [publicationOf (topic, payload)] } := by
  simp [Program.publish, MqttClient.publish, hs, publicationOf]

/-- Where publications go: to the client while it is started, to nobody afterwards. -/
def deliver (p : Program) (xs : List Publication) : Program :=
  if p.gateway.mqtt.started then { p with sent := p.sent ++ xs }
  else { p with refused := p.refused ++ xs }

theorem deliver_nil (p : Program) : deliver p [] = p := by
  unfold deliver
  split <;> simp

theorem deliver_advance (p : Program) (xs : List Publication) (next : Statement) :
    { deliver p xs with next := next } = deliver { p with next := next } xs := by
  unfold deliver
  split <;> rfl

@[simp] theorem deliver_next (p : Program) (xs : List Publication) :
    (deliver p xs).next = p.next := by
  unfold deliver
  split <;> rfl

@[simp] theorem deliver_gateway (p : Program) (xs : List Publication) :
    (deliver p xs).gateway = p.gateway := by
  unfold deliver
  split <;> rfl

@[simp] theorem deliver_auth (p : Program) (xs : List Publication) :
    (deliver p xs).auth = p.auth := by
  unfold deliver
  split <;> rfl

theorem publishAll {p : Program} (h : SessionRuns p.gateway.mqtt) (rs : List (String × String)) :
    rs.foldl (fun p r => p.publish r.1 r.2) p = deliver p (rs.map publicationOf) := by
  cases hs : p.gateway.mqtt.started with
  | false =>
      induction rs generalizing p with
      | nil => rw [List.map_nil, deliver_nil]; rfl
      | cons r rs ih =>
          rw [List.foldl_cons, publish_stopped hs, ih (by exact h) (by exact hs)]
          simp [deliver, hs]
  | true =>
      induction rs generalizing p with
      | nil => rw [List.map_nil, deliver_nil]; rfl
      | cons r rs ih =>
          rw [List.foldl_cons, publish_running h hs, ih (by exact h) (by exact hs)]
          simp [deliver, hs]

/-! ## What the completion of an operation publishes -/

section Reports

variable [JsonText]

/-- What a completion makes its handler publish. -/
def reportOf : Completion → List (String × String)
  | .read (some ev) => (VehicleStreamHandler.handleIncoming ev).toList
  | _ => []

theorem step_published {k k' : Connection} {c : Completion} {flushed : List GatewayCommand}
    (hwf : Wf k) (h : k.step (.complete c flushed) = some k') :
    k'.published = k.published ++ reportOf c := by
  cases step_effect hwf h with
  | writeDone hs hw => simp [reportOf]
  | readOk hs hst => rfl
  | _ => exact (List.append_nil _).symm

/-- **A completion publishes what it has brought.** -/
theorem reports_of_step {w w' : World} {h : Nat} {c : Completion} (hr : World.machine.Reachable w)
    (hs : w.step (.complete h c) = some w') :
    (Program.publishedAt w' h).drop (Program.publishedAt w h).length = reportOf c := by
  have moved : ∀ {k k' : Connection} (ks : List Connection), Moves w h c k k' →
      w'.conns = w.conns.set h k' ++ ks →
      (Program.publishedAt w' h).drop (Program.publishedAt w h).length = reportOf c := by
    intro k k' ks hm hconns
    have hk' : w'.conns[h]? = some k' := by
      rw [hconns, List.getElem?_append_left (address_lt (set_at hm.1 k'))]
      exact set_at hm.1 k'
    have hwf := connsWf_reachable hr k (List.mem_of_getElem? hm.1)
    simp only [Program.publishedAt, hk', hm.1, Option.map_some, Option.getD_some]
    rw [step_published hwf hm.2, List.drop_left]
  by_cases hc : c = .request true
  · subst hc
    cases world_effect_reachable hr hs with
    | accepted hm => exact moved [.construct] hm rfl
  · obtain ⟨k, k', b, hm, rfl⟩ := completion_effect (world_effect_reachable hr hs) hc
    exact moved [] hm (List.append_nil _).symm

end Reports

/-! ## What a step can do -/

variable [JsonLibrary]

/-- The actions of the MQTT thread. -/
def mqttAction : Program.Action → Option Gateway.Action
  | .run => some (.client .run)
  | .receiveError => some (.client .error)
  | .receive m => some (.receive m)
  | _ => none

/-- **Everything a step can do to a program whose client runs as it should.** -/
inductive ProgramStep (cfg : Settings) (p : Program) : Program.Action → Program → Prop where
  | declared (hn : p.next = .declareSubscriber) :
      ProgramStep cfg p .declareSubscriber { p with next := .setup }
  | setup {replies : List HttpResponse} {w : AuthWorld} (hn : p.next = .setup)
      (hw : p.auth.step (.setup replies) = some w) :
      ProgramStep cfg p (.setup replies) { p with next := .createVehicle, auth := w }
  | created {replies : List HttpResponse} {saves : List SaveOutcome} {w : AuthWorld}
      (hn : p.next = .createVehicle)
      (hw : p.auth.step (.createVehicle false false replies saves) = some w) :
      ProgramStep cfg p (.createVehicle replies saves) { p with next := .vechileLogin, auth := w }
  /-- The vehicle is not logged in. -/
  | refused {replies : List HttpResponse} {saves : List SaveOutcome} {w : AuthWorld}
      (hn : p.next = .vechileLogin) (hw : (p.auth.given replies saves).vechileLogin = (false, w)) :
      ProgramStep cfg p (.vechileLogin replies saves) { p with next := .startServer, auth := w }
  | loggedIn {replies : List HttpResponse} {saves : List SaveOutcome} {w : AuthWorld}
      {text : String} (hn : p.next = .vechileLogin)
      (hw : (p.auth.given replies saves).vechileLogin = (true, w))
      (ht : startLocation cfg = .ok text) :
      ProgramStep cfg p (.vechileLogin replies saves)
        (deliver { p with next := .startServer, auth := w }
          [publicationOf (kTopicUpdateLocation, text)])
  /-- The vehicle is logged in, and its location cannot be printed. -/
  | thrown {replies : List HttpResponse} {saves : List SaveOutcome} {w : AuthWorld}
      {e : JsonException} (hn : p.next = .vechileLogin)
      (hw : (p.auth.given replies saves).vechileLogin = (true, w))
      (ht : startLocation cfg = .error e) :
      ProgramStep cfg p (.vechileLogin replies saves)
        { p with
          next := .startServer
          auth := w
          gateway := { p.gateway with terminated := true } }
  | served (hn : p.next = .startServer) : ProgramStep cfg p .startServer { p with next := .wait }
  | returned {g : Gateway} (hn : p.next = .wait)
      (hg : p.gateway.step (.client .stop) = some g) :
      ProgramStep cfg p .shutdown { p with next := .returned, gateway := g }
  | mqtt {a : Program.Action} {b : Gateway.Action} {g : Gateway} (ha : mqttAction a = some b)
      (hg : p.gateway.step b = some g) : ProgramStep cfg p a { p with gateway := g }
  | located {payload : Bytes} {text : String} (hl : p.locating = true)
      (ht : locationMessage cfg.vinNumber payload = .ok text) :
      ProgramStep cfg p (.location payload)
        (deliver p [publicationOf (kTopicStreamLocation, text)])
  | unlocated {payload : Bytes} {e : JsonException} (hl : p.locating = true)
      (ht : locationMessage cfg.vinNumber payload = .error e) :
      ProgramStep cfg p (.location payload) p
  | completed {h : Nat} {c : Completion} {g : Gateway} (hs : p.serving = true)
      (hg : p.gateway.step (.complete h c) = some g) :
      ProgramStep cfg p (.complete h c)
        (deliver { p with gateway := g } ((reportOf c).map publicationOf))
  | replaced {file : Option Bytes} :
      ProgramStep cfg p (.replaceFile file) { p with auth := { p.auth with file := file } }

omit [JsonLibrary] in
theorem advance_some {p p' q : Program} {here next : Statement}
    (h : p.advance here next p' = some q) : p.next = here ∧ q = { p' with next := next } := by
  unfold Program.advance at h
  split at h
  · exact ⟨by assumption, (Option.some.inj h).symm⟩
  · exact absurd h (by simp)

theorem program_step_cases {cfg : Settings} {p p' : Program} {a : Program.Action}
    (hc : SessionRuns p.gateway.mqtt) (hr : World.machine.Reachable p.gateway.trips.world)
    (h : p.step cfg a = some p') : ProgramStep cfg p a p' := by
  unfold Program.step at h
  split at h
  · exact absurd h (by simp)
  rename_i hrun
  cases a with
  | declareSubscriber =>
      obtain ⟨hn, rfl⟩ := advance_some h
      exact .declared hn
  | setup replies =>
      obtain ⟨hn, rfl⟩ := advance_some h
      exact .setup hn rfl
  | createVehicle replies saves =>
      obtain ⟨hn, rfl⟩ := advance_some h
      exact .created hn rfl
  | vechileLogin replies saves =>
      obtain ⟨hn, rfl⟩ := advance_some h
      obtain ⟨loggedIn, w, hw⟩ : ∃ loggedIn w,
          (p.auth.given replies saves).vechileLogin = (loggedIn, w) := ⟨_, _, rfl⟩
      unfold Program.login
      rw [hw]
      cases loggedIn with
      | false => exact .refused hn hw
      | true =>
          dsimp only
          cases ht : startLocation cfg with
          | error e => exact .thrown hn hw ht
          | ok text =>
              have hpublish := publishAll (p := { p with auth := w }) hc
                [(kTopicUpdateLocation, text)]
              rw [List.foldl_cons, List.foldl_nil] at hpublish
              simp only [if_true, hpublish, deliver_advance]
              exact .loggedIn hn hw ht
  | startServer =>
      obtain ⟨hn, rfl⟩ := advance_some h
      exact .served hn
  | shutdown =>
      obtain ⟨hn, rfl⟩ := advance_some h
      exact .returned hn (by simp [Gateway.step, hrun, MqttClient.step])
  | run =>
      obtain ⟨g, hg, rfl⟩ := Option.map_eq_some_iff.mp h
      exact .mqtt rfl hg
  | receiveError =>
      obtain ⟨g, hg, rfl⟩ := Option.map_eq_some_iff.mp h
      exact .mqtt rfl hg
  | receive m =>
      obtain ⟨g, hg, rfl⟩ := Option.map_eq_some_iff.mp h
      exact .mqtt rfl hg
  | location payload =>
      simp only at h
      split at h
      case isFalse => exact absurd h (by simp)
      rename_i hl
      split at h
      · rename_i text ht
        obtain rfl := Option.some.inj h
        have := publishAll hc [(kTopicStreamLocation, text)]
        rw [List.foldl_cons, List.foldl_nil] at this
        rw [this]
        exact .located hl ht
      · rename_i e ht
        obtain rfl := Option.some.inj h
        exact .unlocated hl ht
  | complete i c =>
      simp only at h
      split at h
      case isFalse => exact absurd h (by simp)
      rename_i hserving
      obtain ⟨g, hg, rfl⟩ := Option.map_eq_some_iff.mp h
      obtain ⟨hfault, hcase⟩ := gateway_step_cases hg
      cases hcase with
      | complete hw =>
          rw [reports_of_step hr hw, publishAll (by exact hc)]
          exact .completed hserving hg
  | replaceFile file =>
      obtain rfl := Option.some.inj h
      exact .replaced

/-! ## The parts of a program -/

/--
The parts of a program are in states that their own machines reach, but for an
exception that has left `main`.
-/
structure PartsReached (config : Config) (p : Program) : Prop where
  gateway : ∃ g, Gateway.machine.Reachable g
    ∧ p.gateway = { g with terminated := p.gateway.terminated }
  auth : (AuthWorld.machine config).Reachable p.auth

section Parts

variable {cfg : Settings} {config : Config} {p p' : Program} {a : Program.Action}

theorem PartsReached.client (h : PartsReached config p) :
    MqttClient.machine.Reachable p.gateway.mqtt := by
  obtain ⟨g, hg, heq⟩ := h.gateway
  rw [heq]
  exact (delivered_reachable hg).client

theorem PartsReached.world (h : PartsReached config p) :
    World.machine.Reachable p.gateway.trips.world := by
  obtain ⟨g, hg, heq⟩ := h.gateway
  rw [heq]
  exact (delivered_reachable hg).world

/-- A program that takes steps has a gateway that its machine reaches. -/
theorem PartsReached.running (h : PartsReached config p) (hrun : p.gateway.terminated = false) :
    Gateway.machine.Reachable p.gateway := by
  obtain ⟨g, hg, heq⟩ := h.gateway
  have halive := (delivered_reachable hg).alive
  rw [heq, hrun, ← halive]
  exact hg

theorem gateway_started : Gateway.machine.Reachable Gateway.started := by
  have hrun : Gateway.machine.run Gateway.machine.init
      (commandTopics.map (fun t => .client (.subscribe t)) ++ [.client .start])
      = some Gateway.started := rfl
  exact Machine.reachable_of_run hrun

theorem step_running (h : p.step cfg a = some p') : p.gateway.terminated = false := by
  unfold Program.step at h
  split at h
  · exact absurd h (by simp)
  · rename_i hrun
    simp only [Bool.or_eq_true, not_or, Bool.not_eq_true] at hrun
    exact hrun.1

theorem partsReached_step (hp : PartsReached config p) (h : p.step cfg a = some p') :
    PartsReached config p' := by
  have hgateway := hp.running (step_running h)
  have hnext : ∀ {b g}, p.gateway.step b = some g →
      ∃ g', Gateway.machine.Reachable g' ∧ g = { g' with terminated := g.terminated } :=
    fun {b g} hg => ⟨g, hgateway.step (a := b) hg, rfl⟩
  have hauth : ∀ {b w}, p.auth.step b = some w → (AuthWorld.machine config).Reachable w :=
    fun hw => hp.auth.step hw
  have hlogin : ∀ {replies saves loggedIn w},
      (p.auth.given replies saves).vechileLogin = (loggedIn, w) →
      (AuthWorld.machine config).Reachable w := by
    intro replies saves loggedIn w hw
    refine hauth (b := .vechileLogin replies saves) ?_
    simp only [AuthWorld.step, hw]
  cases program_step_cases (sessionRuns_reachable hp.client) hp.world h with
  | declared hn => exact ⟨hp.gateway, hp.auth⟩
  | setup hn hw => exact ⟨hp.gateway, hauth hw⟩
  | created hn hw => exact ⟨hp.gateway, hauth hw⟩
  | refused hn hw => exact ⟨hp.gateway, hlogin hw⟩
  | loggedIn hn hw ht =>
      refine ⟨?_, ?_⟩
      · rw [deliver_gateway]; exact hp.gateway
      · rw [deliver_auth]; exact hlogin hw
  | thrown hn hw ht => exact ⟨⟨p.gateway, hgateway, rfl⟩, hlogin hw⟩
  | served hn => exact ⟨hp.gateway, hp.auth⟩
  | returned hn hg => exact ⟨hnext hg, hp.auth⟩
  | mqtt ha hg => exact ⟨hnext hg, hp.auth⟩
  | located hl ht =>
      refine ⟨?_, ?_⟩
      · rw [deliver_gateway]; exact hp.gateway
      · rw [deliver_auth]; exact hp.auth
  | unlocated hl ht => exact hp
  | completed hs hg =>
      refine ⟨?_, ?_⟩
      · rw [deliver_gateway]; exact hnext hg
      · rw [deliver_auth]; exact hp.auth
  | replaced => exact ⟨hp.gateway, hp.auth.step (a := .replaceFile _) rfl⟩

theorem partsReached_reachable (h : (Program.machine cfg config).Reachable p) :
    PartsReached config p :=
  h.invariant (P := PartsReached config) ⟨⟨_, gateway_started, rfl⟩, .init⟩
    (fun _ _ _ _ hp _ hs => partsReached_step hp hs)

/-- **What a step of a reachable program does.** -/
theorem program_step (hr : (Program.machine cfg config).Reachable p)
    (h : p.step cfg a = some p') : ProgramStep cfg p a p' :=
  have hp := partsReached_reachable hr
  program_step_cases (sessionRuns_reachable hp.client) hp.world h

end Parts

end CloudGateway.Proof
