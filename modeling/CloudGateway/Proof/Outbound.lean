import CloudGateway.Proof.Exchanges
import CloudGateway.Proof.Program

/-!
# The outbound pipeline

The MQTT client is one, and three threads publish through it: `main` after the
login of the vehicle, the Zenoh thread for every location it can read, and the
completion-queue thread for every report. `offered` says what an action has to
publish, whatever the state it is taken in, and `outbound_pipeline` that this is
what the client is given, in the order in which the actions are taken, until it is
stopped.

What goes out does not come back in: no topic that is published has a route.
-/

namespace CloudGateway.Proof

open Services Transport Proto Constants Reactive

/-! ## The actions before and after the stop -/

/-- What happens while the client is started. -/
def beforeStop (as : List Program.Action) : List Program.Action :=
  as.takeWhile (fun a => a != .shutdown)

/-- What happens from then on. -/
def afterStop (as : List Program.Action) : List Program.Action :=
  as.dropWhile (fun a => a != .shutdown)

theorem beforeStop_shutdown (as : List Program.Action) : beforeStop (.shutdown :: as) = [] := by
  simp [beforeStop]

theorem afterStop_shutdown (as : List Program.Action) :
    afterStop (.shutdown :: as) = .shutdown :: as := by
  simp [afterStop]

theorem beforeStop_cons {a : Program.Action} (h : a ≠ .shutdown) (as : List Program.Action) :
    beforeStop (a :: as) = a :: beforeStop as := by
  simp [beforeStop, h]

theorem afterStop_cons {a : Program.Action} (h : a ≠ .shutdown) (as : List Program.Action) :
    afterStop (a :: as) = afterStop as := by
  simp [afterStop, h]

/-! ## The login of the vehicle -/

/-- `main` is past `auth.vechile_login()`. -/
def loginDone : Statement → Bool
  | .startServer | .wait | .returned => true
  | .declareSubscriber | .setup | .createVehicle | .vechileLogin => false

variable [JsonLibrary]

/-- `vechile_login` returns whether the vehicle is logged in. -/
theorem vechileLogin_returns {w w' : AuthWorld} {loggedIn : Bool}
    (h : w.vechileLogin = (loggedIn, w')) : w'.auth.vechileAuthenticated = loggedIn := by
  have hpost : ∀ {w : AuthWorld}, w.auth.vechileAuthenticated = false →
      w.postVehicleLogin.2.auth.vechileAuthenticated = w.postVehicleLogin.1 := by
    intro w hauth
    unfold AuthWorld.postVehicleLogin
    simp only [post_eq]
    split
    · exact hauth
    · split
      · exact hauth
      · exact hauth
      · rfl
  suffices w.vechileLogin.2.auth.vechileAuthenticated = w.vechileLogin.1 by rwa [h] at this
  unfold AuthWorld.vechileLogin
  split
  · assumption
  · rename_i hauth
    have hauth : w.auth.vechileAuthenticated = false := Bool.not_eq_true _ ▸ hauth
    split
    · rw [load_spec]
      cases (w.reading .loaded w.file).succeeded with
      | false => exact hauth
      | true => exact hpost hauth
    · exact hpost hauth

/-- `main` does not log the vehicle in twice. -/
theorem loginDone_step {cfg : Settings} {p p' : Program} {a : Program.Action}
    (h : ProgramStep cfg p a p') (hdone : loginDone p.next = true) :
    loginDone p'.next = true ∧ p'.auth.auth = p.auth.auth := by
  have hbefore : ∀ {here}, loginDone here = false → p.next = here → False := by
    intro here hhere hn
    rw [hn, hhere] at hdone
    exact Bool.noConfusion hdone
  cases h with
  | declared hn => exact (hbefore rfl hn).elim
  | setup hn hw => exact (hbefore rfl hn).elim
  | created hn hw => exact (hbefore rfl hn).elim
  | refused hn hw => exact (hbefore rfl hn).elim
  | loggedIn hn hw ht => exact (hbefore rfl hn).elim
  | thrown hn hw ht => exact (hbefore rfl hn).elim
  | served hn => exact ⟨rfl, rfl⟩
  | returned hn hg => exact ⟨rfl, rfl⟩
  | mqtt ha hg => exact ⟨hdone, rfl⟩
  | located hl ht => rw [deliver_next, deliver_auth]; exact ⟨hdone, rfl⟩
  | unlocated hl ht => exact ⟨hdone, rfl⟩
  | completed hs hg => rw [deliver_next, deliver_auth]; exact ⟨hdone, rfl⟩
  | replaced => exact ⟨hdone, rfl⟩

/-! ## What an action has to publish -/

/-- A publication on a topic, if there is a text for it. -/
def publicationOn (topic : String) (text : Except JsonException String) : List Publication :=
  text.toOption.toList.map (fun t => publicationOf (topic, t))

/-- What an action gives to `mqtt.publish`; `loggedIn` is what the login returns. -/
def offered (cfg : Settings) (loggedIn : Bool) : Program.Action → List Publication
  | .vechileLogin _ _ =>
      if loggedIn then publicationOn kTopicUpdateLocation (startLocation cfg) else []
  | .location payload => publicationOn kTopicStreamLocation (locationMessage cfg.vinNumber payload)
  | .complete _ c => (reportOf c).map publicationOf
  | _ => []

theorem started_step {p : Program} {a : Program.Action} {b : Gateway.Action} {g : Gateway}
    (hc : SessionRuns p.gateway.mqtt) (ha : mqttAction a = some b)
    (hg : p.gateway.step b = some g) : g.mqtt.started = p.gateway.mqtt.started := by
  obtain ⟨_, hcase⟩ := gateway_step_cases hg
  have hclient : ∀ {x c}, x ≠ .start → x ≠ .stop → p.gateway.mqtt.step x = some c →
      c.started = p.gateway.mqtt.started := by
    intro x c hstart hstop hx
    cases client_step_cases hc hx with
    | start hs => exact absurd rfl hstart
    | stop hs => exact absurd rfl hstop
    | _ => rfl
  cases a with
  | run =>
      obtain rfl := Option.some.inj ha
      cases hcase with
      | client hx => exact hclient (by simp) (by simp) hx
  | receiveError =>
      obtain rfl := Option.some.inj ha
      cases hcase with
      | client hx => exact hclient (by simp) (by simp) hx
  | receive m =>
      obtain rfl := Option.some.inj ha
      cases hcase with
      | command hx hm => exact hclient (by simp) (by simp) hx
      | rejected hx hm => exact hclient (by simp) (by simp) hx
  | _ => exact absurd ha (by simp [mqttAction])

/-- What becomes of publications: the client is given them while it is started. -/
structure Publishes (p : Program) (xs : List Publication) (p' : Program) : Prop where
  sent : p'.sent = p.sent ++ if p.gateway.mqtt.started then xs else []
  refused : p'.refused = p.refused ++ if p.gateway.mqtt.started then [] else xs

omit [JsonLibrary] in
theorem publishes_deliver (p : Program) (xs : List Publication) :
    Publishes p xs (deliver p xs) := by
  unfold deliver
  split
  · rename_i hs
    exact ⟨by rw [if_pos hs], by rw [if_pos hs, List.append_nil]⟩
  · rename_i hs
    exact ⟨by rw [if_neg hs, List.append_nil], by rw [if_neg hs]⟩

omit [JsonLibrary] in
theorem publishes_nothing {p p' : Program} (hsent : p'.sent = p.sent)
    (hrefused : p'.refused = p.refused) : Publishes p [] p' := by
  refine ⟨?_, ?_⟩
  · rw [ite_self, List.append_nil, hsent]
  · rw [ite_self, List.append_nil, hrefused]

/-- **A step publishes what its action has to publish.** -/
theorem step_publishes {cfg : Settings} {p p' : Program} {a : Program.Action}
    (h : ProgramStep cfg p a p') :
    Publishes p (offered cfg p'.auth.auth.vechileAuthenticated a) p' := by
  cases h with
  | declared hn => exact publishes_nothing rfl rfl
  | setup hn hw => exact publishes_nothing rfl rfl
  | created hn hw => exact publishes_nothing rfl rfl
  | refused hn hw =>
      have hout := vechileLogin_returns hw
      simp only [offered, hout]
      exact publishes_nothing rfl rfl
  | @loggedIn _ _ w _ hn hw ht =>
      have hout := vechileLogin_returns hw
      simp only [deliver_auth, offered, hout, if_true, publicationOn, ht]
      obtain ⟨hsent, hrefused⟩ := publishes_deliver
        { p with next := .startServer, auth := w } [publicationOf (kTopicUpdateLocation, _)]
      exact ⟨hsent, hrefused⟩
  | thrown hn hw ht =>
      have hout := vechileLogin_returns hw
      simp only [offered, hout, if_true, publicationOn, ht]
      exact publishes_nothing rfl rfl
  | served hn => exact publishes_nothing rfl rfl
  | returned hn hg => exact publishes_nothing rfl rfl
  | @mqtt a b g ha hg =>
      cases a with
      | run => exact publishes_nothing rfl rfl
      | receiveError => exact publishes_nothing rfl rfl
      | receive m => exact publishes_nothing rfl rfl
      | _ => exact absurd ha (by simp [mqttAction])
  | located hl ht =>
      simp only [offered, publicationOn, ht]
      exact publishes_deliver p _
  | unlocated hl ht =>
      simp only [offered, publicationOn, ht]
      exact publishes_nothing rfl rfl
  | @completed i c g hs hg =>
      obtain ⟨_, hcase⟩ := gateway_step_cases hg
      cases hcase with
      | complete hw =>
          obtain ⟨hsent, hrefused⟩ := publishes_deliver
            { p with gateway := _ } ((reportOf c).map publicationOf)
          exact ⟨hsent, hrefused⟩
  | replaced => exact publishes_nothing rfl rfl

/-- The client is started until `main` stops it. -/
theorem step_started {cfg : Settings} {p p' : Program} {a : Program.Action}
    (hc : SessionRuns p.gateway.mqtt) (h : ProgramStep cfg p a p') :
    p'.gateway.mqtt.started = (p.gateway.mqtt.started && a != .shutdown) := by
  have hkept : a ≠ .shutdown → p'.gateway.mqtt.started = p.gateway.mqtt.started →
      p'.gateway.mqtt.started = (p.gateway.mqtt.started && a != .shutdown) := by
    intro ha hsame
    rw [hsame, bne_iff_ne.mpr ha, Bool.and_true]
  cases h with
  | returned hn hg =>
      obtain ⟨_, hcase⟩ := gateway_step_cases hg
      cases hcase with
      | client hx =>
          rw [bne_self_eq_false, Bool.and_false]
          cases client_step_cases hc hx with
          | stopIdle hs => rw [hc.started, hs]; rfl
          | stop hs => rfl
  | mqtt ha hg =>
      refine hkept ?_ (started_step hc ha hg)
      rintro rfl
      exact absurd ha (by simp [mqttAction])
  | located hl ht => exact hkept (by simp) (by rw [deliver_gateway])
  | loggedIn hn hw ht => exact hkept (by simp) (by rw [deliver_gateway])
  | completed hs hg =>
      obtain ⟨_, hcase⟩ := gateway_step_cases hg
      cases hcase with
      | complete hw => exact hkept (by simp) (by rw [deliver_gateway])
  | _ => exact hkept (by simp) rfl

/-! ## Runs -/

/-- What a run publishes, and that it does not log the vehicle in again. -/
structure RunPublishes (cfg : Settings) (p : Program) (as : List Program.Action)
    (t : Program) : Prop where
  login : loginDone p.next = true → t.auth.auth = p.auth.auth
  sent : t.sent = p.sent ++ (if p.gateway.mqtt.started then beforeStop as else []).flatMap
    (offered cfg t.auth.auth.vechileAuthenticated)
  refused : t.refused = p.refused ++ (if p.gateway.mqtt.started then afterStop as else as).flatMap
    (offered cfg t.auth.auth.vechileAuthenticated)

theorem runPublishes_cons {cfg : Settings} {p p' t : Program} {a : Program.Action}
    {as : List Program.Action} (hc : SessionRuns p.gateway.mqtt) (h : ProgramStep cfg p a p')
    (hrest : RunPublishes cfg p' as t) : RunPublishes cfg p (a :: as) t := by
  have hstarted := step_started hc h
  obtain ⟨hsent, hrefused⟩ := step_publishes h
  -- the result of the login is final once it has been used
  have hfinal : offered cfg p'.auth.auth.vechileAuthenticated a
      = offered cfg t.auth.auth.vechileAuthenticated a := by
    cases a with
    | vechileLogin replies saves =>
        have hdone : loginDone p'.next = true := by
          cases h with
          | refused hn hw => rfl
          | loggedIn hn hw ht => rw [deliver_next]; rfl
          | thrown hn hw ht => rfl
          | mqtt ha hg => exact absurd ha (by simp [mqttAction])
        rw [hrest.login hdone]
    | _ => rfl
  rw [hfinal] at hsent hrefused
  refine ⟨?_, ?_, ?_⟩
  · intro hdone
    obtain ⟨hdone', hsame⟩ := loginDone_step h hdone
    rw [hrest.login hdone', hsame]
  · rw [hrest.sent, hsent, hstarted, List.append_assoc]
    cases p.gateway.mqtt.started with
    | false => rfl
    | true =>
        by_cases ha : a = .shutdown
        · subst ha
          simp [beforeStop_shutdown, offered]
        · simp [beforeStop_cons ha, ha]
  · rw [hrest.refused, hrefused, hstarted, List.append_assoc]
    cases p.gateway.mqtt.started with
    | false => simp
    | true =>
        by_cases ha : a = .shutdown
        · subst ha
          simp [afterStop_shutdown, offered]
        · simp [afterStop_cons ha, ha]

theorem runPublishes {cfg : Settings} {config : Config} {p t : Program}
    {as : List Program.Action} (hr : (Program.machine cfg config).Reachable p)
    (h : (Program.machine cfg config).run p as = some t) : RunPublishes cfg p as t := by
  refine Machine.Reachable.run_rule (M := Program.machine cfg config)
    (P := RunPublishes cfg) ?_ ?_ hr (fun _ _ => trivial) h
  · intro p
    refine ⟨fun _ => rfl, ?_, ?_⟩
    · rw [show beforeStop [] = [] from rfl, ite_self, List.flatMap_nil, List.append_nil]
    · rw [show afterStop [] = [] from rfl, ite_self, List.flatMap_nil, List.append_nil]
  · intro p a p' as t hp _ hstep hrest
    exact runPublishes_cons (sessionRuns_reachable (partsReached_reachable hp).client)
      (program_step hp hstep) hrest

/-! ## What comes back -/

/-- The topics that are published on. -/
def publishedTopics : List Bytes :=
  [utf8 kTopicTripEta, utf8 kTopicTripStatus, utf8 kTopicTripArrive, utf8 kTopicUpdateLocation,
   utf8 kTopicStreamLocation]

theorem report_topic {c : Completion} {r : String × String} (h : r ∈ reportOf c) :
    utf8 r.1 ∈ publishedTopics := by
  have hread : ∀ ev, VehicleStreamHandler.handleIncoming ev = some r →
      utf8 r.1 ∈ publishedTopics := by
    intro ev hev
    cases ev with
    | eta e => obtain rfl := Option.some.inj hev; simp [publishedTopics]
    | status e => obtain rfl := Option.some.inj hev; simp [publishedTopics]
    | arrive e => obtain rfl := Option.some.inj hev; simp [publishedTopics]
    | location e => obtain rfl := Option.some.inj hev; simp [publishedTopics]
    | _ => exact absurd hev (by simp [VehicleStreamHandler.handleIncoming])
  cases c with
  | read ev =>
      cases ev with
      | none => exact absurd h List.not_mem_nil
      | some ev => exact hread ev (Option.mem_toList.mp h)
  | _ => exact absurd h List.not_mem_nil

theorem offered_topic {cfg : Settings} {b : Bool} {a : Program.Action} {x : Publication}
    (h : x ∈ offered cfg b a) : x.topic ∈ publishedTopics := by
  have hon : ∀ {topic text}, utf8 topic ∈ publishedTopics → x ∈ publicationOn topic text →
      x.topic ∈ publishedTopics := by
    intro topic text htopic hx
    obtain ⟨t, _, rfl⟩ := List.mem_map.mp hx
    exact htopic
  cases a with
  | vechileLogin replies saves =>
      cases b with
      | false => exact absurd h List.not_mem_nil
      | true => exact @hon kTopicUpdateLocation _ (by simp [publishedTopics]) h
  | location payload =>
      exact @hon kTopicStreamLocation _ (by simp [publishedTopics]) h
  | complete i c =>
      obtain ⟨r, hr, rfl⟩ := List.mem_map.mp h
      exact report_topic hr
  | _ => exact absurd h List.not_mem_nil

/-- There is a route for what is subscribed to, and for nothing else. -/
theorem route_iff {topic : Bytes} :
    (routes.handlers.lookup topic).isSome = true ↔ topic ∈ commandTopics := by
  have htopics : routes.handlers.map (·.1) = commandTopics.reverse := rfl
  rw [← List.mem_reverse, ← htopics, List.lookup_isSome_iff, List.mem_map]
  refine exists_congr (fun e => and_congr_right (fun _ => ?_))
  rw [beq_iff_eq, eq_comm]

omit [JsonLibrary] in
theorem publishedTopics_disjoint : ∀ topic ∈ publishedTopics, topic ∉ commandTopics := by decide

/--
**The outbound pipeline.** Take any run of `main` and its threads. Up to the stop
of the client, `async_publish` has been given exactly what the actions have to
publish, in the order of the actions: the start location if the vehicle has been
logged in, every location that could be read, every report of a vehicle. A start
location with a VIN that is not UTF-8 cannot be printed, which ends `main` before it
is published. From the stop on, exactly the same is refused instead. And nothing of it
is on a topic that the gateway itself is subscribed to or has a route for.
-/
theorem outbound_pipeline {cfg : Settings} {config : Config} {as : List Program.Action}
    {t : Program} (h : (Program.machine cfg config).run (.start config) as = some t) :
    t.sent = (beforeStop as).flatMap (offered cfg t.auth.auth.vechileAuthenticated)
      ∧ t.refused = (afterStop as).flatMap (offered cfg t.auth.auth.vechileAuthenticated)
      ∧ ∀ x ∈ t.sent ++ t.refused,
          x.topic ∉ commandTopics ∧ routes.handlers.lookup x.topic = none := by
  have hrun : RunPublishes cfg (.start config) as t := runPublishes .init h
  have hsent : t.sent = (beforeStop as).flatMap (offered cfg t.auth.auth.vechileAuthenticated) :=
    hrun.sent
  have hrefused : t.refused
      = (afterStop as).flatMap (offered cfg t.auth.auth.vechileAuthenticated) := hrun.refused
  refine ⟨hsent, hrefused, ?_⟩
  intro x hx
  have htopic : x.topic ∈ publishedTopics := by
    rw [hsent, hrefused, ← List.flatMap_append, List.mem_flatMap] at hx
    obtain ⟨a, _, ha⟩ := hx
    exact offered_topic ha
  have hnone := publishedTopics_disjoint _ htopic
  refine ⟨hnone, ?_⟩
  rw [← Option.not_isSome_iff_eq_none, route_iff]
  exact hnone

omit [JsonLibrary] in
/-- A location, a report, and a report that comes after the stop. -/
theorem outbound_pipeline_reports :
    ∃ (_ : JsonLibrary) (cfg : Settings) (as : List Program.Action) (t : Program),
      (Program.machine cfg {}).run (.start {}) as = some t
        ∧ t.sent.map (·.topic) = [utf8 kTopicStreamLocation, utf8 kTopicTripStatus]
        ∧ t.refused.map (·.topic) = [utf8 kTopicTripStatus]
        ∧ t.sent = (beforeStop as).flatMap (offered cfg t.auth.auth.vechileAuthenticated) := by
  let location := utf8 "\x7b\"latitude\":2,\"longitude\":3,\"tripId\":7\x7d"
  let _ : JsonLibrary := libraryOf (fun _ => "") [
    (location, .obj [("latitude", .uint 2), ("longitude", .uint 3), ("tripId", .uint 7)])]
  let report : Completion := .read (some (.status ⟨"V1", 7, "done"⟩))
  let as : List Program.Action :=
    [.declareSubscriber, .location location, .setup [], .createVehicle [] [], .vechileLogin [] [],
     .startServer, .complete 0 (.request true), .complete 0 report, .shutdown, .complete 0 report]
  have hrun : ((Program.machine {} {}).run (.start {}) as).map
        (fun t => (t.sent.map (·.topic), t.refused.map (·.topic)))
      = some ([utf8 kTopicStreamLocation, utf8 kTopicTripStatus], [utf8 kTopicTripStatus]) := by
    decide
  obtain ⟨t, ht, htopics⟩ := Option.map_eq_some_iff.mp hrun
  obtain ⟨hsent, hrefused⟩ := Prod.mk.inj htopics
  exact ⟨_, {}, as, t, ht, hsent, hrefused, (outbound_pipeline ht).1⟩

end CloudGateway.Proof
