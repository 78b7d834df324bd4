import CloudGateway.Proof.Outbound

/-!
# The subscriptions of `main`

`main` subscribes to its topics before it starts the client, and never again. What
`start` posts and what the receive handler drains then compete for the same six
pending topics, and whichever comes first takes them all: the broker is told of
each topic once, in the order of `main`, and no message is handled before that.
-/

namespace CloudGateway.Proof

open Services Transport Proto Constants Reactive

/-- The topics the broker has been told of, over all sessions. -/
def toldOf (c : MqttClient) : List Bytes :=
  (c.ended.flatten ++ (c.session.map (·.issued)).getD []).map (·.topic)

/-- The topics that are pending. -/
def pendingOf (c : MqttClient) : List Bytes := c.pendingTopics.map (·.topic)

/--
The topics of `main` are told or pending, all of them together; and while they are
pending in a session, what `start` has posted is still to run.
-/
structure TopicsTogether (c : MqttClient) : Prop where
  all : toldOf c ++ pendingOf c = commandTopics
  together : toldOf c = [] ∨ c.pendingTopics = []
  flushes : ∀ s, c.session = some s → ∀ w ∈ s.posted, w = .flush
  posted : ∀ s, c.session = some s → c.pendingTopics ≠ [] → .flush ∈ s.posted

theorem toldOf_session {c : MqttClient} {s : Session} (hs : c.session = some s) :
    toldOf c = (c.ended.flatten ++ s.issued).map (·.topic) := by
  rw [toldOf, hs]
  rfl

/-- The session takes what is pending: by the flush, or by the drain. -/
theorem topicsTogether_taken {c c' : MqttClient} {s t : Session} (h : TopicsTogether c)
    (hs : c.session = some s) (ht : c'.session = some t) (hended : c'.ended = c.ended)
    (hpending : c'.pendingTopics = []) (hissued : t.issued = s.issued ++ c.pendingTopics)
    (hposted : ∀ w ∈ t.posted, w ∈ s.posted) : TopicsTogether c' := by
  have htold : toldOf c' = toldOf c ++ pendingOf c := by
    rw [toldOf_session ht, toldOf_session hs, hended, hissued, pendingOf, ← List.append_assoc,
      List.map_append]
  refine ⟨?_, .inr hpending, ?_, ?_⟩
  · have hnil : pendingOf c' = [] := by rw [pendingOf, hpending]; rfl
    rw [htold, hnil, List.append_nil]
    exact h.all
  · intro u hu w hw
    obtain rfl := Option.some.inj (ht.symm.trans hu)
    exact h.flushes s hs w (hposted w hw)
  · exact fun _ _ hne => absurd hpending hne

/-- What neither subscribes nor starts keeps the topics together. -/
theorem topicsTogether_step {c c' : MqttClient} {a : MqttClient.Action} (h : TopicsTogether c)
    (hstep : ClientStep c a c') (hstart : a ≠ .start) (hsubscribe : ∀ topic, a ≠ .subscribe topic) :
    TopicsTogether c' := by
  cases hstep with
  | subscribeIdle hs => exact absurd rfl (hsubscribe _)
  | subscribeRunning hs => exact absurd rfl (hsubscribe _)
  | startRunning hs => exact absurd rfl hstart
  | start hs => exact absurd rfl hstart
  | stopIdle hs => exact h
  | @stop s hs =>
      have htold : ∀ c' : MqttClient, c'.session = none → c'.ended = c.ended ++ [s.issued] →
          toldOf c' = toldOf c := by
        intro c' hs' hended
        rw [toldOf_session hs, toldOf, hs', hended, List.flatten_append, List.flatten_singleton]
        simp
      refine ⟨?_, ?_, by simp, by simp⟩
      · rw [htold _ rfl rfl]
        exact h.all
      · rw [htold _ rfl rfl]
        exact h.together
  | @flush s rest hs hp =>
      refine topicsTogether_taken (t := { s with posted := rest, issued := _ }) h hs rfl rfl rfl
        rfl ?_
      intro w hw
      rw [hp]
      exact List.mem_cons_of_mem _ hw
  | @doSubscribe s x rest hs hp =>
      have := h.flushes s hs (.doSubscribe x) (hp ▸ List.mem_cons_self)
      exact absurd this (by simp)
  | @message s hs hr =>
      exact topicsTogether_taken (t := { s with receiving := true, issued := _ }) h hs rfl rfl rfl
        rfl (fun w hw => hw)
  | @error s hs hr =>
      have htold := toldOf_session hs
      refine ⟨?_, ?_, ?_, ?_⟩
      · rw [toldOf_session rfl, ← htold]
        exact h.all
      · rw [toldOf_session rfl, ← htold]
        exact h.together
      · intro t ht w hw
        obtain rfl := Option.some.inj ht
        exact h.flushes s hs w hw
      · intro t ht hne
        obtain rfl := Option.some.inj ht
        exact h.posted s hs hne

variable [JsonLibrary]

/-- No message is received while the topics are pending. -/
structure TopicsFirst (g : Gateway) : Prop where
  client : TopicsTogether g.mqtt
  received : g.received ≠ [] → g.mqtt.pendingTopics = []

theorem topicsFirst_step {g g' : Gateway} {a : Gateway.Action} (hc : SessionRuns g.mqtt)
    (h : TopicsFirst g) (hstart : a ≠ .client .start)
    (hsubscribe : ∀ topic, a ≠ .client (.subscribe topic)) (hstep : g.step a = some g') :
    TopicsFirst g' := by
  have hmessage : ∀ {c}, g.mqtt.step .message = some c →
      TopicsTogether c ∧ c.pendingTopics = [] := by
    intro c hx
    have hx := client_step_cases hc hx
    refine ⟨topicsTogether_step h.client hx (by simp) (by simp), ?_⟩
    cases hx with
    | message hs hr => rfl
  obtain ⟨_, hcase⟩ := gateway_step_cases hstep
  cases hcase with
  | command hx hm => exact ⟨(hmessage hx).1, fun _ => (hmessage hx).2⟩
  | rejected hx hm => exact ⟨(hmessage hx).1, fun _ => (hmessage hx).2⟩
  | @client b c hx =>
      have hx := client_step_cases hc hx
      refine ⟨topicsTogether_step h.client hx ?_ ?_, ?_⟩
      · rintro rfl
        exact hstart rfl
      · rintro topic rfl
        exact hsubscribe topic rfl
      · intro hreceived
        have hpending := h.received hreceived
        cases hx with
        | subscribeIdle hs => exact absurd rfl (hsubscribe _)
        | subscribeRunning hs => exact absurd rfl (hsubscribe _)
        | flush hs hp => rfl
        | message hs hr => rfl
        | _ => exact hpending
  | complete hw => exact ⟨h.client, h.received⟩

theorem topicsFirst_reachable {cfg : Settings} {config : Config} {p : Program}
    (hr : (Program.machine cfg config).Reachable p) : TopicsFirst p.gateway := by
  refine hr.invariant (P := fun p => TopicsFirst p.gateway) ?_ ?_
  · refine ⟨⟨rfl, .inl rfl, ?_, ?_⟩, fun h => absurd rfl h⟩
    · intro s hs w hw
      obtain rfl := Option.some.inj hs
      exact List.mem_singleton.mp hw
    · intro s hs _
      obtain rfl := Option.some.inj hs
      exact List.mem_singleton_self _
  · intro p a p' hp h _ hstep
    have hc := sessionRuns_reachable (partsReached_reachable hp).client
    cases program_step hp hstep with
    | returned hn hg => exact topicsFirst_step hc h (by simp) (by simp) hg
    | @mqtt a b g ha hg =>
        refine topicsFirst_step hc h ?_ ?_ hg
        · rintro rfl
          cases a <;> simp [mqttAction] at ha
        · rintro topic rfl
          cases a <;> simp [mqttAction] at ha
    | located hl ht => rw [deliver_gateway]; exact h
    | loggedIn hn hw ht => rw [deliver_gateway]; exact h
    | completed hs hg => rw [deliver_gateway]; exact topicsFirst_step hc h (by simp) (by simp) hg
    | thrown hn hw ht => exact ⟨h.client, h.received⟩
    | _ => exact h

omit [JsonLibrary] in
theorem toldOf_all {c : MqttClient} (h : TopicsTogether c) (hpending : c.pendingTopics = []) :
    toldOf c = commandTopics := by
  have hall := h.all
  rwa [pendingOf, hpending, List.map_nil, List.append_nil] at hall

omit [JsonLibrary] in
/-- While topics are pending in a session, the next item of posted work takes them. -/
theorem topicsTogether_run {c : MqttClient} (hc : SessionRuns c) (h : TopicsTogether c)
    (hs : c.started = true) (hpending : c.pendingTopics ≠ []) :
    ∃ c', c.step .run = some c' ∧ toldOf c' = commandTopics := by
  obtain ⟨s, hs⟩ := Option.isSome_iff_exists.mp (hc.started ▸ hs)
  have hrun : (c.step .run).isSome = true := by
    cases hp : s.posted with
    | nil => exact absurd (h.posted s hs hpending) (by rw [hp]; exact List.not_mem_nil)
    | cons w rest => simp [MqttClient.step, MqttClient.run, hs, hp]
  obtain ⟨c', hstep⟩ := Option.isSome_iff_exists.mp hrun
  have hcase := client_step_cases hc hstep
  refine ⟨c', hstep, toldOf_all (topicsTogether_step h hcase (by simp) (by simp)) ?_⟩
  cases hcase with
  | flush hs' hp => rfl
  | @doSubscribe s' x rest hs' hp =>
      have := h.flushes s' hs' (.doSubscribe x) (hp ▸ List.mem_cons_self)
      exact absurd this (by simp)

/--
**The broker is told of the command topics once, and before anything is handled.**
In every run of `main` and its threads, the sessions have together subscribed to
nothing yet or to exactly the six topics, once each and in the order of `main`,
whether the flush or the drain came first; if a message has been received, it is
the latter; otherwise the next item of posted work subscribes, as long as the
client is started and the program runs. What is subscribed to is what has a route.
-/
theorem command_topics_told {cfg : Settings} {config : Config} {p : Program}
    (hr : (Program.machine cfg config).Reachable p) :
    (toldOf p.gateway.mqtt = [] ∨ toldOf p.gateway.mqtt = commandTopics)
      ∧ (p.gateway.received ≠ [] → toldOf p.gateway.mqtt = commandTopics)
      ∧ (p.gateway.mqtt.started = true → p.gateway.terminated = false →
          p.gateway.trips.world.fault = false → toldOf p.gateway.mqtt = [] →
          ∃ p', p.step cfg .run = some p' ∧ toldOf p'.gateway.mqtt = commandTopics)
      ∧ ∀ topic, topic ∈ commandTopics ↔ (routes.handlers.lookup topic).isSome = true := by
  have htopics := topicsFirst_reachable hr
  refine ⟨?_, fun hm => toldOf_all htopics.client (htopics.received hm), ?_,
    fun _ => route_iff.symm⟩
  · exact htopics.client.together.imp_right (toldOf_all htopics.client)
  · intro hs halive hfault hnone
    have hpending : p.gateway.mqtt.pendingTopics ≠ [] := by
      intro hpending
      have hall := toldOf_all htopics.client hpending
      rw [hnone] at hall
      exact absurd hall (by decide)
    have hc := sessionRuns_reachable (partsReached_reachable hr).client
    obtain ⟨c, hstep, htold⟩ := topicsTogether_run hc htopics.client hs hpending
    refine ⟨{ p with gateway := { p.gateway with mqtt := c } }, ?_, htold⟩
    simp [Program.step, Gateway.step, halive, hfault, hstep]

omit [JsonLibrary] in
/-- A message comes before the posted flush has run. -/
theorem command_topics_told_early :
    ∃ (_ : JsonLibrary) (p : Program), (Program.machine {} {}).Reachable p
      ∧ p.gateway.received.length = 1
      ∧ toldOf p.gateway.mqtt = commandTopics := by
  let _ : JsonLibrary := libraryOf (fun _ => "") []
  obtain ⟨p, hr, hp⟩ := Machine.exists_reachable_of_run (M := Program.machine {} {})
    (l := [.receive ⟨utf8 kTopicTripMove, []⟩, .run])
    (p := fun p => decide (p.gateway.received.length = 1)) (by decide)
  have hlen := of_decide_eq_true hp
  refine ⟨_, p, hr, hlen, (command_topics_told hr).2.1 ?_⟩
  intro hnil
  rw [hnil] at hlen
  exact absurd hlen (by decide)

end CloudGateway.Proof
