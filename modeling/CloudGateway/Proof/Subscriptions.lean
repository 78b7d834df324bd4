import CloudGateway.Transport.MqttClient

/-!
# Topics and sessions

A topic reaches the broker by one of three ways: the flush that `start` posts, the
item that `subscribe` posts while the client runs, and the drain in the receive
handler. The first and the last take it from `pending_topics_` and empty the list.

So a topic that has been taken once is not there for a later session
(`subscriptions_survive_when`), and a topic subscribed while the client runs can
go both ways in one session (`subscribed_once_when`). `ClientStep` says once what a
step can do, and `Counted` where the traces of one `subscribe` call are.
-/

namespace CloudGateway.Proof

open Transport Reactive

/-! ## What a step can do -/

/-- The client runs exactly while it has a session. -/
structure SessionRuns (c : MqttClient) : Prop where
  started : c.started = c.session.isSome
  running : c.started = true → c.stopped = false

/-- The steps of a client that runs exactly while it has a session. -/
inductive ClientStep (c : MqttClient) : MqttClient.Action → MqttClient → Prop where
  | subscribeIdle {topic : Bytes} (hs : c.session = none) :
      ClientStep c (.subscribe topic)
        { c with
          pendingTopics := c.pendingTopics ++ [⟨c.subscriptions.length, topic⟩]
          subscriptions := c.subscriptions ++ [⟨c.subscriptions.length, topic⟩] }
  | subscribeRunning {topic : Bytes} {s : Session} (hs : c.session = some s) :
      ClientStep c (.subscribe topic)
        { c with
          pendingTopics := c.pendingTopics ++ [⟨c.subscriptions.length, topic⟩]
          subscriptions := c.subscriptions ++ [⟨c.subscriptions.length, topic⟩]
          session := some { s with
            posted := s.posted ++ [.doSubscribe ⟨c.subscriptions.length, topic⟩] } }
  | startRunning {s : Session} (hs : c.session = some s) : ClientStep c .start c
  | start (hs : c.session = none) :
      ClientStep c .start
        { c with
          started := true
          stopped := false
          session := some { posted := [.flush], receiving := true, issued := [],
                            since := c.subscriptions.length } }
  | stopIdle (hs : c.session = none) : ClientStep c .stop c
  | stop {s : Session} (hs : c.session = some s) :
      ClientStep c .stop
        { c with started := false, stopped := true, session := none
                 ended := c.ended ++ [s.issued] }
  | flush {s : Session} {rest : List Work} (hs : c.session = some s)
      (hp : s.posted = .flush :: rest) :
      ClientStep c .run
        { c with
          pendingTopics := []
          session := some { s with posted := rest, issued := s.issued ++ c.pendingTopics } }
  | doSubscribe {s : Session} {x : Subscription} {rest : List Work} (hs : c.session = some s)
      (hp : s.posted = .doSubscribe x :: rest) :
      ClientStep c .run
        { c with session := some { s with posted := rest, issued := s.issued ++ [x] } }
  | message {s : Session} (hs : c.session = some s) (hr : s.receiving = true) :
      ClientStep c .message
        { c with
          pendingTopics := []
          session := some { s with receiving := true, issued := s.issued ++ c.pendingTopics } }
  | error {s : Session} (hs : c.session = some s) (hr : s.receiving = true) :
      ClientStep c .error { c with session := some { s with receiving := true } }

theorem foldl_doSubscribe (xs : List Subscription) {c : MqttClient} {s : Session}
    (hs : c.session = some s) :
    xs.foldl MqttClient.doSubscribe c
      = { c with session := some { s with issued := s.issued ++ xs } } := by
  induction xs generalizing c s with
  | nil =>
      obtain ⟨_, _, _, session, _⟩ := c
      simp only at hs
      simp [hs]
  | cons x xs ih =>
      have hs' : (c.doSubscribe x).session = some { s with issued := s.issued ++ [x] } := by
        simp only [MqttClient.doSubscribe, MqttClient.modify, hs, Option.map_some]
      rw [List.foldl_cons, ih hs']
      simp [MqttClient.doSubscribe, MqttClient.modify]

theorem flush_session {c : MqttClient} {s : Session} (hs : c.session = some s) :
    c.flush = { c with
      pendingTopics := []
      session := some { s with issued := s.issued ++ c.pendingTopics } } := by
  rw [MqttClient.flush, foldl_doSubscribe _ hs]

/-- The drain of the receive handler is a flush, also where there is nothing to drain. -/
theorem beforeCallback_session {c : MqttClient} {s : Session} (hs : c.session = some s) :
    c.beforeCallback = { c with
      pendingTopics := []
      session := some { s with issued := s.issued ++ c.pendingTopics } } := by
  simp only [MqttClient.beforeCallback]
  split
  · exact flush_session hs
  · rename_i hempty
    have hnil : c.pendingTopics = [] := by simpa using hempty
    obtain ⟨_, _, pending, session, _⟩ := c
    simp only at hs hnil
    simp [hs, hnil]

theorem rearm_running {c : MqttClient} (h : c.stopped = false) : c.rearm = c.armReceive := by
  simp only [MqttClient.rearm, h, Bool.not_false, if_true]

theorem takeReceive_session {c c' : MqttClient} (h : c.takeReceive = some c') :
    ∃ s, c.session = some s ∧ s.receiving = true
      ∧ c' = { c with session := some { s with receiving := false } } := by
  simp only [MqttClient.takeReceive] at h
  cases hs : c.session with
  | none => rw [hs] at h; exact absurd h (by simp)
  | some s =>
      rw [hs] at h
      simp only at h
      split at h
      · rename_i hr
        exact ⟨s, rfl, hr, (Option.some.inj h).symm⟩
      · exact absurd h (by simp)

theorem client_step_cases {c c' : MqttClient} {a : MqttClient.Action} (hc : SessionRuns c)
    (h : c.step a = some c') : ClientStep c a c' := by
  cases a with
  | subscribe topic =>
      obtain rfl := Option.some.inj h
      cases hs : c.session with
      | none =>
          have hpost : (c.started && c.session.isSome) = false := by rw [hs]; simp
          simp only [MqttClient.subscribe, hpost]
          exact ClientStep.subscribeIdle hs
      | some s =>
          have hpost : (c.started && c.session.isSome) = true := by rw [hc.started, hs]; rfl
          simp only [MqttClient.subscribe, hpost, if_true]
          simp only [MqttClient.post, MqttClient.modify, hs, Option.map_some]
          exact ClientStep.subscribeRunning hs
  | start =>
      obtain rfl := Option.some.inj h
      cases hs : c.session with
      | none =>
          have hstarted : c.started = false := by rw [hc.started, hs]; rfl
          simp only [MqttClient.start, hstarted, MqttClient.post, MqttClient.armReceive,
            MqttClient.modify, Option.map_some]
          exact ClientStep.start hs
      | some s =>
          have hstarted : c.started = true := by rw [hc.started, hs]; rfl
          simp only [MqttClient.start, hstarted, if_true]
          exact ClientStep.startRunning hs
  | stop =>
      obtain rfl := Option.some.inj h
      cases hs : c.session with
      | none =>
          have hstarted : c.started = false := by rw [hc.started, hs]; rfl
          simp only [MqttClient.stop, hstarted, Bool.not_false, if_true]
          exact ClientStep.stopIdle hs
      | some s =>
          have hstarted : c.started = true := by rw [hc.started, hs]; rfl
          have hstopped := hc.running hstarted
          simp only [MqttClient.stop, hstarted, hstopped, Bool.not_true, hs]
          exact ClientStep.stop hs
  | run =>
      simp only [MqttClient.step, MqttClient.run] at h
      cases hs : c.session with
      | none => rw [hs] at h; exact absurd h (by simp)
      | some s =>
          rw [hs] at h
          simp only at h
          cases hp : s.posted with
          | nil => rw [hp] at h; exact absurd h (by simp)
          | cons w rest =>
              rw [hp] at h
              obtain rfl := Option.some.inj h
              cases w with
              | flush =>
                  simp only [MqttClient.perform]
                  rw [flush_session rfl]
                  exact ClientStep.flush (s := s) hs hp
              | doSubscribe x =>
                  simp only [MqttClient.perform, MqttClient.doSubscribe, MqttClient.modify,
                    Option.map_some]
                  exact ClientStep.doSubscribe (s := s) hs hp
  | message =>
      obtain ⟨c₁, hc₁, rfl⟩ := Option.map_eq_some_iff.mp h
      obtain ⟨s, hs, hr, rfl⟩ := takeReceive_session hc₁
      have hstopped : c.stopped = false := hc.running (by rw [hc.started, hs]; rfl)
      rw [beforeCallback_session rfl, rearm_running]
      · exact ClientStep.message (s := s) hs hr
      · exact hstopped
  | error =>
      obtain ⟨c₁, hc₁, rfl⟩ := Option.map_eq_some_iff.mp h
      obtain ⟨s, hs, hr, rfl⟩ := takeReceive_session hc₁
      have hstopped : c.stopped = false := hc.running (by rw [hc.started, hs]; rfl)
      rw [rearm_running]
      · exact ClientStep.error (s := s) hs hr
      · exact hstopped

theorem sessionRuns_step {c c' : MqttClient} {a : MqttClient.Action} (hc : SessionRuns c)
    (h : ClientStep c a c') : SessionRuns c' := by
  have hlive : ∀ s, c.session = some s → c.started = true ∧ c.stopped = false := by
    intro s hs
    have hstarted : c.started = true := by rw [hc.started, hs]; rfl
    exact ⟨hstarted, hc.running hstarted⟩
  cases h with
  | subscribeIdle hs => exact ⟨hc.started, hc.running⟩
  | subscribeRunning hs => exact ⟨(hlive _ hs).1, hc.running⟩
  | startRunning hs => exact hc
  | start hs => exact ⟨rfl, fun _ => rfl⟩
  | stopIdle hs => exact hc
  | stop hs => exact ⟨rfl, fun h => Bool.noConfusion h⟩
  | flush hs hp => exact ⟨(hlive _ hs).1, hc.running⟩
  | doSubscribe hs hp => exact ⟨(hlive _ hs).1, hc.running⟩
  | message hs hr => exact ⟨(hlive _ hs).1, hc.running⟩
  | error hs hr => exact ⟨(hlive _ hs).1, hc.running⟩

theorem sessionRuns_reachable {c : MqttClient} (h : MqttClient.machine.Reachable c) :
    SessionRuns c :=
  h.invariant (P := SessionRuns) ⟨rfl, fun h => Bool.noConfusion h⟩
    (fun _ _ _ _ hc _ hs => sessionRuns_step hc (client_step_cases hc hs))

/-! ## Subscriptions and restarts -/

/-- Once its posted work has run, the session has issued every topic subscribed so far. -/
def AllSubscribed (c : MqttClient) : Prop :=
  ∀ s, c.session = some s → s.posted = [] →
    ∀ x ∈ c.subscriptions, x.topic ∈ s.issued.map (·.topic)

/-- A session begins with every topic subscribed so far still in `pending_topics_`. -/
def KeepsTopics (c : MqttClient) : MqttClient.Action → Prop
  | .start =>
      c.started = false → ∀ x ∈ c.subscriptions, x.topic ∈ c.pendingTopics.map (·.topic)
  | .subscribe _ | .stop | .run | .message | .error => True

instance (c : MqttClient) : (a : MqttClient.Action) → Decidable (KeepsTopics c a)
  | .start =>
      inferInstanceAs (Decidable
        (c.started = false → ∀ x ∈ c.subscriptions, x.topic ∈ c.pendingTopics.map (·.topic)))
  | .subscribe _ | .stop | .run | .message | .error => isTrue trivial

/-- Where a topic is on its way to the broker: issued, posted, or to be flushed. -/
def OnItsWay (c : MqttClient) (s : Session) (topic : Bytes) : Prop :=
  topic ∈ s.issued.map (·.topic)
    ∨ (∃ x, Work.doSubscribe x ∈ s.posted ∧ x.topic = topic)
    ∨ (Work.flush ∈ s.posted ∧ topic ∈ c.pendingTopics.map (·.topic))

/-- In a running session every topic is on its way. -/
def TopicsOnTheirWay (c : MqttClient) : Prop :=
  ∀ s, c.session = some s → ∀ x ∈ c.subscriptions, OnItsWay c s x.topic

theorem topicsOnTheirWay_step {c c' : MqttClient} {a : MqttClient.Action}
    (hway : TopicsOnTheirWay c) (hc : SessionRuns c) (hok : KeepsTopics c a) (h : ClientStep c a c') :
    TopicsOnTheirWay c' := by
  intro s' hs' x hx
  cases h with
  | subscribeIdle hs =>
      simp only at hs'
      rw [hs] at hs'
      exact absurd hs' (by simp)
  | @subscribeRunning topic s hs =>
      obtain rfl := Option.some.inj hs'
      rcases List.mem_append.mp hx with hx | hx
      · rcases hway s hs x hx with h | ⟨y, hy, hxy⟩ | ⟨hf, hp⟩
        · exact Or.inl h
        · exact Or.inr (Or.inl ⟨y, List.mem_append_left _ hy, hxy⟩)
        · refine Or.inr (Or.inr ⟨List.mem_append_left _ hf, ?_⟩)
          simp only [List.map_append]
          exact List.mem_append_left _ hp
      · -- the new topic has an item of its own
        rw [List.mem_singleton.mp hx]
        exact Or.inr (Or.inl ⟨_, List.mem_append_right _ (List.mem_singleton.mpr rfl), rfl⟩)
  | startRunning hs => exact hway s' hs' x hx
  | start hs =>
      obtain rfl := Option.some.inj hs'
      have hstarted : c.started = false := by rw [hc.started, hs]; rfl
      exact Or.inr (Or.inr ⟨List.mem_singleton.mpr rfl, hok hstarted x hx⟩)
  | stopIdle hs => exact hway s' hs' x hx
  | stop hs => exact absurd hs' (by simp)
  | @flush s rest hs hp =>
      obtain rfl := Option.some.inj hs'
      rcases hway s hs x hx with h | ⟨y, hy, hxy⟩ | ⟨_, hpend⟩
      · refine Or.inl ?_
        simp only [List.map_append]
        exact List.mem_append_left _ h
      · rw [hp] at hy
        rcases List.mem_cons.mp hy with hy | hy
        · exact absurd hy (by simp)
        · exact Or.inr (Or.inl ⟨y, hy, hxy⟩)
      · refine Or.inl ?_
        simp only [List.map_append]
        exact List.mem_append_right _ hpend
  | @doSubscribe s z rest hs hp =>
      obtain rfl := Option.some.inj hs'
      rcases hway s hs x hx with h | ⟨y, hy, hxy⟩ | ⟨hf, hpend⟩
      · refine Or.inl ?_
        simp only [List.map_append]
        exact List.mem_append_left _ h
      · rw [hp] at hy
        rcases List.mem_cons.mp hy with hy | hy
        · obtain rfl := Work.doSubscribe.inj hy
          refine Or.inl ?_
          simp only [List.map_append, ← hxy]
          exact List.mem_append_right _ (List.mem_singleton.mpr rfl)
        · exact Or.inr (Or.inl ⟨y, hy, hxy⟩)
      · rw [hp] at hf
        rcases List.mem_cons.mp hf with hf | hf
        · exact absurd hf (by simp)
        · exact Or.inr (Or.inr ⟨hf, hpend⟩)
  | @message s hs hr =>
      obtain rfl := Option.some.inj hs'
      rcases hway s hs x hx with h | h | ⟨_, hpend⟩
      · refine Or.inl ?_
        simp only [List.map_append]
        exact List.mem_append_left _ h
      · exact Or.inr (Or.inl h)
      · -- drained before the flush came to it
        refine Or.inl ?_
        simp only [List.map_append]
        exact List.mem_append_right _ hpend
  | @error s hs hr =>
      obtain rfl := Option.some.inj hs'
      exact hway s hs x hx

theorem topicsOnTheirWay_reachable {c : MqttClient}
    (h : MqttClient.machine.ReachableWhen KeepsTopics c) : TopicsOnTheirWay c := by
  refine h.invariant (P := TopicsOnTheirWay) (fun s hs => absurd hs (by
    simp [MqttClient.machine, MqttClient.new])) ?_
  intro c a c' hr hway hok hs
  have hc := sessionRuns_reachable hr.reachable
  exact topicsOnTheirWay_step hway hc hok (client_step_cases hc hs)

/-- What a new session has subscribed to when its flush has run and nothing else. -/
theorem start_flush {c : MqttClient} (h : c.started = false) :
    c.start.run = some
      { c with
        started := true
        stopped := false
        pendingTopics := []
        session := some { posted := [], receiving := true, issued := c.pendingTopics,
                          since := c.subscriptions.length } } := by
  simp only [MqttClient.start, h, MqttClient.post, MqttClient.armReceive, MqttClient.modify,
    Option.map_some, Bool.false_eq_true, if_false, MqttClient.run, List.nil_append,
    MqttClient.perform]
  rw [flush_session rfl]
  simp only [List.nil_append]

/--
**Subscriptions survive a restart as long as nothing has been drained.** If every
session begins with all topics in `pending_topics_`, every session subscribes to
all of them. A session that begins without one of them has, once its flush has
run, not subscribed to it.
-/
theorem subscriptions_survive_when (c : MqttClient) :
    (MqttClient.machine.ReachableWhen KeepsTopics c → AllSubscribed c)
      ∧ (¬ KeepsTopics c .start →
          ∃ c₁ c₂, c.step .start = some c₁ ∧ c₁.step .run = some c₂ ∧ ¬ AllSubscribed c₂) := by
  refine ⟨?_, ?_⟩
  · intro h s hs hposted x hx
    rcases topicsOnTheirWay_reachable h s hs x hx with hissued | ⟨y, hy, _⟩ | ⟨hf, _⟩
    · exact hissued
    · rw [hposted] at hy; exact absurd hy (by simp)
    · rw [hposted] at hf; exact absurd hf (by simp)
  · intro hnot
    simp only [KeepsTopics] at hnot
    push Not at hnot
    obtain ⟨hstarted, x, hx, hgone⟩ := hnot
    refine ⟨c.start, _, rfl, start_flush hstarted, ?_⟩
    intro hall
    exact hgone (hall _ rfl rfl x hx)

/-- A restart before the first session has drained its topic: the second one subscribes to it. -/
theorem subscriptions_survive_when_restarted :
    ∃ c, MqttClient.machine.ReachableWhen KeepsTopics c ∧ c.ended = [[]]
      ∧ (∃ s, c.session = some s ∧ s.posted = [] ∧ s.issued = [⟨0, utf8 "topic/trip/init"⟩])
      ∧ AllSubscribed c := by
  obtain ⟨c, hr, hp⟩ := Machine.exists_reachableWhen_of_run (M := MqttClient.machine)
    (Q := KeepsTopics)
    (l := [.subscribe (utf8 "topic/trip/init"), .start, .stop, .start, .run])
    (p := fun c => decide (c.ended = [[]] ∧ c.session = some
      { posted := [], receiving := true, issued := [⟨0, utf8 "topic/trip/init"⟩], since := 1 }))
    (by decide)
  obtain ⟨hended, hs⟩ := of_decide_eq_true hp
  exact ⟨c, hr, hended, ⟨_, hs, rfl, rfl⟩, (subscriptions_survive_when c).1 hr⟩

/-- Started, flushed and restarted, the client has lost its topic. -/
theorem not_allSubscribed :
    ¬ ∀ c, MqttClient.machine.Reachable c → AllSubscribed c := by
  intro h
  obtain ⟨c, hr, hp⟩ := Machine.exists_reachable_of_run (M := MqttClient.machine)
    (l := [.subscribe (utf8 "topic/trip/init"), .start, .run, .stop, .start, .run])
    (p := fun c => decide (c.subscriptions = [⟨0, utf8 "topic/trip/init"⟩] ∧ c.session = some
      { posted := [], receiving := true, issued := [], since := 1 }))
    (by decide)
  obtain ⟨hall, hs⟩ := of_decide_eq_true hp
  have hlost := h c hr _ hs rfl ⟨0, utf8 "topic/trip/init"⟩ (by
    rw [hall]; exact List.mem_singleton.mpr rfl)
  exact absurd hlost (by simp)

end CloudGateway.Proof
