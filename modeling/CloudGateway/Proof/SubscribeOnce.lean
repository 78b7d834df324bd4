import CloudGateway.Proof.Subscriptions

/-!
# How often a `subscribe` call reaches the broker

A call made while the client runs leaves two traces, its topic in
`pending_topics_` and an item in the queue of the `io_context`, and each of them
turns into a `do_subscribe`. `Traced` counts them: pending, posted and issued add
up to two for a call of the running session, and to at most one for an earlier
one. So a call is issued once as long as, when one trace is turned into a
`do_subscribe`, the other is still there.
-/

namespace CloudGateway.Proof

open Transport Reactive

/-- What the sessions so far have issued, the running one included. -/
def sessionLogs (c : MqttClient) : List (List Subscription) :=
  c.ended ++ (c.session.map (·.issued)).toList

/-- No `subscribe` call leads to two `do_subscribe` in one session. -/
def OncePerSession (c : MqttClient) : Prop :=
  ∀ log ∈ sessionLogs c, ∀ x, log.count x ≤ 1

/-- Every topic of this session in `pending_topics_` still has its own item in the queue. -/
def DrainsOnce (c : MqttClient) (s : Session) : Prop :=
  ∀ x ∈ c.pendingTopics, s.since ≤ x.call → Work.doSubscribe x ∈ s.posted

/-- The same for one item of posted work: its topic is still in `pending_topics_`. -/
def PerformsOnce (c : MqttClient) (s : Session) : Work → Prop
  | .flush => DrainsOnce c s
  | .doSubscribe x => x ∈ c.pendingTopics

/-- Whichever trace of a call a step turns into a `do_subscribe`, the other is still there. -/
def FindsBoth (c : MqttClient) : MqttClient.Action → Prop
  | .run => ∀ s ∈ c.session, ∀ w ∈ s.posted.head?, PerformsOnce c s w
  | .message => ∀ s ∈ c.session, DrainsOnce c s
  | .subscribe _ | .start | .stop | .error => True

instance (c : MqttClient) (s : Session) : Decidable (DrainsOnce c s) :=
  inferInstanceAs (Decidable
    (∀ x ∈ c.pendingTopics, s.since ≤ x.call → Work.doSubscribe x ∈ s.posted))

instance (c : MqttClient) (s : Session) : (w : Work) → Decidable (PerformsOnce c s w)
  | .flush => inferInstanceAs (Decidable (DrainsOnce c s))
  | .doSubscribe x => inferInstanceAs (Decidable (x ∈ c.pendingTopics))

instance (c : MqttClient) : (a : MqttClient.Action) → Decidable (FindsBoth c a)
  | .run =>
      inferInstanceAs (Decidable (∀ s ∈ c.session, ∀ w ∈ s.posted.head?, PerformsOnce c s w))
  | .message => inferInstanceAs (Decidable (∀ s ∈ c.session, DrainsOnce c s))
  | .subscribe _ | .start | .stop | .error => isTrue trivial

/-! ## Counting the traces of a call -/

/-- The traces of each call in the running session. -/
structure TracedIn (c : MqttClient) (s : Session) : Prop where
  since : s.since ≤ c.subscriptions.length
  posted : ∀ x, s.posted.count (.doSubscribe x) ≤ c.subscriptions.count x
  /-- A call of this session: two traces, each pending, posted or issued. -/
  own : ∀ x : Subscription, s.since ≤ x.call →
    c.pendingTopics.count x + s.posted.count (.doSubscribe x) + s.issued.count x
      = 2 * c.subscriptions.count x
  /-- An earlier call: nothing posted, and at most one trace left. -/
  earlier : ∀ x : Subscription, x.call < s.since →
    s.posted.count (.doSubscribe x) = 0
      ∧ c.pendingTopics.count x + s.issued.count x ≤ c.subscriptions.count x

/-- The traces of each call, whether or not the client runs. -/
structure Traced (c : MqttClient) : Prop where
  once : ∀ x, c.subscriptions.count x ≤ 1
  numbered : ∀ x ∈ c.subscriptions, x.call < c.subscriptions.length
  pending : ∀ x, c.pendingTopics.count x ≤ c.subscriptions.count x
  session : ∀ s, c.session = some s → TracedIn c s

/-- The next call has left no trace. -/
theorem count_next {c : MqttClient} (hc : Traced c) (topic : Bytes) :
    c.subscriptions.count ⟨c.subscriptions.length, topic⟩ = 0 := by
  refine List.count_eq_zero.mpr (fun hmem => ?_)
  have hlt := hc.numbered _ hmem
  exact Nat.lt_irrefl _ hlt

theorem count_snoc {α : Type} [BEq α] [LawfulBEq α] [DecidableEq α] (xs : List α) (y x : α) :
    (xs ++ [y]).count x = xs.count x + if y = x then 1 else 0 := by
  rw [List.count_append, List.count_singleton]
  by_cases h : y = x <;> simp [h]

/-! ### The lists of the client after another `subscribe` -/

section Next

variable {c : MqttClient} (hc : Traced c) (topic : Bytes)
include hc

theorem once_next (x : Subscription) :
    (c.subscriptions ++ [(⟨c.subscriptions.length, topic⟩ : Subscription)]).count x ≤ 1 := by
  have hzero := count_next hc topic
  have hle := hc.once x
  rw [count_snoc]
  split
  · rename_i heq
    rw [heq] at hzero
    omega
  · omega

theorem numbered_next :
    ∀ x ∈ c.subscriptions ++ [(⟨c.subscriptions.length, topic⟩ : Subscription)],
      x.call < (c.subscriptions ++ [(⟨c.subscriptions.length, topic⟩ : Subscription)]).length := by
  intro x hx
  rw [List.length_append, List.length_singleton]
  rcases List.mem_append.mp hx with hx | hx
  · have := hc.numbered x hx
    omega
  · rw [List.mem_singleton.mp hx]
    exact Nat.lt_succ_self _

theorem pending_next (x : Subscription) :
    (c.pendingTopics ++ [(⟨c.subscriptions.length, topic⟩ : Subscription)]).count x
      ≤ (c.subscriptions ++ [(⟨c.subscriptions.length, topic⟩ : Subscription)]).count x := by
  have hle := hc.pending x
  rw [count_snoc, count_snoc]
  omega

end Next

/-! ### The traces in a session, from one state of the client to the next -/

section Session

variable {c c' : MqttClient} {s s' : Session}

/-- A session begins with no trace but the topics that are pending. -/
theorem tracedIn_fresh (hc : Traced c) (hsubs : c'.subscriptions = c.subscriptions)
    (hpend : c'.pendingTopics = c.pendingTopics) (hposted : s'.posted = [.flush])
    (hissued : s'.issued = []) (hsince : s'.since = c.subscriptions.length) : TracedIn c' s' := by
  have hnone : ∀ x, s'.posted.count (.doSubscribe x) = 0 := by
    intro x
    rw [hposted]
    simp
  have hlength : s'.since = c'.subscriptions.length := by rw [hsince, hsubs]
  refine ⟨Nat.le_of_eq hlength, fun x => ?_, fun x hx => ?_, fun x hx => ?_⟩
  · rw [hnone]
    exact Nat.zero_le _
  · -- no call has this number yet
    have hzero : c.subscriptions.count x = 0 := by
      refine List.count_eq_zero.mpr (fun hmem => ?_)
      have := hc.numbered x hmem
      rw [hsince] at hx
      omega
    have hle := hc.pending x
    rw [hnone, hissued, hpend, hsubs, List.count_nil]
    omega
  · have hle := hc.pending x
    rw [hnone, hissued, hpend, hsubs, List.count_nil]
    exact ⟨rfl, hle⟩

variable (hin : TracedIn c s)
include hin

/-- Another call of this session is pending and posted. -/
theorem TracedIn.subscribe {y : Subscription} (hy : y.call = c.subscriptions.length)
    (hsubs : c'.subscriptions = c.subscriptions ++ [y])
    (hpend : c'.pendingTopics = c.pendingTopics ++ [y])
    (hposted : s'.posted = s.posted ++ [.doSubscribe y]) (hissued : s'.issued = s.issued)
    (hsince : s'.since = s.since) : TracedIn c' s' := by
  have hold := hin.since
  refine ⟨?_, fun x => ?_, fun x hx => ?_, fun x hx => ?_⟩
  · rw [hsince, hsubs, List.length_append]
    exact Nat.le_add_right_of_le hold
  · have hle := hin.posted x
    simp only [hposted, hsubs, count_snoc, Work.doSubscribe.injEq]
    omega
  · rw [hsince] at hx
    have hown := hin.own x hx
    simp only [hpend, hposted, hissued, hsubs, count_snoc, Work.doSubscribe.injEq]
    omega
  · rw [hsince] at hx
    have hearlier := hin.earlier x hx
    have hne : y ≠ x := by
      intro heq
      rw [← heq, hy] at hx
      exact Nat.not_lt.mpr hold hx
    simp only [hpend, hposted, hissued, hsubs, count_snoc, Work.doSubscribe.injEq, if_neg hne]
    exact hearlier

/-- A drain turns what is pending into what is issued. -/
theorem TracedIn.drain (hsubs : c'.subscriptions = c.subscriptions) (hpend : c'.pendingTopics = [])
    (hposted : ∀ x, s'.posted.count (.doSubscribe x) = s.posted.count (.doSubscribe x))
    (hissued : s'.issued = s.issued ++ c.pendingTopics) (hsince : s'.since = s.since) :
    TracedIn c' s' := by
  refine ⟨by rw [hsince, hsubs]; exact hin.since, fun x => ?_, fun x hx => ?_, fun x hx => ?_⟩
  · rw [hposted, hsubs]
    exact hin.posted x
  · rw [hsince] at hx
    have hown := hin.own x hx
    rw [hpend, hposted, hissued, hsubs, List.count_nil, List.count_append]
    omega
  · rw [hsince] at hx
    have hearlier := hin.earlier x hx
    rw [hpend, hposted, hissued, hsubs, List.count_nil, List.count_append]
    omega

/-- One item of posted work becomes one call issued. -/
theorem TracedIn.issue {z : Subscription} {rest : List Work}
    (hp : s.posted = .doSubscribe z :: rest) (hsubs : c'.subscriptions = c.subscriptions)
    (hpend : c'.pendingTopics = c.pendingTopics) (hposted : s'.posted = rest)
    (hissued : s'.issued = s.issued ++ [z]) (hsince : s'.since = s.since) : TracedIn c' s' := by
  have hcount : ∀ x, s.posted.count (.doSubscribe x)
      = s'.posted.count (.doSubscribe x) + if z = x then 1 else 0 := by
    intro x
    rw [hp, hposted, List.count_cons]
    by_cases hzx : z = x <;> simp [hzx]
  refine ⟨by rw [hsince, hsubs]; exact hin.since, fun x => ?_, fun x hx => ?_, fun x hx => ?_⟩
  · have hle := hin.posted x
    rw [hcount] at hle
    rw [hsubs]
    omega
  · rw [hsince] at hx
    have hown := hin.own x hx
    rw [hcount] at hown
    rw [hpend, hissued, hsubs, count_snoc]
    omega
  · rw [hsince] at hx
    have hearlier := hin.earlier x hx
    rw [hcount] at hearlier
    rw [hpend, hissued, hsubs, count_snoc]
    omega

end Session

theorem traced_step {c c' : MqttClient} {a : MqttClient.Action} (hc : Traced c)
    (h : ClientStep c a c') : Traced c' := by
  cases h with
  | subscribeIdle hs =>
      refine ⟨once_next hc _, numbered_next hc _, pending_next hc _, fun s hs' => ?_⟩
      exact absurd (hs.symm.trans hs') (by simp)
  | @subscribeRunning topic s hs =>
      refine ⟨once_next hc _, numbered_next hc _, pending_next hc _, fun s' hs' => ?_⟩
      obtain rfl := Option.some.inj hs'
      have hin := hc.session s hs
      exact hin.subscribe (y := ⟨c.subscriptions.length, topic⟩) rfl rfl rfl rfl rfl rfl
  | startRunning hs => exact hc
  | start hs =>
      refine ⟨hc.once, hc.numbered, hc.pending, fun s' hs' => ?_⟩
      obtain rfl := Option.some.inj hs'
      exact tracedIn_fresh hc rfl rfl rfl rfl rfl
  | stopIdle hs => exact hc
  | stop hs => exact ⟨hc.once, hc.numbered, hc.pending, fun s' hs' => absurd hs' (by simp)⟩
  | @flush s rest hs hp =>
      refine ⟨hc.once, hc.numbered, fun x => by simp, fun s' hs' => ?_⟩
      obtain rfl := Option.some.inj hs'
      refine (hc.session s hs).drain rfl rfl (fun x => ?_) rfl rfl
      rw [hp, List.count_cons_of_ne (by simp)]
  | @doSubscribe s z rest hs hp =>
      refine ⟨hc.once, hc.numbered, hc.pending, fun s' hs' => ?_⟩
      obtain rfl := Option.some.inj hs'
      exact (hc.session s hs).issue hp rfl rfl rfl rfl rfl
  | @message s hs hr =>
      refine ⟨hc.once, hc.numbered, fun x => by simp, fun s' hs' => ?_⟩
      obtain rfl := Option.some.inj hs'
      exact (hc.session s hs).drain rfl rfl (fun _ => rfl) rfl rfl
  | @error s hs hr =>
      refine ⟨hc.once, hc.numbered, hc.pending, fun s' hs' => ?_⟩
      obtain rfl := Option.some.inj hs'
      have hin := hc.session s hs
      exact ⟨hin.since, hin.posted, hin.own, hin.earlier⟩

theorem traced_reachable {c : MqttClient} (h : MqttClient.machine.Reachable c) : Traced c := by
  refine h.invariant (P := Traced) ?_ ?_
  · refine ⟨fun x => ?_, fun x hx => ?_, fun x => ?_, fun s hs => ?_⟩
    · simp [MqttClient.machine, MqttClient.new]
    · exact absurd hx (by simp [MqttClient.machine, MqttClient.new])
    · simp [MqttClient.machine, MqttClient.new]
    · exact absurd hs (by simp [MqttClient.machine, MqttClient.new])
  · intro c a c' hr hc _ hs
    exact traced_step hc (client_step_cases (sessionRuns_reachable hr) hs)

/-! ## Once in a session -/

theorem oncePerSession_iff (c : MqttClient) :
    OncePerSession c ↔ (∀ log ∈ c.ended, ∀ x, log.count x ≤ 1)
      ∧ ∀ s, c.session = some s → ∀ x, s.issued.count x ≤ 1 := by
  simp only [OncePerSession, sessionLogs]
  constructor
  · intro h
    refine ⟨fun log hlog => h log (List.mem_append_left _ hlog), fun s hs => ?_⟩
    exact h s.issued (List.mem_append_right _ (by rw [hs]; exact List.mem_singleton.mpr rfl))
  · rintro ⟨hended, hrunning⟩ log hlog
    rcases List.mem_append.mp hlog with hlog | hlog
    · exact hended log hlog
    · cases hs : c.session with
      | none => rw [hs] at hlog; exact absurd hlog (by simp)
      | some s =>
          rw [hs] at hlog
          rw [List.mem_singleton.mp hlog]
          exact hrunning s hs

/-- A drain issues no call twice, as long as it finds the items of this session's calls. -/
theorem drain_once {c : MqttClient} {s : Session} (hin : TracedIn c s)
    (hsubs : ∀ x, c.subscriptions.count x ≤ 1) (hone : ∀ x, s.issued.count x ≤ 1)
    (hok : DrainsOnce c s) (x : Subscription) : (s.issued ++ c.pendingTopics).count x ≤ 1 := by
  have hsub := hsubs x
  have hissued := hone x
  rw [List.count_append]
  rcases Nat.lt_or_ge x.call s.since with hlt | hge
  · have hearlier := (hin.earlier x hlt).2
    omega
  · have hown := hin.own x hge
    by_cases hmem : x ∈ c.pendingTopics
    · have hitem := List.one_le_count_iff.mpr (hok x hmem hge)
      omega
    · have hzero := List.count_eq_zero.mpr hmem
      omega

/-- A drain that misses the item of one of this session's calls issues that call twice. -/
theorem drain_twice {c : MqttClient} {s : Session} (hin : TracedIn c s)
    (hnot : ¬ DrainsOnce c s) : ∃ x, 2 ≤ (s.issued ++ c.pendingTopics).count x := by
  simp only [DrainsOnce] at hnot
  push Not at hnot
  obtain ⟨x, hmem, hge, hgone⟩ := hnot
  have hown := hin.own x hge
  have hitem := List.count_eq_zero.mpr hgone
  have hpend := List.one_le_count_iff.mpr hmem
  have hposted := hin.posted x
  refine ⟨x, ?_⟩
  rw [List.count_append]
  have hsub : 1 ≤ c.subscriptions.count x := by omega
  omega

theorem once_step {c c' : MqttClient} {a : MqttClient.Action} (hc : Traced c)
    (honce : OncePerSession c) (hok : FindsBoth c a) (h : ClientStep c a c') :
    OncePerSession c' := by
  obtain ⟨hended, hrunning⟩ := (oncePerSession_iff c).mp honce
  refine (oncePerSession_iff c').mpr ?_
  cases h with
  | subscribeIdle hs => exact ⟨hended, hrunning⟩
  | @subscribeRunning topic s hs =>
      refine ⟨hended, fun s' hs' => ?_⟩
      obtain rfl := Option.some.inj hs'
      exact hrunning s hs
  | startRunning hs => exact ⟨hended, hrunning⟩
  | start hs =>
      refine ⟨hended, fun s' hs' x => ?_⟩
      obtain rfl := Option.some.inj hs'
      simp
  | stopIdle hs => exact ⟨hended, hrunning⟩
  | @stop s hs =>
      refine ⟨fun log hlog => ?_, fun s' hs' => absurd hs' (by simp)⟩
      rcases List.mem_append.mp hlog with hlog | hlog
      · exact hended log hlog
      · rw [List.mem_singleton.mp hlog]
        exact hrunning s hs
  | @flush s rest hs hp =>
      refine ⟨hended, fun s' hs' => ?_⟩
      obtain rfl := Option.some.inj hs'
      have hdrain : DrainsOnce c s := hok s hs .flush (by rw [hp]; rfl)
      exact drain_once (hc.session s hs) hc.once (hrunning s hs) hdrain
  | @doSubscribe s z rest hs hp =>
      refine ⟨hended, fun s' hs' x => ?_⟩
      obtain rfl := Option.some.inj hs'
      have hmem : z ∈ c.pendingTopics := hok s hs (.doSubscribe z) (by rw [hp]; rfl)
      have hin := hc.session s hs
      have hissued := hrunning s hs x
      simp only [count_snoc]
      by_cases hzx : z = x
      · -- pending and posted: not issued yet
        rw [← hzx] at hissued ⊢
        have hpend := List.one_le_count_iff.mpr hmem
        have hitem : 1 ≤ s.posted.count (.doSubscribe z) := by
          rw [hp]; exact List.one_le_count_iff.mpr List.mem_cons_self
        have hsub := hc.once z
        rcases Nat.lt_or_ge z.call s.since with hlt | hge
        · have hearlier := (hin.earlier z hlt).1
          omega
        · have hown := hin.own z hge
          rw [if_pos rfl]
          omega
      · rw [if_neg hzx]
        omega
  | @message s hs hr =>
      refine ⟨hended, fun s' hs' => ?_⟩
      obtain rfl := Option.some.inj hs'
      exact drain_once (hc.session s hs) hc.once (hrunning s hs) (hok s hs)
  | @error s hs hr =>
      refine ⟨hended, fun s' hs' => ?_⟩
      obtain rfl := Option.some.inj hs'
      exact hrunning s hs

/-- Where an item of posted work is the one that finds a trace missing. -/
theorem not_performsOnce {c : MqttClient} {s : Session} {w : Work} {rest : List Work}
    (hs : c.session = some s) (hp : s.posted = w :: rest) (hnot : ¬ FindsBoth c .run) :
    ¬ PerformsOnce c s w := by
  intro honce
  refine hnot (fun s₁ hs₁ w₁ hw₁ => ?_)
  obtain rfl := Option.some.inj (hs.symm.trans hs₁)
  rw [hp] at hw₁
  obtain rfl := Option.some.inj hw₁
  exact honce

/-- A step that finds only one trace of a call issues that call a second time. -/
theorem twice_step {c c' : MqttClient} {a : MqttClient.Action} (hc : Traced c)
    (hnot : ¬ FindsBoth c a) (h : ClientStep c a c') : ¬ OncePerSession c' := by
  intro honce
  obtain ⟨_, hrunning⟩ := (oncePerSession_iff c').mp honce
  cases h with
  | subscribeIdle hs => exact hnot trivial
  | subscribeRunning hs => exact hnot trivial
  | startRunning hs => exact hnot trivial
  | start hs => exact hnot trivial
  | stopIdle hs => exact hnot trivial
  | stop hs => exact hnot trivial
  | error hs hr => exact hnot trivial
  | @flush s rest hs hp =>
      have hdrain : ¬ DrainsOnce c s := not_performsOnce hs hp hnot
      obtain ⟨x, hx⟩ := drain_twice (hc.session s hs) hdrain
      have hone := hrunning _ rfl x
      simp only at hone
      omega
  | @doSubscribe s z rest hs hp =>
      have hgone : z ∉ c.pendingTopics := not_performsOnce hs hp hnot
      have hin := hc.session s hs
      have hzero := List.count_eq_zero.mpr hgone
      have hitem : 1 ≤ s.posted.count (.doSubscribe z) := by
        rw [hp]; exact List.one_le_count_iff.mpr List.mem_cons_self
      have hposted := hin.posted z
      have hone := hrunning _ rfl z
      simp only [count_snoc, if_true] at hone
      rcases Nat.lt_or_ge z.call s.since with hlt | hge
      · have hearlier := (hin.earlier z hlt).1
        omega
      · have hown := hin.own z hge
        have hsub := hc.once z
        omega
  | @message s hs hr =>
      have hdrain : ¬ DrainsOnce c s := by
        intro hdrain
        refine hnot (fun s₁ hs₁ => ?_)
        obtain rfl := Option.some.inj (hs.symm.trans hs₁)
        exact hdrain
      obtain ⟨x, hx⟩ := drain_twice (hc.session s hs) hdrain
      have hone := hrunning _ rfl x
      simp only at hone
      omega

/--
**A `subscribe` call reaches the broker once in a session as long as every trace
finds the other.** When posted work or a receive turns a trace of a call into a
`do_subscribe` and the other trace is gone, the call has been issued twice.
-/
theorem subscribed_once_when (c : MqttClient) :
    (MqttClient.machine.ReachableWhen FindsBoth c → OncePerSession c)
      ∧ (MqttClient.machine.Reachable c → ∀ a c', c.step a = some c' → ¬ FindsBoth c a →
          ¬ OncePerSession c') := by
  refine ⟨?_, ?_⟩
  · intro h
    refine h.invariant (P := OncePerSession) ?_ ?_
    · intro log hlog
      exact absurd hlog (by simp [sessionLogs, MqttClient.machine, MqttClient.new])
    · intro c a c' hr honce hok hs
      have hc := sessionRuns_reachable hr.reachable
      exact once_step (traced_reachable hr.reachable) honce hok (client_step_cases hc hs)
  · intro hr a c' hs hnot
    exact twice_step (traced_reachable hr) hnot (client_step_cases (sessionRuns_reachable hr) hs)

/-- Subscribed before the start, and again by another call while the client runs. -/
theorem subscribed_once_when_running :
    ∃ c, MqttClient.machine.ReachableWhen FindsBoth c
      ∧ sessionLogs c
          = [[⟨0, utf8 "topic/trip/init"⟩, ⟨1, utf8 "topic/trip/init"⟩],
             [⟨1, utf8 "topic/trip/init"⟩]]
      ∧ OncePerSession c := by
  obtain ⟨c, hr, hp⟩ := Machine.exists_reachableWhen_of_run (M := MqttClient.machine)
    (Q := FindsBoth)
    (l := [.subscribe (utf8 "topic/trip/init"), .start, .run, .subscribe (utf8 "topic/trip/init"),
      .run, .stop, .start, .run])
    (p := fun c => decide (sessionLogs c = [[⟨0, utf8 "topic/trip/init"⟩,
      ⟨1, utf8 "topic/trip/init"⟩], [⟨1, utf8 "topic/trip/init"⟩]])) (by decide)
  exact ⟨c, hr, of_decide_eq_true hp, (subscribed_once_when c).1 hr⟩

/-- Subscribed while the client runs, before its flush: the flush and the item both issue it. -/
theorem not_oncePerSession :
    ¬ ∀ c, MqttClient.machine.Reachable c → OncePerSession c := by
  intro h
  obtain ⟨c, hr, hp⟩ := Machine.exists_reachable_of_run (M := MqttClient.machine)
    (l := [.start, .subscribe (utf8 "topic/trip/init"), .run, .run])
    (p := fun c => decide (sessionLogs c
      = [[⟨0, utf8 "topic/trip/init"⟩, ⟨0, utf8 "topic/trip/init"⟩]])) (by decide)
  have hlogs : sessionLogs c = _ := of_decide_eq_true hp
  have hone := h c hr _ (by rw [hlogs]; exact List.mem_singleton.mpr rfl)
    ⟨0, utf8 "topic/trip/init"⟩
  exact absurd hone (by decide)

end CloudGateway.Proof
