import CloudGateway.Proof.Drain
import CloudGateway.Proof.Outbound

/-!
# How `main` comes to its end

`main` waits for the server, which waits for its operations. Once the server is
shut down every one of them fails, and the stream handlers delete themselves
(`shutdown_completes`). Seen from `main`, these completions change neither what it
has published nor where it stands, and when they are over it can return.
-/

namespace CloudGateway.Proof

open Services Transport Proto Constants Reactive

variable [JsonLibrary]

/-- An exception leaves `main` after the login, and no statement follows. -/
theorem terminated_next {cfg : Settings} {config : Config} {p : Program}
    (hr : (Program.machine cfg config).Reachable p) (ht : p.gateway.terminated = true) :
    p.next = .startServer := by
  refine hr.invariant (P := fun p => p.gateway.terminated = true → p.next = .startServer)
    (fun h => absurd h (by simp [Program.machine, Program.start, Gateway.started, Gateway.wired]))
    ?_ ht
  intro p a p' hp _ _ hstep hterminated
  have hrun := step_running hstep
  have hgateway := (partsReached_reachable hp).running hrun
  have hnext : ∀ {b g}, p.gateway.step b = some g → g.terminated = true → False := by
    intro b g hg hterm
    rw [(delivered_reachable (hgateway.step (a := b) hg)).alive] at hterm
    exact Bool.noConfusion hterm
  have hsame : p.gateway.terminated = true → False := by
    intro hterm
    rw [hrun] at hterm
    exact Bool.noConfusion hterm
  cases program_step hp hstep with
  | thrown hn hw ht => rfl
  | returned hn hg => exact (hnext hg hterminated).elim
  | mqtt ha hg => exact (hnext hg hterminated).elim
  | completed hs hg =>
      rw [deliver_gateway] at hterminated
      exact (hnext hg hterminated).elim
  | loggedIn hn hw ht =>
      rw [deliver_gateway] at hterminated
      exact (hsame hterminated).elim
  | located hl ht =>
      rw [deliver_gateway] at hterminated
      exact (hsame hterminated).elim
  | _ => exact (hsame hterminated).elim

/-- The step of the stream handlers, as a step of the program. -/
def asProgramAction : World.Action → Program.Action
  | .complete h c => .complete h c
  | .push _ => .run

/-- An operation fails. -/
def Fails : Program.Action → Prop
  | .complete _ c => c.ok = false
  | _ => False

omit [JsonLibrary] in
theorem reportOf_failed [JsonText] {c : Completion} (h : c.ok = false) : reportOf c = [] := by
  cases c with
  | read ev =>
      cases ev with
      | none => rfl
      | some ev => exact absurd h (by simp [Completion.ok])
  | _ => rfl

/-- A program in which only the stream handlers have moved. -/
def withStreams (p : Program) (w : World) : Program :=
  { p with gateway := { p.gateway with trips := { p.gateway.trips with world := w } } }

/-- An operation that fails moves the stream handlers, and publishes nothing. -/
theorem failing_step {cfg : Settings} {p : Program} {w : World} {h : Nat} {c : Completion}
    (hw : World.machine.Reachable p.gateway.trips.world) (hn : p.next = .wait)
    (halive : p.gateway.terminated = false) (hc : c.ok = false)
    (hstep : p.gateway.trips.world.step (.complete h c) = some w) :
    p.step cfg (.complete h c) = some (withStreams p w) := by
  have hfault : p.gateway.trips.world.fault = false := unharmed_of_step hstep
  have hreports := reports_of_step hw hstep
  rw [reportOf_failed hc] at hreports
  simp [Program.step, Program.serving, Gateway.step, withStreams, hn, halive, hfault, hstep,
    hreports]

/-- A run of failing operations is a run of the program. -/
theorem failing_run {cfg : Settings} {config : Config} {p : Program} {w : World}
    {as : List World.Action} (hr : (Program.machine cfg config).Reachable p) (hn : p.next = .wait)
    (halive : p.gateway.terminated = false)
    (hfail : ∀ a ∈ as, AfterShutdown a ∧ isPush a = false)
    (hrun : World.machine.run p.gateway.trips.world as = some w) :
    (Program.machine cfg config).run p (as.map asProgramAction) = some (withStreams p w) := by
  induction as generalizing p with
  | nil =>
      obtain rfl := Option.some.inj hrun
      rfl
  | cons a as ih =>
      obtain ⟨ha, hpush⟩ := hfail a List.mem_cons_self
      rw [Machine.run_cons] at hrun
      obtain ⟨w₁, hstep, hrest⟩ := Option.bind_eq_some_iff.mp hrun
      cases a with
      | push cmd => exact absurd hpush (by simp [isPush])
      | complete h c =>
          have hprogram : p.step cfg (.complete h c) = some (withStreams p w₁) :=
            failing_step (partsReached_reachable hr).world hn halive ha hstep
          have hprogram : (Program.machine cfg config).step p (.complete h c)
              = some (withStreams p w₁) := hprogram
          have hnext := ih (p := withStreams p w₁) (hr.step hprogram) hn halive
            (fun b hb => hfail b (List.mem_cons_of_mem _ hb)) hrest
          rw [List.map_cons, Machine.run_cons]
          show ((Program.machine cfg config).step p (.complete h c)).bind _ = _
          rw [hprogram]
          exact hnext

/-- Once its streams are drained, `main` returns and the client is stopped. -/
theorem return_step (cfg : Settings) {p : Program} (hc : SessionRuns p.gateway.mqtt)
    (hn : p.next = .wait) (halive : p.gateway.terminated = false)
    (hfault : p.gateway.trips.world.fault = false) :
    ∃ p', p.step cfg .shutdown = some p' ∧ p'.next = .returned ∧ p'.gateway.mqtt.session = none
      ∧ p'.gateway.trips = p.gateway.trips ∧ p'.sent = p.sent ∧ p'.refused = p.refused := by
  refine ⟨{ p with
    next := .returned, gateway := { p.gateway with mqtt := p.gateway.mqtt.stop } }, ?_, rfl, ?_,
    rfl, rfl, rfl⟩
  · simp [Program.step, Program.advance, hn, halive, hfault]
  · have hstop : ClientStep p.gateway.mqtt .stop p.gateway.mqtt.stop := client_step_cases hc rfl
    generalize p.gateway.mqtt.stop = c at hstop ⊢
    cases hstop with
    | stopIdle hs => exact hs
    | stop hs => rfl

/--
**`main` can always come to a clean end.** From every state a run can reach in
which `main` waits for the server and no deleted handler has anything outstanding,
operations that fail, and no more of them than there is work left, lead to a state
in which `main` returns: then every handler has been deleted, nothing is
outstanding, `active_` is null and the client has no session, and what has been
published is what had been before.
-/
theorem main_exits {cfg : Settings} {config : Config} {p : Program}
    (hr : (Program.machine cfg config).Reachable p) (hn : p.next = .wait)
    (hidle : NothingOutlivesHandler p.gateway.trips.world) :
    ∃ as p', (∀ a ∈ as, Fails a) ∧ as.length ≤ work p.gateway.trips.world
      ∧ (Program.machine cfg config).run p (as ++ [.shutdown]) = some p'
      ∧ p'.next = .returned ∧ p'.gateway.mqtt.session = none
      ∧ (∀ k ∈ p'.gateway.trips.world.conns, k.handler = none ∧ k.ownOps = [] ∧ k.writes = [])
      ∧ p'.gateway.trips.world.active = none
      ∧ p'.sent = p.sent ∧ p'.refused = p.refused := by
  have hp := partsReached_reachable hr
  have halive : p.gateway.terminated = false := by
    cases ht : p.gateway.terminated with
    | false => rfl
    | true => exact absurd ((terminated_next hr ht).symm.trans hn) (by decide)
  obtain ⟨as, w, hfail, hrun, hord, hdrained⟩ := shutdown_completes hp.world hidle
  obtain ⟨_, hfault, hcount, _, hdone⟩ :=
    shutdown_drains hp.world (fun a ha => (hfail a ha).1) hrun hord
  obtain ⟨_, hgone, hactive⟩ := hdone hdrained
  have hprogram := failing_run hr hn halive hfail hrun
  obtain ⟨p', hstep, hnext, hsession, htrips, hsent, hrefused⟩ :=
    return_step cfg (p := withStreams p w) (sessionRuns_reachable hp.client) hn halive hfault
  refine ⟨as.map asProgramAction, p', ?_, ?_, ?_, hnext, hsession, ?_, ?_, hsent, hrefused⟩
  · intro a ha
    obtain ⟨b, hb, rfl⟩ := List.mem_map.mp ha
    obtain ⟨hb, hpush⟩ := hfail b hb
    cases b with
    | push cmd => exact absurd hpush (by simp [isPush])
    | complete h c => exact hb
  · have hnone : as.countP isPush = 0 :=
      List.countP_eq_zero.mpr (fun a ha => by rw [(hfail a ha).2]; simp)
    have hall : as.countP (!isPush ·) = as.length :=
      List.countP_eq_length.mpr (fun a ha => by rw [(hfail a ha).2]; rfl)
    rw [List.length_map]
    omega
  · rw [Machine.run_append, hprogram]
    show ((Program.machine cfg config).step (withStreams p w) .shutdown).bind _ = _
    have hstep : (Program.machine cfg config).step (withStreams p w) .shutdown = some p' := hstep
    rw [hstep]
    rfl
  · intro k hk
    rw [htrips] at hk
    exact ⟨hgone k hk, hdrained k hk⟩
  · rw [htrips]
    exact hactive

omit [JsonLibrary] in
/-- A vehicle is connected, and a command is on its way to it. -/
theorem main_exits_connected :
    ∃ (_ : JsonLibrary) (p p' : Program) (as : List Program.Action),
      (Program.machine {} {}).Reachable p
        ∧ p.gateway.trips.world.conns.map (·.writes) = [[.orderUpdateStatus ⟨"V1"⟩], []]
        ∧ (Program.machine {} {}).run p (as ++ [.shutdown]) = some p'
        ∧ p'.next = .returned ∧ p'.gateway.trips.world.active = none := by
  let order := utf8 "\x7b\"vinNumber\":\"V1\"\x7d"
  let _ : JsonLibrary := libraryOf (fun _ => "") [(order, .obj [("vinNumber", .str "V1")])]
  obtain ⟨p, hr, hp⟩ := Machine.exists_reachable_of_run (M := Program.machine {} {})
    (l := [.declareSubscriber, .receive ⟨utf8 kTopicOrderUpdateStatus, order⟩, .setup [],
      .createVehicle [] [], .vechileLogin [] [], .startServer, .complete 0 (.request true)])
    (p := fun p => decide (p.next = .wait ∧ p.gateway.trips.world.fault = false
      ∧ p.gateway.trips.world.conns.map (·.writes) = [[.orderUpdateStatus ⟨"V1"⟩], []]
      ∧ ∀ k ∈ p.gateway.trips.world.conns, k.handler = none → k.ownOps = [] ∧ k.writes = []))
    (by decide)
  obtain ⟨hn, hfault, hwrites, hidle⟩ := of_decide_eq_true hp
  obtain ⟨as, p', _, _, hrun, hnext, _, _, hactive, _⟩ := main_exits hr hn ⟨hidle, hfault⟩
  exact ⟨_, p, p', as, hr, hwrites, hrun, hnext, hactive⟩

end CloudGateway.Proof
