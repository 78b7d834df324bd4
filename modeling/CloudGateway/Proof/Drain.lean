import CloudGateway.Proof.Lifetime

/-!
# Shutdown

`GrpcServer::stop` shuts down the server and its queue, and `runCQ` goes on until
every outstanding operation has come back, each with `ok = false`. Such a
completion starts no registration and no `Write`, and at most the `Finish` of a
handler whose `Read` has failed. So there is a measure of the completions still to
come, `work`, which a completion lowers and only a push can raise.

Whether a deleted handler is used on the way is a matter of order alone: it is
exactly when some `Write` completes after the `Finish` of its handler.
-/

namespace CloudGateway.Proof

open Services Proto Reactive

/-! ## `Write` before `Finish` -/

/-- The completion of a `Finish`. -/
def isFinish : Completion → Bool
  | .finish _ => true
  | _ => false

/-- The completion of a `Write`. -/
def isWrite : Completion → Bool
  | .write _ _ => true
  | _ => false

/-- No `Write` has completed after the `Finish`. -/
def WriteFirst (k : Connection) : Prop :=
  k.completions.Pairwise (fun a b => isFinish a = true → isWrite b = false)

instance (k : Connection) : Decidable (WriteFirst k) :=
  inferInstanceAs (Decidable (k.completions.Pairwise _))

/-- One more completion. -/
theorem writeFirst_append {k k' : Connection} {c : Completion} (hw : WriteFirst k)
    (h : k'.completions = k.completions ++ [c]) :
    WriteFirst k' ↔ (isWrite c = true → ∀ a ∈ k.completions, isFinish a = false) := by
  unfold WriteFirst at *
  rw [h, List.pairwise_append]
  constructor
  · rintro ⟨_, _, hlate⟩ hc a ha
    have := hlate a ha c List.mem_cons_self
    rw [hc] at this
    simpa using this
  · intro hfirst
    refine ⟨hw, List.pairwise_singleton .., ?_⟩
    intro a ha b hb hfin
    obtain rfl := List.mem_singleton.mp hb
    cases hb' : isWrite b with
    | false => rfl
    | true => rw [hfirst hb' a ha] at hfin; exact absurd hfin (by simp)

section Order

variable [JsonText]

/-- No step brings a deleted handler back. -/
theorem deleted_step {k k' : Connection} {a : Connection.Action} (hwf : Wf k)
    (h : k.step a = some k') (hd : k.handler = none) : k'.handler = none := by
  cases step_effect hwf h with
  | stray hk hw => exact hk
  | _ => simp_all

/-- A handler whose `Finish` has completed is gone. -/
theorem live_unfinished {k : Connection} (h : Connection.machine.Reachable k) :
    k.handler ≠ none → ∀ c ∈ k.completions, isFinish c = false := by
  refine h.invariant
    (P := fun k => k.handler ≠ none → ∀ c ∈ k.completions, isFinish c = false) ?_ ?_
  · intro _ c hc
    exact absurd hc (by simp [Connection.machine])
  · intro k a k' hr ih _ hs hlive c hc
    have hwf := wf_reachable hr
    have hs : k.step a = some k' := hs
    have hbefore := ih (fun hd => hlive (deleted_step hwf hs hd))
    cases a with
    | enqueue cmd =>
        cases step_effect hwf hs with
        | enqueue hk => exact hbefore c (by simpa using hc)
    | complete c₀ flushed =>
        rw [step_completions hwf hs] at hc
        rcases List.mem_append.mp hc with hc | hc
        · exact hbefore c hc
        · rw [List.mem_singleton.mp hc]
          cases step_effect hwf hs with
          | finished hk hst => exact absurd rfl hlive
          | _ => rfl

/--
A deleted handler with a `Write` outstanding has had its `Finish` completed: a
refused one never had a `Write`.
-/
theorem orphan_finished {w : World} (hr : World.machine.Reachable w) :
    ∀ k ∈ w.conns, k.handler = none → k.writes ≠ [] → ∃ c ∈ k.completions, isFinish c = true := by
  refine conns_rule (P := fun k => k.handler = none → k.writes ≠ [] →
    ∃ c ∈ k.completions, isFinish c = true) ?_ ?_ hr
  · intro hd
    exact absurd hd (by simp)
  · intro w k a k' hr ih hmay hs hd hw
    have hmem := hmay.mem
    cases step_effect (connsWf_reachable hr k hmem) hs with
    | refused hk hst =>
        have hk' := accepting_untouched hr k hmem (by simp [stateOf, hk, hst])
        exact absurd (by simp [hk']) hw
    | finished hk hst => exact ⟨_, List.mem_append_right _ List.mem_cons_self, rfl⟩
    | stray hk hcmd =>
        obtain ⟨c, hc, hfin⟩ := ih k hmem hk (List.ne_nil_of_mem hcmd)
        exact ⟨c, List.mem_append_left _ hc, hfin⟩
    | _ => exact absurd hd (by simp)

/-- The completions stay in order exactly when no `Write` completes for a deleted handler. -/
theorem writeFirst_move {w : World} {i : Nat} {c : Completion} {k k' : Connection}
    (hr : World.machine.Reachable w) (hm : Moves w i c k k') (hw : WriteFirst k) :
    WriteFirst k' ↔ (k.handler = none → isWrite c = false) := by
  have hmem := List.mem_of_getElem? hm.1
  have hwf := connsWf_reachable hr k hmem
  rw [writeFirst_append hw (step_completions hwf hm.2)]
  constructor
  · intro hfirst hd
    cases c with
    | write cmd ok =>
        -- the `Write` was outstanding, so the handler had finished
        cases step_effect hwf hm.2 with
        | writeDone hk hcmd => rw [hd] at hk; exact absurd hk (by simp)
        | stray hk hcmd =>
            obtain ⟨a, ha, hfin⟩ := orphan_finished hr k hmem hd (List.ne_nil_of_mem hcmd)
            rw [hfirst rfl a ha] at hfin
            exact absurd hfin (by simp)
    | _ => rfl
  · intro hlive hc
    refine live_unfinished (conns_reachable hr k hmem) (fun hd => ?_)
    rw [hlive hd] at hc
    exact absurd hc (by simp)

theorem unharmed_of_step {w w' : World} {a : World.Action} (h : w.step a = some w') :
    w.fault = false := by
  unfold World.step at h
  split at h
  · exact absurd h (by simp)
  · rename_i hf; simpa using hf

/-- **No deleted handler has been used exactly when no `Write` completed after its `Finish`.** -/
theorem unharmed_iff_writeFirst {w : World} (hr : World.machine.Reachable w) :
    w.fault = false ↔ ∀ k ∈ w.conns, WriteFirst k := by
  refine hr.invariant (P := fun w => w.fault = false ↔ ∀ k ∈ w.conns, WriteFirst k) ?_ ?_
  · refine ⟨fun _ k hk => ?_, fun _ => rfl⟩
    rw [List.mem_singleton.mp hk]
    exact List.Pairwise.nil
  intro w a w' hr ih _ hs
  have hf := unharmed_of_step hs
  have hall := ih.mp hf
  -- a completion for a handler that still exists, or of anything but a `Write`
  have move : ∀ {i : Nat} {c : Completion} {k k' : Connection}, Moves w i c k k' →
      (k.handler = none → isWrite c = false) → ∀ x ∈ w.conns.set i k', WriteFirst x :=
    fun hm hc => (forall_set_at hall hm.1).mpr
      ((writeFirst_move hr hm (hall _ (List.mem_of_getElem? hm.1))).mpr hc)
  cases world_effect_reachable hr hs with
  | queued ha => exact ih
  | @sent cmd i k s ha hk hks =>
      refine ⟨fun _ => (forall_set_at hall hk).mpr ?_, fun _ => hf⟩
      unfold WriteFirst
      rw [(enqueue_keeps hks cmd).2]
      exact hall k (List.mem_of_getElem? hk)
  | dangling ha hd => exact absurd hd (active_alive hr ha)
  | accepted hm =>
      refine ⟨fun _ x hx => ?_, fun _ => hf⟩
      rcases List.mem_append.mp hx with hx | hx
      · exact move hm (fun _ => rfl) x hx
      · rw [List.mem_singleton.mp hx]; exact List.Pairwise.nil
  | refused hm => exact ⟨fun _ => move hm (fun _ => rfl), fun _ => hf⟩
  | readOk hm => exact ⟨fun _ => move hm (fun _ => rfl), fun _ => hf⟩
  | readFailed hm => exact ⟨fun _ => move hm (fun _ => rfl), fun _ => hf⟩
  | finished hm => exact ⟨fun _ => move hm (fun _ => rfl), fun _ => hf⟩
  | written hm hks =>
      exact ⟨fun _ => move hm (fun hd => absurd (hks ▸ hd) (by simp)), fun _ => hf⟩
  | stray hm hks =>
      refine ⟨fun h => absurd h (by simp), fun h => ?_⟩
      have hk := hall _ (List.mem_of_getElem? hm.1)
      have := (writeFirst_move hr hm hk).mp ((forall_set_at hall hm.1).mp h) hks
      exact absurd this (by simp [isWrite])

end Order

/-! ## What is left to come back -/

/-- Completions a handler still waits for under its own tag, the `Finish` to come included. -/
def stagesLeft : Option StreamState → Nat
  | some .accepting => 1
  | some .reading => 2
  | some .finish => 1
  | some .create => 0
  | none => 0

/-- Completions that a connection has still to receive, when each has `ok = false`. -/
def workOf (k : Connection) : Nat := stagesLeft (stateOf k) + k.writes.length

/-- Completions that are still to be delivered. -/
def work (w : World) : Nat := (w.conns.map workOf).sum

/-- Calls of `RequestVehicleCommandStream` for one handler. -/
def registrationsOf (k : Connection) : Nat := k.calls.count (.own .request)

/-- Calls of `RequestVehicleCommandStream`. -/
def registrations (w : World) : Nat := (w.conns.map registrationsOf).sum

/-- Nothing is outstanding: `runCQ` has no completion to wait for. -/
def Drained (w : World) : Prop := ∀ k ∈ w.conns, k.ownOps = [] ∧ k.writes = []

instance (w : World) : Decidable (Drained w) :=
  inferInstanceAs (Decidable (∀ k ∈ w.conns, _ ∧ _))

/-- A `push_command`. -/
def isPush : World.Action → Bool
  | .push _ => true
  | .complete _ _ => false

/-- What can happen once the server is shut down: a push, or a completion with `ok = false`. -/
def AfterShutdown : World.Action → Prop
  | .push _ => True
  | .complete _ c => c.ok = false

instance : (a : World.Action) → Decidable (AfterShutdown a)
  | .push _ => isTrue trivial
  | .complete _ c => inferInstanceAs (Decidable (c.ok = false))

/-- A `Write` is not a registration. -/
@[simp] theorem count_own_writes (op : OwnOp) (ws : List GatewayCommand) :
    (ws.map StreamOp.write).count (.own op) = 0 :=
  List.count_eq_zero.mpr (by simp)

/-- What a step after shutdown does to the connection it concerns. -/
structure Unwinds (a : World.Action) (k k' : Connection) : Prop where
  /-- No call is registered. -/
  registered : registrationsOf k' = registrationsOf k
  /-- A deleted handler stays deleted. -/
  deleted : k.handler = none → k'.handler = none
  /-- A completion takes one off the work, and a push adds at most one. -/
  work : workOf k' + (!isPush a).toNat ≤ workOf k + (isPush a).toNat

theorem unwinds_enqueue {k : Connection} {s : VehicleStreamHandler} (hs : k.handler = some s)
    (cmd : GatewayCommand) : Unwinds (.push cmd) k (k.enqueue cmd) where
  registered := by
    rw [enqueue_live hs]
    simp [registrationsOf]
  deleted := by
    intro hd
    rw [hs] at hd
    exact absurd hd (by simp)
  work := by
    -- at most one `Write` starts
    have hle := Bool.toNat_le (s.enqueue cmd).2.isSome
    have hst := (enqueue_keeps hs cmd).1
    have hw : (k.enqueue cmd).writes.length
        = k.writes.length + (s.enqueue cmd).2.isSome.toNat := by
      rw [enqueue_live hs, issueWrite_writes, List.length_append]
      cases (s.enqueue cmd).2 <;> rfl
    simp only [workOf, hst, hw, isPush, Bool.not_true, Bool.toNat_false, Bool.toNat_true]
    omega

variable [JsonText]

/-- **A completion with `ok = false` is one less to come, whichever it is.** -/
theorem unwinds_complete {k k' : Connection} {i : Nat} {c : Completion}
    {flushed : List GatewayCommand} (hwf : Wf k) (h : k.step (.complete c flushed) = some k')
    (hc : c.ok = false) : Unwinds (.complete i c) k k' where
  registered := by
    cases step_effect hwf h with
    | writeDone hk hw => simp [registrationsOf]
    | accepted hk hst _ _ _ => exact absurd hc (by simp [Completion.ok])
    | readOk hk hst => exact absurd hc (by simp [Completion.ok])
    | readFailed hk hst => simp [registrationsOf]
    | _ => rfl
  deleted := deleted_step hwf h
  work := by
    have hst' := step_stateOf hwf h
    simp only [workOf, hst', isPush, Bool.not_false, Bool.toNat_true, Bool.toNat_false]
    cases step_effect hwf h with
    | @writeDone s cmd ok _ hk hw =>
        -- the writer stops, whatever is still queued
        obtain rfl : ok = false := hc
        have hpos := List.length_pos_of_mem hw
        have hnone : (s.onWriteDone false).2 = none := rfl
        rw [hnone, issueWrite_writes, Option.toList_none, List.append_nil,
          List.length_erase_of_mem hw, nextState]
        omega
    | stray hk hw =>
        have hpos := List.length_pos_of_mem hw
        simp only [List.length_erase_of_mem hw, nextState]
        omega
    | refused hk hst =>
        simp only [nextState, stagesLeft, stateOf, hk, hst, Option.map_some, Bool.false_eq_true,
          if_false]
        omega
    | accepted hk hst _ _ _ => exact absurd hc (by simp [Completion.ok])
    | readOk hk hst => exact absurd hc (by simp [Completion.ok])
    | readFailed hk hst =>
        simp only [nextState, stagesLeft, stateOf, hk, hst, Option.map_some, Option.isSome_none,
          Bool.false_eq_true, if_false]
        omega
    | finished hk hst =>
        simp only [nextState, stagesLeft, stateOf, hk, hst, Option.map_some]
        omega

/-! ## One step after shutdown -/

/-- A step after shutdown reaches at most one connection, and constructs none. -/
theorem shutdown_step {w w' : World} {a : World.Action} (hr : World.machine.Reachable w)
    (ha : AfterShutdown a) (h : w.step a = some w') :
    w'.conns = w.conns ∧ isPush a = true
      ∨ ∃ i k k', w.conns[i]? = some k ∧ w'.conns = w.conns.set i k' ∧ Unwinds a k k' := by
  cases a with
  | push cmd =>
      cases world_effect_reachable hr h with
      | queued hnone => exact .inl ⟨rfl, rfl⟩
      | dangling hact hd => exact .inl ⟨rfl, rfl⟩
      | @sent _ i k s hact hk hs => exact .inr ⟨i, k, _, hk, rfl, unwinds_enqueue hs cmd⟩
  | complete i c =>
      have hc : c ≠ .request true := by
        rintro rfl
        exact absurd ha (by simp [AfterShutdown, Completion.ok])
      obtain ⟨k, k', b, hm, rfl⟩ := completion_effect (world_effect_reachable hr h) hc
      have hwf := connsWf_reachable hr k (List.mem_of_getElem? hm.1)
      exact .inr ⟨i, k, k', hm.1, rfl, unwinds_complete hwf hm.2 ha⟩

theorem registrations_step {w w' : World} {a : World.Action} (hr : World.machine.Reachable w)
    (ha : AfterShutdown a) (h : w.step a = some w') : registrations w' = registrations w := by
  unfold registrations
  rcases shutdown_step hr ha h with ⟨hconns, _⟩ | ⟨i, k, k', hk, hconns, hu⟩
  · rw [hconns]
  · have hsum := sum_map_set_at registrationsOf hk k'
    have hsame := hu.registered
    rw [hconns]
    omega

theorem work_step {w w' : World} {a : World.Action} (hr : World.machine.Reachable w)
    (ha : AfterShutdown a) (h : w.step a = some w') :
    work w' + (!isPush a).toNat ≤ work w + (isPush a).toNat := by
  unfold work
  rcases shutdown_step hr ha h with ⟨hconns, hpush⟩ | ⟨i, k, k', hk, hconns, hu⟩
  · rw [hconns, hpush]
    simp
  · have hsum := sum_map_set_at workOf hk k'
    have hwork := hu.work
    rw [hconns]
    omega

/-- After shutdown, what is gone stays gone. -/
theorem gone_step {w w' : World} {a : World.Action} (hr : World.machine.Reachable w)
    (ha : AfterShutdown a) (h : w.step a = some w') {i : Nat} (hd : w.handler i = none) :
    w'.handler i = none := by
  unfold World.handler at *
  rcases shutdown_step hr ha h with ⟨hconns, _⟩ | ⟨j, k, k', hk, hconns, hu⟩
  · rw [hconns]; exact hd
  · rw [hconns]
    by_cases hij : j = i
    · subst hij
      rw [hk, Option.bind_some] at hd
      rw [set_at hk, Option.bind_some]
      exact hu.deleted hd
    · rw [List.getElem?_set_ne hij]; exact hd

/-! ## The whole run -/

/-- How often a run deletes the handler at an address. -/
def deletions (h : Nat) : World → List World.Action → Nat
  | _, [] => 0
  | w, a :: as =>
      match w.step a with
      | none => 0
      | some w' => ((w.handler h).isSome && (w'.handler h).isNone).toNat + deletions h w' as

/-- A deletion takes one live handler away, for good. -/
theorem deletions_run {w w' : World} {as : List World.Action} (hr : World.machine.Reachable w)
    (hfail : ∀ a ∈ as, AfterShutdown a) (hrun : World.machine.run w as = some w') (h : Nat) :
    deletions h w as + (w'.handler h).isSome.toNat = (w.handler h).isSome.toNat := by
  refine Machine.Reachable.run_rule
    (P := fun w as w' => deletions h w as + (w'.handler h).isSome.toNat
      = (w.handler h).isSome.toNat) ?_ ?_ hr hfail hrun
  · intro w
    simp [deletions]
  · intro w a w₁ as t hr ha hs ih
    have hs' : w.step a = some w₁ := hs
    simp only [deletions, hs']
    cases hw : w.handler h with
    | none =>
        have hw₁ := gone_step hr ha hs' hw
        simp only [hw₁, Option.isSome_none, Bool.toNat_false] at ih
        simp [ih]
    | some s =>
        cases hw₁ : w₁.handler h with
        | none => simp_all
        | some s₁ => simp_all

theorem registrations_run {w w' : World} {as : List World.Action}
    (hr : World.machine.Reachable w) (hfail : ∀ a ∈ as, AfterShutdown a)
    (hrun : World.machine.run w as = some w') : registrations w' = registrations w := by
  refine Machine.Reachable.run_rule (P := fun w _ w' => registrations w' = registrations w)
    (fun _ => rfl) ?_ hr hfail hrun
  intro w a w₁ as t hr ha hs ih
  rw [ih, registrations_step hr ha hs]

/-- **Every completion uses up work, and every push provides at most one completion's worth.** -/
theorem work_run {w w' : World} {as : List World.Action} (hr : World.machine.Reachable w)
    (hfail : ∀ a ∈ as, AfterShutdown a) (hrun : World.machine.run w as = some w') :
    work w' + as.countP (!isPush ·) ≤ work w + as.countP isPush := by
  refine Machine.Reachable.run_rule
    (P := fun w as w' => work w' + as.countP (!isPush ·) ≤ work w + as.countP isPush)
    (fun _ => by simp) ?_ hr hfail hrun
  intro w a w₁ as t hr ha hs ih
  have hstep := work_step hr ha hs
  simp only [List.countP_cons]
  cases hp : isPush a <;> simp only [hp, Bool.not_true, Bool.not_false, Bool.toNat_true,
    Bool.toNat_false, if_true, if_false, Bool.false_eq_true] at hstep ⊢ <;> omega

/-- With nothing outstanding no handler is left: a live one always waits for something. -/
theorem drained_gone {w : World} (hr : World.machine.Reachable w) (hd : Drained w) :
    ∀ k ∈ w.conns, k.handler = none := by
  intro k hk
  have hwf := connsWf_reachable hr k hk
  cases hs : k.handler with
  | none => rfl
  | some s =>
      have hown := hwf.own
      have hst := hwf.registered s hs
      rw [(hd k hk).1, hs] at hown
      cases hq : s.state <;> simp_all [ownOpsOf, waitsFor]

/--
**Shutdown drains the handlers.** From any reachable state, let pushes and
completions with `ok = false` come in any order, as long as a handler's `Write`
completes before its `Finish`. No call is registered, no deleted handler is used,
and the completions number at most the work left plus one for each push. Once
nothing is outstanding, every handler that was live has been deleted, exactly
once, none is left, and `active_` is null.
-/
theorem shutdown_drains {w w' : World} {as : List World.Action}
    (hr : World.machine.Reachable w) (hfail : ∀ a ∈ as, AfterShutdown a)
    (hrun : World.machine.run w as = some w') (hord : ∀ k ∈ w'.conns, WriteFirst k) :
    registrations w' = registrations w
      ∧ w'.fault = false
      ∧ as.countP (!isPush ·) ≤ work w + as.countP isPush
      ∧ (∀ h, deletions h w as ≤ (w.handler h).isSome.toNat)
      ∧ (Drained w' →
          (∀ h, deletions h w as = (w.handler h).isSome.toNat)
            ∧ (∀ k ∈ w'.conns, k.handler = none) ∧ w'.active = none) := by
  have hr' := hr.run hrun
  have hwork := work_run hr hfail hrun
  refine ⟨registrations_run hr hfail hrun, (unharmed_iff_writeFirst hr').mpr hord, by omega,
    fun h => ?_, fun hd => ?_⟩
  · have := deletions_run hr hfail hrun h
    omega
  have hgone := drained_gone hr' hd
  have hnone : ∀ h, w'.handler h = none := by
    intro h
    cases hk : w'.conns[h]? with
    | none => simp [World.handler, hk]
    | some k => rw [handler_of hk]; exact hgone k (List.mem_of_getElem? hk)
  refine ⟨fun h => ?_, hgone, ?_⟩
  · have hdel := deletions_run hr hfail hrun h
    rw [hnone h] at hdel
    simpa using hdel
  · cases ha : w'.active with
    | none => rfl
    | some h => exact absurd (hnone h) (active_alive hr' ha)

omit [JsonText] in
/--
A vehicle is connected, with one command on the wire and one queued, and a
sibling waits. The `Write` fails, a push restarts the writer, and the rest follows.
-/
theorem shutdown_drains_connected :
    ∃ (_ : JsonText) (w w' : World) (as : List World.Action), World.machine.Reachable w
      ∧ World.machine.run w as = some w' ∧ w.active = some 0 ∧ as.length = 6
      ∧ deletions 0 w as = 1 ∧ deletions 1 w as = 1 ∧ w'.active = none := by
  let _ : JsonText := ⟨fun _ => ""⟩
  obtain ⟨w, hr, hp⟩ := Machine.exists_reachable_of_run (M := World.machine)
    (l := [.push (.orderUpdateStatus ⟨"V1"⟩), .complete 0 (.request true),
      .push (.orderUpdateLocation ⟨"V1"⟩)])
    (p := fun w => decide (w.active = some 0 ∧ (w.handler 0).isSome ∧ (w.handler 1).isSome)
      && (World.machine.run w [.complete 0 (.write (.orderUpdateStatus ⟨"V1"⟩) false),
        .push (.orderUpdateStatus ⟨"V2"⟩), .complete 0 (.read none), .complete 1 (.request false),
        .complete 0 (.write (.orderUpdateLocation ⟨"V1"⟩) false), .complete 0 (.finish false)]).any
          (fun w' : World => decide ((∀ k ∈ w'.conns, WriteFirst k) ∧ Drained w'))) (by decide)
  obtain ⟨hlive, hrun⟩ := Bool.and_eq_true_iff.mp hp
  obtain ⟨hact, h0, h1⟩ := of_decide_eq_true hlive
  obtain ⟨w', hw', hend⟩ := (Option.any_eq_true _ _).mp hrun
  obtain ⟨hord, hd⟩ := of_decide_eq_true hend
  obtain ⟨_, _, _, _, hdone⟩ := shutdown_drains hr (by decide) hw' hord
  obtain ⟨hdel, _, hnone⟩ := hdone hd
  refine ⟨_, w, w', _, hr, hw', hact, rfl, ?_, ?_, hnone⟩
  · rw [hdel 0, h0]; rfl
  · rw [hdel 1, h1]; rfl

/-! ## The queue can always be drained -/

omit [JsonText] in
/-- How an operation of the handler's own tag comes back after shutdown. -/
def failed : OwnOp → Completion
  | .request => .request false
  | .read => .read none
  | .finish => .finish false

/-- What is outstanding can complete. -/
theorem enabled_of_take {w : World} {i : Nat} {k : Connection} {c : Completion}
    (hf : w.fault = false) (hk : w.conns[i]? = some k) (ht : (k.take c).isSome = true) :
    ∃ w', w.step (.complete i c) = some w' := by
  obtain ⟨k', hk'⟩ := Option.isSome_iff_exists.mp ht
  refine Option.isSome_iff_exists.mp ?_
  simp [World.step, hf, World.take, hk, hk']

/-- While something is outstanding, some completion respects the order. -/
theorem completion_due {w : World} (hr : World.machine.Reachable w)
    (hn : NothingOutlivesHandler w) (hd : ¬ Drained w) :
    ∃ i c w', c.ok = false ∧ EndsIdle w (.complete i c) ∧ w.step (.complete i c) = some w' := by
  by_cases hw : ∃ k ∈ w.conns, k.writes ≠ []
  · -- a `Write` comes first
    obtain ⟨k, hmem, hne⟩ := hw
    obtain ⟨i, hk⟩ := List.mem_iff_getElem?.mp hmem
    obtain ⟨cmd, hcmd⟩ := List.exists_mem_of_ne_nil _ hne
    obtain ⟨w', hs⟩ := enabled_of_take (c := .write cmd false) hn.unharmed hk
      (by simp [Connection.take, hcmd])
    exact ⟨i, .write cmd false, w', rfl, trivial, hs⟩
  · -- with no `Write` outstanding, any handler may finish
    have hidle : ∀ k ∈ w.conns, k.writes = [] := by
      intro k hk
      by_contra hne
      exact hw ⟨k, hk, hne⟩
    obtain ⟨k, hmem, hown⟩ : ∃ k ∈ w.conns, k.ownOps ≠ [] := by
      by_contra hall
      refine hd (fun k hk => ⟨?_, hidle k hk⟩)
      by_contra hne
      exact hall ⟨k, hk, hne⟩
    obtain ⟨i, hk⟩ := List.mem_iff_getElem?.mp hmem
    obtain ⟨op, hop⟩ := List.exists_mem_of_ne_nil _ hown
    obtain ⟨w', hs⟩ := enabled_of_take (c := failed op) hn.unharmed hk
      (by cases op <;> simp [Connection.take, failed, hop])
    refine ⟨i, failed op, w', by cases op <;> rfl, ?_, hs⟩
    cases op with
    | request => trivial
    | read => trivial
    | finish =>
        intro x hx s hxs
        obtain rfl := Option.some.inj (hk.symm.trans hx)
        exact ((connsWf_reachable hr k hmem).idle_iff hxs).mp (hidle k hmem)

/--
**The drain comes to its end.** From a reachable state in which no deleted
handler has anything outstanding, failing completions lead to a state with
nothing outstanding, a handler's `Write` always before its `Finish`.
-/
theorem shutdown_completes {w : World} (hr : World.machine.Reachable w)
    (hn : NothingOutlivesHandler w) :
    ∃ as w', (∀ a ∈ as, AfterShutdown a ∧ isPush a = false) ∧ World.machine.run w as = some w'
      ∧ (∀ k ∈ w'.conns, WriteFirst k) ∧ Drained w' := by
  have hprog : ∀ w, World.machine.Reachable w ∧ NothingOutlivesHandler w → ¬ Drained w →
      ∃ a w', (AfterShutdown a ∧ isPush a = false) ∧ World.machine.step w a = some w'
        ∧ (World.machine.Reachable w' ∧ NothingOutlivesHandler w') ∧ work w' < work w := by
    rintro w ⟨hr, hn⟩ hd
    obtain ⟨i, c, w', hc, hends, hs⟩ := completion_due hr hn hd
    have hwork := work_step (a := .complete i c) hr hc hs
    have hn' := (nothingOutlives_step hr hn hs).mpr hends
    simp only [isPush, Bool.not_false, Bool.toNat_true, Bool.toNat_false] at hwork
    have hs : World.machine.step w (.complete i c) = some w' := hs
    exact ⟨.complete i c, w', ⟨hc, rfl⟩, hs, ⟨hr.step hs, hn'⟩, by omega⟩
  obtain ⟨as, w', hok, hrun, ⟨hr', hn'⟩, hd⟩ :=
    Machine.exists_run_of_progress work hprog ⟨hr, hn⟩
  exact ⟨as, w', hok, hrun, (unharmed_iff_writeFirst hr').mp hn'.unharmed, hd⟩

end CloudGateway.Proof
