import CloudGateway.Proof.Connections

/-!
# The end of a connection

Two tags drive one handler. The read side ends the stream: a failed `Read` calls
`Finish`, and the completion of `Finish` deletes the object. The write side does
not look at `state_`, and the read side does not look at `writing_`. So a `Write`
may follow `Finish`, and a `Write` may be outstanding when the object goes. For
each of the two, this file says exactly which steps bring it about.
-/

namespace CloudGateway.Proof

open Services Proto Reactive

/-! ## After `Finish` -/

/-- `Read` and `Write`, the operations gRPC does not allow after `Finish`. -/
def isReadOrWrite : StreamOp → Bool
  | .own .read => true
  | .write _ => true
  | _ => false

/-- No `Read` and no `Write` comes after a `Finish`. -/
def Quiet (calls : List StreamOp) : Prop :=
  calls.Pairwise (fun a b => a = .own .finish → isReadOrWrite b = false)

instance (calls : List StreamOp) : Decidable (Quiet calls) :=
  inferInstanceAs (Decidable (calls.Pairwise _))

/-- Once the handler has called `Finish` it never again calls `Write` or `Read`. -/
def NoOperationAfterFinish (k : Connection) : Prop := Quiet k.calls

instance (k : Connection) : Decidable (NoOperationAfterFinish k) :=
  inferInstanceAs (Decidable (Quiet k.calls))

theorem quiet_append {calls ops : List StreamOp} :
    Quiet (calls ++ ops)
      ↔ Quiet calls ∧ Quiet ops
        ∧ (.own .finish ∈ calls → ∀ op ∈ ops, isReadOrWrite op = false) := by
  unfold Quiet
  rw [List.pairwise_append]
  refine and_congr_right (fun _ => and_congr_right (fun _ => ⟨?_, ?_⟩))
  · intro h hf op hop
    exact h _ hf op hop rfl
  · rintro h a ha b hb rfl
    exact h ha b hb

theorem quiet_writes (ws : List GatewayCommand) : Quiet (ws.map .write) :=
  List.pairwise_map.mpr (List.pairwise_of_forall (fun _ _ h => absurd h (by simp)))

/--
The steps that leave a finished stream alone: in `FINISH`, no `enqueue` while the
writer is idle, and no `Write` that completes well with commands still queued.
-/
def SparesFinished (k : Connection) : Connection.Action → Prop
  | .enqueue _ => ∀ s ∈ k.handler, s.state = .finish → s.writing = true
  | .complete (.write _ true) _ => ∀ s ∈ k.handler, s.state = .finish → s.writeQueue = []
  | _ => True

instance (k : Connection) : (a : Connection.Action) → Decidable (SparesFinished k a)
  | .enqueue _ =>
      inferInstanceAs (Decidable (∀ s ∈ k.handler, s.state = .finish → s.writing = true))
  | .complete (.write _ true) _ =>
      inferInstanceAs (Decidable (∀ s ∈ k.handler, s.state = .finish → s.writeQueue = []))
  | .complete (.write _ false) _ | .complete (.request _) _ | .complete (.read _) _
  | .complete (.finish _) _ => isTrue trivial

variable [JsonText]

/-- `Finish` has been called exactly when a `Read` has failed. -/
theorem finish_called_iff {k : Connection} (h : Connection.machine.Reachable k) :
    .own .finish ∈ k.calls ↔ received k (.read none) = true := by
  refine h.invariant
    (P := fun k => .own .finish ∈ k.calls ↔ received k (.read none) = true) ?_ ?_
  · simp [Connection.machine, received]
  · intro k a k' hr ih _ hs
    cases step_effect (wf_reachable hr) hs <;>
      simp_all [received]

/-- While the handler lives, `Finish` has been called exactly in `FINISH`. -/
theorem finish_called_state {k : Connection} {s : VehicleStreamHandler}
    (h : Connection.machine.Reachable k) (hs : k.handler = some s) :
    .own .finish ∈ k.calls ↔ s.state = .finish := by
  have hp := phase_reachable h
  rw [finish_called_iff h]
  cases hst : s.state <;> simp_all [Phase, stateOf]

/-- Appending operations other than `Finish` to the calls of a live handler. -/
theorem quiet_live {k : Connection} {s : VehicleStreamHandler}
    (h : Connection.machine.Reachable k) (hs : k.handler = some s) (hq : Quiet k.calls)
    {ops : List StreamOp} (hops : Quiet ops) :
    Quiet (k.calls ++ ops) ↔ (s.state = .finish → ∀ op ∈ ops, isReadOrWrite op = false) := by
  rw [quiet_append, finish_called_state h hs]
  exact ⟨fun h => h.2.2, fun h => ⟨hq, hops, h⟩⟩

omit [JsonText] in
/-- The `Write` a method may start, seen from a handler in `FINISH`. -/
theorem quiet_issued (o : Option GatewayCommand) :
    (∀ op ∈ o.toList.map StreamOp.write, isReadOrWrite op = false) ↔ o.isSome = false := by
  cases o <;> simp [isReadOrWrite]

/-- **One step keeps the finished stream quiet exactly when it spares it.** -/
theorem quiet_step {k k' : Connection} {a : Connection.Action}
    (h : Connection.machine.Reachable k) (hq : NoOperationAfterFinish k)
    (hs : k.step a = some k') : NoOperationAfterFinish k' ↔ SparesFinished k a := by
  unfold NoOperationAfterFinish at *
  cases step_effect (wf_reachable h) hs with
  | @enqueue s cmd hk =>
      -- an idle writer starts a `Write` whatever `state_` is
      rw [issueWrite_calls, quiet_live h hk hq (quiet_writes _), quiet_issued,
        (enqueue_writing s cmd).1]
      simp [SparesFinished, hk]
  | @writeDone s cmd ok _ hk hw =>
      -- and so does a `Write` that succeeded, if the queue is not empty
      rw [issueWrite_calls, quiet_live h hk hq (quiet_writes _), quiet_issued,
        (onWriteDone_writing s ok).1]
      cases ok <;> simp [SparesFinished, hk]
  | @stray cmd ok _ hk hw => cases ok <;> simpa [SparesFinished, hk] using hq
  | refused hk hst => simpa [SparesFinished] using hq
  | @accepted s s' _ ws hk hst hst' hq' hw =>
      have hops : Quiet (ws.map StreamOp.write ++ [.own .read]) :=
        quiet_append.mpr ⟨quiet_writes ws, List.pairwise_singleton .., by simp⟩
      rw [List.append_assoc, quiet_live h hk hq hops]
      simp [SparesFinished, hst]
  | readOk hk hst =>
      rw [quiet_live h hk hq (List.pairwise_singleton ..)]
      simp [SparesFinished, hst]
  | readFailed hk hst =>
      rw [quiet_live h hk hq (List.pairwise_singleton ..)]
      simp [SparesFinished, isReadOrWrite]
  | finished hk hst => simpa [SparesFinished] using hq

/--
**When nothing follows `Finish`.** In a run whose steps all spare the finished
stream, no `Read` and no `Write` follows `Finish`; and the first step that does
not spare it starts a `Write` after `Finish`.
-/
theorem no_operation_after_finish {k : Connection}
    (h : Connection.machine.ReachableWhen SparesFinished k) :
    NoOperationAfterFinish k
      ∧ ∀ a k', k.step a = some k' → (NoOperationAfterFinish k' ↔ SparesFinished k a) := by
  have hq : NoOperationAfterFinish k := by
    refine h.invariant (P := NoOperationAfterFinish) ?_ ?_
    · exact List.pairwise_singleton ..
    · intro k a k' hr hq hok hs
      exact (quiet_step hr.reachable hq hs).mpr hok
  exact ⟨hq, fun a k' hs => quiet_step h.reachable hq hs⟩

omit [JsonText] in
/-- A stream whose two commands are written before the vehicle leaves. -/
theorem no_operation_after_finish_drained :
    ∃ (_ : JsonText) (k : Connection), Connection.machine.ReachableWhen SparesFinished k
      ∧ k.calls.length = 5 ∧ .own .finish ∈ k.calls ∧ NoOperationAfterFinish k := by
  let _ : JsonText := ⟨fun _ => ""⟩
  obtain ⟨k, hr, hp⟩ := Machine.exists_reachableWhen_of_run (M := Connection.machine)
    (Q := SparesFinished)
    (l := [.complete (.request true) [.orderUpdateStatus ⟨"V1"⟩],
      .complete (.write (.orderUpdateStatus ⟨"V1"⟩) true) [],
      .enqueue (.orderUpdateLocation ⟨"V1"⟩), .complete (.read none) [],
      .complete (.write (.orderUpdateLocation ⟨"V1"⟩) true) []])
    (p := fun k => decide (k.calls.length = 5 ∧ .own .finish ∈ k.calls)) (by decide)
  obtain ⟨hlen, hf⟩ := of_decide_eq_true hp
  exact ⟨_, k, hr, hlen, hf, (no_operation_after_finish hr).1⟩

omit [JsonText] in
/--
Two queued commands, and the vehicle leaves while the first is on the wire: its
completion starts the second `Write`, after `Finish`. The run is one of the
handlers together.
-/
theorem not_noOperationAfterFinish :
    ¬ ∀ (_ : JsonText) (k : Connection), Connection.machine.Reachable k →
      NoOperationAfterFinish k := by
  intro h
  let _ : JsonText := ⟨fun _ => ""⟩
  obtain ⟨w, hr, hp⟩ := Machine.exists_reachable_of_run (M := World.machine)
    (l := [.push (.orderUpdateStatus ⟨"V1"⟩), .push (.orderUpdateLocation ⟨"V1"⟩),
      .complete 0 (.request true), .complete 0 (.read none),
      .complete 0 (.write (.orderUpdateStatus ⟨"V1"⟩) true)])
    (p := fun w => decide (∃ k ∈ w.conns, ¬ NoOperationAfterFinish k)) (by decide)
  obtain ⟨k, hk, hbad⟩ := of_decide_eq_true hp
  exact hbad (h _ k (conns_reachable hr k hk))

/-! ## After `delete this` -/

/-- A deleted handler has nothing outstanding, and none has been used. -/
structure NothingOutlivesHandler (w : World) : Prop where
  /-- Neither under its own tag nor under its writer's. -/
  idle : ∀ k ∈ w.conns, k.handler = none → k.ownOps = [] ∧ k.writes = []
  /-- No completion, and no command, has reached a deleted handler. -/
  unharmed : w.fault = false

/-- The steps that delete no handler under its own `Write`. -/
def EndsIdle (w : World) : World.Action → Prop
  | .complete h (.finish _) => ∀ k ∈ w.conns[h]?, ∀ s ∈ k.handler, s.writing = false
  | _ => True

instance (w : World) : (a : World.Action) → Decidable (EndsIdle w a)
  | .complete h (.finish _) =>
      inferInstanceAs (Decidable (∀ k ∈ w.conns[h]?, ∀ s ∈ k.handler, s.writing = false))
  | .complete _ (.request _) | .complete _ (.read _) | .complete _ (.write _ _)
  | .push _ => isTrue trivial

omit [JsonText] in
theorem Wf.idle_iff {k : Connection} {s : VehicleStreamHandler} (hwf : Wf k)
    (hs : k.handler = some s) : k.writes = [] ↔ s.writing = false := by
  rw [← List.length_eq_zero_iff, hwf.writing s hs]
  cases s.writing <;> simp

/--
What deletes a handler is a refusal, which finds it untouched, or its `Finish`,
which does not look at its `Write`.
-/
theorem step_idle {w : World} {i : Nat} {c : Completion} {k k' : Connection}
    (hr : World.machine.Reachable w) (hn : NothingOutlivesHandler w) (hm : Moves w i c k k') :
    (k'.handler = none → k'.ownOps = [] ∧ k'.writes = []) ↔ EndsIdle w (.complete i c) := by
  have hmem := List.mem_of_getElem? hm.1
  have hwf := connsWf_reachable hr k hmem
  cases step_effect hwf hm.2 with
  | writeDone hs hw => simp [EndsIdle]
  | stray hs hw => rw [(hn.idle k hmem hs).2] at hw; exact absurd hw (by simp)
  | accepted hs hst hst' hq hw => simp [EndsIdle]
  | readOk hs hst => simp [EndsIdle]
  | readFailed hs hst => simp [EndsIdle]
  | refused hs hst =>
      have hk := accepting_untouched hr k hmem (by simp [stateOf, hs, hst])
      simp [EndsIdle, hk]
  | finished hs hst => simp [EndsIdle, hm.1, hs, hwf.idle_iff hs]

/-- **One step leaves nothing behind exactly when it deletes no handler under its `Write`.** -/
theorem nothingOutlives_step {w w' : World} {a : World.Action}
    (hr : World.machine.Reachable w) (hn : NothingOutlivesHandler w) (hs : w.step a = some w') :
    NothingOutlivesHandler w' ↔ EndsIdle w a := by
  have move : ∀ {i : Nat} {c : Completion} {k k' : Connection}, Moves w i c k k' →
      ((∀ x ∈ w.conns.set i k', x.handler = none → x.ownOps = [] ∧ x.writes = [])
        ↔ EndsIdle w (.complete i c)) := by
    intro i c k k' hm
    rw [← step_idle hr hn hm]
    exact forall_set_at hn.idle hm.1
  have still : ∀ {w' : World} {i : Nat} {c : Completion} {k k' : Connection},
      Moves w i c k k' → w'.conns = w.conns.set i k' → w'.fault = w.fault →
      (NothingOutlivesHandler w' ↔ EndsIdle w (.complete i c)) := by
    intro w' i c k k' hm hconns hfault
    rw [← move hm, ← hconns]
    exact ⟨fun h => h.idle, fun h => ⟨h, by rw [hfault]; exact hn.unharmed⟩⟩
  cases world_effect_reachable hr hs with
  | queued ha => exact ⟨fun _ => trivial, fun _ => ⟨hn.idle, hn.unharmed⟩⟩
  | sent ha hk hks =>
      refine ⟨fun _ => trivial, fun _ => ⟨(forall_set_at hn.idle hk).mpr ?_, hn.unharmed⟩⟩
      intro hd
      rw [enqueue_live hks] at hd
      exact absurd hd (by simp)
  | dangling ha hd => exact absurd hd (active_alive hr ha)
  | @accepted i k k' hm =>
      refine ⟨fun _ => trivial, fun _ => ⟨?_, hn.unharmed⟩⟩
      intro x hx hd
      rcases List.mem_append.mp hx with hx | hx
      · exact (move hm).mpr trivial x hx hd
      · rw [List.mem_singleton.mp hx] at hd; exact absurd hd (by simp)
  | refused hm => exact still hm rfl rfl
  | readOk hm => exact still hm rfl rfl
  | readFailed hm => exact still hm rfl rfl
  | finished hm => exact still hm rfl rfl
  | written hm hks => exact still hm rfl rfl
  | stray hm hks =>
      -- no `Write` outlives its handler so far
      have hmem := List.mem_of_getElem? hm.1
      cases step_effect (connsWf_reachable hr _ hmem) hm.2 with
      | writeDone hlive hw => rw [hks] at hlive; exact absurd hlive (by simp)
      | stray hd hw => rw [(hn.idle _ hmem hd).2] at hw; exact absurd hw (by simp)

/--
**When no completion reaches a deleted handler.** In a run in which every
`Finish` completes while its handler has no `Write` outstanding, a deleted
handler has nothing outstanding and no deleted handler is used; and the first
`Finish` that does not leaves its `Write` behind.
-/
theorem nothing_outlives_handler {w : World} (h : World.machine.ReachableWhen EndsIdle w) :
    NothingOutlivesHandler w
      ∧ ∀ a w', w.step a = some w' → (NothingOutlivesHandler w' ↔ EndsIdle w a) := by
  have hn : NothingOutlivesHandler w := by
    refine h.invariant (P := NothingOutlivesHandler) ⟨?_, rfl⟩ ?_
    · intro k hk hd
      rw [List.mem_singleton.mp hk] at hd
      exact absurd hd (by simp)
    · intro w a w' hr hn hok hs
      exact (nothingOutlives_step hr.reachable hn hs).mpr hok
  exact ⟨hn, fun a w' hs => nothingOutlives_step h.reachable hn hs⟩

omit [JsonText] in
/-- A vehicle that leaves after its last command has been written. -/
theorem nothing_outlives_handler_left :
    ∃ (_ : JsonText) (w : World), World.machine.ReachableWhen EndsIdle w
      ∧ (∃ k ∈ w.conns, k.handler = none ∧ k.calls.length = 4) ∧ NothingOutlivesHandler w := by
  let _ : JsonText := ⟨fun _ => ""⟩
  obtain ⟨w, hr, hp⟩ := Machine.exists_reachableWhen_of_run (M := World.machine) (Q := EndsIdle)
    (l := [.push (.orderUpdateStatus ⟨"V1"⟩), .complete 0 (.request true),
      .complete 0 (.read none), .complete 0 (.write (.orderUpdateStatus ⟨"V1"⟩) true),
      .complete 0 (.finish true)])
    (p := fun w => decide (∃ k ∈ w.conns, k.handler = none ∧ k.calls.length = 4)) (by decide)
  exact ⟨_, w, hr, of_decide_eq_true hp, (nothing_outlives_handler hr).1⟩

omit [JsonText] in
/-- The vehicle leaves while a command is on the wire, and `Finish` completes before the `Write`. -/
theorem not_nothingOutlivesHandler :
    ¬ ∀ (_ : JsonText) (w : World), World.machine.Reachable w → NothingOutlivesHandler w := by
  intro h
  let _ : JsonText := ⟨fun _ => ""⟩
  obtain ⟨w, hr, hp⟩ := Machine.exists_reachable_of_run (M := World.machine)
    (l := [.push (.orderUpdateStatus ⟨"V1"⟩), .complete 0 (.request true),
      .complete 0 (.read none), .complete 0 (.finish true),
      .complete 0 (.write (.orderUpdateStatus ⟨"V1"⟩) true)])
    (p := fun w => w.fault) (by decide)
  rw [(h _ w hr).unharmed] at hp
  exact absurd hp (by simp)

end CloudGateway.Proof
