import CloudGateway.Proof.Dealing

/-!
# What is enqueued is delivered

A handler's queue moves on only when a `Write` completes, so it must never be left
with commands to write and no `Write` outstanding. The one way into that is a
`Write` that fails: `on_write_done` then clears `writing_` and starts nothing, and
the commands behind it wait for the next `enqueue`. While the last `Write` of a
handler has not failed, the successful completion of the outstanding `Write`, and
of each that follows from it, delivers everything, in order, and needs nothing else.
-/

namespace CloudGateway.Proof

open Services Proto Reactive

/-- How a `Write` did. -/
def writeOutcome : Completion → Option Bool
  | .write _ ok => some ok
  | _ => none

/-- What a `Write` carried. -/
def writeCarried : Completion → Option GatewayCommand
  | .write cmd _ => some cmd
  | _ => none

/-- What a successful `Write` carried. -/
def writeDelivered : Completion → Option GatewayCommand
  | .write cmd true => some cmd
  | _ => none

/-- How the last `Write` to complete did. -/
def lastWrite (k : Connection) : Option Bool := (k.completions.filterMap writeOutcome).getLast?

/-- The commands whose `Write` has completed, in order. -/
def completedOn (k : Connection) : List GatewayCommand := k.completions.filterMap writeCarried

/-- The commands whose `Write` has completed with `ok = true`, in order. -/
def deliveredOn (k : Connection) : List GatewayCommand := k.completions.filterMap writeDelivered

/-- Commands wait, and no `Write` is under way that would send them. -/
def Stuck (s : VehicleStreamHandler) : Prop := s.writing = false ∧ s.writeQueue ≠ []

/-! ## A queue gets stuck only behind a failed `Write` -/

/-- A flush of at least one command leaves a `Write` outstanding. -/
theorem enqueueAll_writing {k : Connection} {s : VehicleStreamHandler} (hs : k.handler = some s)
    {cmds : List GatewayCommand} (hne : cmds ≠ []) {s' : VehicleStreamHandler}
    (hs' : (cmds.foldl Connection.enqueue k).handler = some s') : s'.writing = true := by
  obtain ⟨init, last, rfl⟩ := List.eq_nil_or_concat cmds |>.resolve_left hne
  obtain ⟨s₁, ws, heq, _⟩ := enqueueAll_spec hs init
  have hlive : (init.foldl Connection.enqueue k).handler = some s₁ := by rw [heq]
  rw [List.concat_eq_append, List.foldl_append, List.foldl_cons, List.foldl_nil, enqueue_live hlive,
    issueWrite_handler] at hs'
  rw [← Option.some.inj hs']
  exact (enqueue_writing s₁ last).2

section Steps

variable [JsonText]

/-- An accept leaves a `Write` outstanding if it flushes anything. -/
theorem accepted_writing {k k' : Connection} {flushed : List GatewayCommand} (hwf : Wf k)
    (h : k.step (.complete (.request true) flushed) = some k') (hne : flushed ≠ [])
    {s' : VehicleStreamHandler} (hs' : k'.handler = some s') : s'.writing = true := by
  obtain ⟨k₁, hk₁, rfl⟩ := Option.map_eq_some_iff.mp h
  obtain ⟨s, hs, hst, heq⟩ := take_request hwf hk₁
  have hs₁ : k₁.handler = some s := by rw [heq]; exact hs
  rw [Connection.dispatch, proceed_accepting flushed true hs₁ hst] at hs'
  obtain ⟨s₁, hlive, heq'⟩ := Option.map_eq_some_iff.mp hs'
  rw [← heq']
  show s₁.writing = true
  exact enqueueAll_writing hs₁ hne hlive

/-- A handler that is stuck has seen its last `Write` fail. -/
def StuckBehindFailure (k : Connection) : Prop :=
  ∀ s, k.handler = some s → Stuck s → lastWrite k = some false

theorem lastWrite_step {k k' : Connection} {c : Completion} {flushed : List GatewayCommand}
    (hwf : Wf k) (h : k.step (.complete c flushed) = some k') :
    lastWrite k' = (writeOutcome c).or (lastWrite k) := by
  rw [lastWrite, step_completions hwf h, List.filterMap_append, List.getLast?_append]
  cases c <;> rfl

theorem stuckBehindFailure_step {k k' : Connection} {a : Connection.Action} (hwf : Wf k)
    (hk : StuckBehindFailure k) (h : k.step a = some k') : StuckBehindFailure k' := by
  intro s' hs' hstuck
  -- the queue and the flag of a handler that neither writes nor flushes are as before
  have same : ∀ {s : VehicleStreamHandler} {c : Completion} {flushed : List GatewayCommand},
      k.handler = some s → a = .complete c flushed → (∀ cmd ok, c ≠ .write cmd ok) →
      s'.writing = s.writing → s'.writeQueue = s.writeQueue → lastWrite k' = some false := by
    rintro s c flushed hs rfl hc hw hq
    rw [lastWrite_step hwf h]
    have hkept := hk s hs ⟨hw ▸ hstuck.1, hq ▸ hstuck.2⟩
    cases c with
    | write cmd ok => exact absurd rfl (hc cmd ok)
    | _ => exact hkept
  cases step_effect hwf h with
  | @enqueue s cmd hs =>
      rw [issueWrite_handler] at hs'
      obtain rfl := Option.some.inj hs'
      exact absurd ((enqueue_writing s cmd).2.symm.trans hstuck.1) (by simp)
  | @writeDone s cmd ok flushed hs hw =>
      rw [issueWrite_handler] at hs'
      obtain rfl := Option.some.inj hs'
      obtain ⟨hissued, hwriting⟩ := onWriteDone_writing s ok
      have hqueue := onWriteDone_queue s ok
      have hidle : (s.onWriteDone ok).2 = none := by
        rw [← Option.isNone_iff_eq_none, ← Option.isSome_eq_false_iff, ← hwriting]
        exact hstuck.1
      -- nothing was started, although something waits
      have hwaits : s.writeQueue ≠ [] := by
        rw [hidle] at hqueue
        exact hqueue ▸ hstuck.2
      rw [lastWrite_step hwf h]
      cases ok with
      | false => rfl
      | true =>
          rw [hidle] at hissued
          exact absurd hissued (by simp [hwaits])
  | stray hs hw => exact absurd (hs.symm.trans hs') (by simp)
  | refused hs hst => exact absurd hs' (by simp)
  | @accepted s s₁ flushed ws hs hst hst' hq hw =>
      obtain rfl := Option.some.inj hs'
      have hflushed : flushed = [] := by
        by_contra hne
        exact absurd ((accepted_writing hwf h hne rfl).symm.trans hstuck.1) (by simp)
      -- nothing was flushed, so the handler was stuck before
      have hnone : ws = [] ∧ s.writing = false := by
        rw [hstuck.1] at hw
        have hlen : s.writing.toNat = 0 ∧ ws.length = 0 := by
          simp only [Bool.toNat_false] at hw
          omega
        exact ⟨List.length_eq_zero_iff.mp hlen.2, by simpa using hlen.1⟩
      rw [hflushed, hnone.1, List.append_nil, List.nil_append] at hq
      exact same hs rfl (by simp) (hstuck.1.trans hnone.2.symm) hq
  | @readOk s ev flushed hs hst =>
      obtain rfl := Option.some.inj hs'
      exact same hs rfl (by simp) rfl rfl
  | @readFailed s flushed hs hst =>
      obtain rfl := Option.some.inj hs'
      exact same hs rfl (by simp) rfl rfl
  | finished hs hst => exact absurd hs' (by simp)

theorem stuckBehindFailure_reachable {k : Connection} (h : Connection.machine.Reachable k) :
    StuckBehindFailure k := by
  refine h.invariant (P := StuckBehindFailure) ?_ ?_
  · intro s hs hstuck
    obtain rfl := Option.some.inj hs
    exact absurd hstuck.2 (by simp)
  · intro k a k' hr hk _ hs
    exact stuckBehindFailure_step (wf_reachable hr) hk hs

end Steps

/-! ## What has been written has completed, or is on the wire -/

/-- While nothing fails, what has completed has been delivered. -/
theorem completedOn_eq {k : Connection} (h : ∀ cmd, .write cmd false ∉ k.completions) :
    completedOn k = deliveredOn k := by
  unfold completedOn deliveredOn
  refine List.filterMap_congr ?_
  intro c hc
  cases c with
  | write cmd ok =>
      cases ok with
      | false => exact absurd hc (h cmd)
      | true => rfl
  | _ => rfl

section Written

variable [JsonText]

/-- `Write`s complete in the order in which they were handed over. -/
def CompletesInOrder (k : Connection) : Prop :=
  k.writes.length ≤ 1 ∧ writtenOn k = completedOn k ++ k.writes

theorem completedOn_step {k k' : Connection} {c : Completion} {flushed : List GatewayCommand}
    (hwf : Wf k) (h : k.step (.complete c flushed) = some k') :
    completedOn k' = completedOn k ++ (writeCarried c).toList := by
  rw [completedOn, step_completions hwf h, List.filterMap_append]
  cases c <;> rfl

/-- Other completions carry nothing. -/
theorem completedOn_same {k k' : Connection} {c : Completion} {flushed : List GatewayCommand}
    (hwf : Wf k) (h : k.step (.complete c flushed) = some k') (hc : writeCarried c = none) :
    completedOn k' = completedOn k := by
  rw [completedOn_step hwf h, hc]
  exact List.append_nil _

theorem completesInOrder_step {k k' : Connection} {a : Connection.Action} (hwf : Wf k)
    (hk : CompletesInOrder k) (h : k.step a = some k') : CompletesInOrder k' := by
  obtain ⟨hsingle, horder⟩ := hk
  have hwf' := wf_step hwf h
  have hlen : ∀ s, k'.handler = some s → k'.writes.length ≤ 1 := by
    intro s hs
    rw [hwf'.writing s hs]
    exact Bool.toNat_le _
  -- the only `Write` outstanding is the one that completes
  have hlast : ∀ cmd ∈ k.writes, k.writes = [cmd] := by
    intro cmd hmem
    obtain ⟨x, hx⟩ := List.length_eq_one_iff.mp
      (Nat.le_antisymm hsingle (List.length_pos_of_mem hmem))
    rw [hx] at hmem ⊢
    rw [List.mem_singleton.mp hmem]
  have herase : ∀ cmd ∈ k.writes, k.writes.erase cmd = [] := by
    intro cmd hmem
    rw [hlast cmd hmem, List.erase_cons_head]
  cases step_effect hwf h with
  | @enqueue s cmd hs =>
      refine ⟨hlen _ (issueWrite_handler _ _), ?_⟩
      have hsame : ∀ o, completedOn (Connection.issueWrite
          { k with handler := some (s.enqueue cmd).1 } o) = completedOn k := by
        intro o
        rw [completedOn, issueWrite_completions]
        rfl
      rw [hsame, writtenOn, issueWrite_calls, writtenOn_issue, issueWrite_writes,
        ← List.append_assoc]
      exact congrArg (· ++ _) horder
  | @writeDone s cmd ok flushed hs hw =>
      refine ⟨hlen _ (issueWrite_handler _ _), ?_⟩
      rw [completedOn_step hwf h, writtenOn, issueWrite_calls, writtenOn_issue, issueWrite_writes,
        ← List.append_assoc, herase cmd hw, List.append_nil]
      rw [hlast cmd hw] at horder
      exact congrArg (· ++ _) horder
  | @stray cmd ok flushed hs hw =>
      have hgone := herase cmd hw
      refine ⟨by rw [hgone]; exact Nat.zero_le _, ?_⟩
      rw [completedOn_step hwf h, hgone, List.append_nil]
      rw [hlast cmd hw] at horder
      exact horder
  | refused hs hst =>
      refine ⟨hsingle, ?_⟩
      rw [completedOn_same hwf h rfl]
      exact horder
  | @accepted s s' flushed ws hs hst hst' hq hw =>
      refine ⟨hlen _ rfl, ?_⟩
      rw [completedOn_same hwf h rfl, ← List.append_assoc, ← horder]
      simp [writtenOn, List.filterMap_map]
  | @readOk s ev flushed hs hst =>
      refine ⟨hsingle, ?_⟩
      rw [completedOn_same hwf h rfl, writtenOn_own k .read rfl]
      exact horder
  | @readFailed s flushed hs hst =>
      refine ⟨hsingle, ?_⟩
      rw [completedOn_same hwf h rfl, writtenOn_own k .finish rfl]
      exact horder
  | finished hs hst =>
      refine ⟨hsingle, ?_⟩
      rw [completedOn_same hwf h rfl]
      exact horder

theorem completesInOrder_reachable {k : Connection} (h : Connection.machine.Reachable k) :
    CompletesInOrder k :=
  h.invariant (P := CompletesInOrder) ⟨by simp [Connection.machine], rfl⟩
    (fun _ _ _ hr hk _ hs => completesInOrder_step (wf_reachable hr) hk hs)

end Written

/-! ## Delivering a queue -/

theorem onWriteDone_empty {s : VehicleStreamHandler} (hq : s.writeQueue = []) :
    s.onWriteDone true = ({ s with writing := false }, none) := by
  simp [VehicleStreamHandler.onWriteDone, VehicleStreamHandler.flushWriteQueueLocked, hq]

theorem onWriteDone_next {s : VehicleStreamHandler} {cmd : GatewayCommand}
    {rest : List GatewayCommand} (hq : s.writeQueue = cmd :: rest) :
    s.onWriteDone true = ({ s with writing := true, writeQueue := rest }, some cmd) := by
  simp [VehicleStreamHandler.onWriteDone, VehicleStreamHandler.flushWriteQueueLocked, hq]

/-- The completions that deliver `cmds` to a handler. -/
def confirming (h : Nat) (cmds : List GatewayCommand) : List World.Action :=
  cmds.map (fun cmd => .complete h (.write cmd true))

/-- A connection after `cmds` have been delivered on it, and nothing else has happened. -/
structure QueueDelivered (k : Connection) (s : VehicleStreamHandler) (cmds : List GatewayCommand)
    (k' : Connection) : Prop where
  delivered : deliveredOn k' = deliveredOn k ++ cmds
  quiet : k'.writes = []
  idle : k'.handler = some { s with writing := false, writeQueue := [] }
  own : k'.ownOps = k.ownOps

variable [JsonText]

/-- The world after the one outstanding `Write` of a live handler has succeeded. -/
theorem step_confirm {w : World} {h : Nat} {k : Connection} {s : VehicleStreamHandler}
    {cmd : GatewayCommand} (hf : w.fault = false) (hk : w.conns[h]? = some k)
    (hs : k.handler = some s) (hw : k.writes = [cmd]) :
    World.machine.step w (.complete h (.write cmd true))
      = some { w with conns := w.conns.set h (Connection.issueWrite
          { k with
            handler := some (s.onWriteDone true).1
            writes := []
            completions := k.completions ++ [.write cmd true] } (s.onWriteDone true).2) } := by
  have htake : k.take (.write cmd true) = some
      { k with writes := [], completions := k.completions ++ [.write cmd true] } := by
    simp [Connection.take, hw]
  simp only [World.machine, World.step, hf, World.take, hk, Option.bind_some, htake,
    Option.map_some, World.runCQ, World.writerProceed, Bool.false_eq_true, if_false]
  rw [handler_of (set_at hk _)]
  simp only [hs]
  rw [modify_conn (set_at hk _)]
  simp only [List.set_set, Connection.onWriteDone, Connection.writeWith]

/-- **The outstanding `Write` and the queue behind it are delivered one by one.** -/
theorem run_confirming {w : World} {h : Nat} (queue : List GatewayCommand) {k : Connection}
    {s : VehicleStreamHandler} {cmd : GatewayCommand} (hf : w.fault = false)
    (hk : w.conns[h]? = some k) (hs : k.handler = some s) (hw : k.writes = [cmd])
    (hq : s.writeQueue = queue) :
    ∃ k', World.machine.run w (confirming h (cmd :: queue))
        = some { w with conns := w.conns.set h k' }
      ∧ QueueDelivered k s (cmd :: queue) k' := by
  induction queue generalizing w k s cmd with
  | nil =>
      have hstep := step_confirm hf hk hs hw
      rw [onWriteDone_empty hq] at hstep
      refine ⟨_, (Machine.run_cons ..).trans (by rw [hstep]; rfl), ?_⟩
      exact ⟨by simp [deliveredOn, Connection.issueWrite, writeDelivered], rfl,
        by simp [hq, Connection.issueWrite], rfl⟩
  | cons next rest ih =>
      have hstep := step_confirm hf hk hs hw
      rw [onWriteDone_next hq] at hstep
      set k₁ := Connection.issueWrite
        { k with
          handler := some { s with writing := true, writeQueue := rest }
          writes := []
          completions := k.completions ++ [.write cmd true] } (some next) with hk₁
      obtain ⟨k', hrun, hd⟩ := ih (w := { w with conns := w.conns.set h k₁ }) (k := k₁)
        (s := { s with writing := true, writeQueue := rest }) hf (set_at hk k₁) rfl rfl rfl
      refine ⟨k', ?_, ?_⟩
      · rw [confirming, List.map_cons, Machine.run_cons, hstep, Option.bind_some]
        rw [List.set_set] at hrun
        exact hrun
      · refine ⟨?_, hd.quiet, hd.idle, hd.own⟩
        rw [hd.delivered]
        simp [hk₁, deliveredOn, Connection.issueWrite, writeDelivered]

/--
**Nothing is left waiting.** In every reachable state, a handler that has commands
in its queue and no `Write` outstanding has seen its last `Write` fail. While the
last one has not failed, the successful completion of what is outstanding and then
of what is queued, and nothing else, empties the queue: if no `Write` has ever
failed there, the vehicle then has the whole block of commands that its connection
was given, in order.
-/
theorem delivery_completes {w : World} (hr : World.machine.Reachable w) (hf : w.fault = false)
    {h : Nat} {k : Connection} {s : VehicleStreamHandler} (hk : w.conns[h]? = some k)
    (hs : k.handler = some s) :
    (Stuck s → lastWrite k = some false)
      ∧ (lastWrite k ≠ some false →
          ∃ k', World.machine.run w (confirming h (k.writes ++ s.writeQueue))
              = some { w with conns := w.conns.set h k' }
            ∧ k'.writes = []
            ∧ k'.handler = some { s with writing := false, writeQueue := [] }
            ∧ deliveredOn k' = deliveredOn k ++ k.writes ++ s.writeQueue
            ∧ ∀ cmds, DealtTo w.conns h cmds → (∀ cmd, .write cmd false ∉ k.completions) →
                deliveredOn k' = cmds) := by
  have hreach := conns_reachable hr k (List.mem_of_getElem? hk)
  have hstuck := stuckBehindFailure_reachable hreach s hs
  refine ⟨hstuck, fun hlast => ?_⟩
  -- what has been delivered, what is on the wire and what is queued make up the block
  have hblock : ∀ cmds, DealtTo w.conns h cmds → (∀ cmd, .write cmd false ∉ k.completions) →
      deliveredOn k ++ k.writes ++ s.writeQueue = cmds := by
    rintro cmds ⟨x, hx, hdisc⟩ hnone
    obtain rfl := Option.some.inj (hk.symm.trans hx)
    rw [← completedOn_eq hnone, ← (completesInOrder_reachable hreach).2]
    exact hdisc.queue s hs
  have hlen := (wf_reachable hreach).writing s hs
  cases hw : s.writing with
  | false =>
      have hwrites : k.writes = [] := by
        rw [hw] at hlen
        exact List.length_eq_zero_iff.mp hlen
      have hqueue : s.writeQueue = [] := by
        by_contra hne
        exact hlast (hstuck ⟨hw, hne⟩)
      have hsame : ({ s with writing := false, writeQueue := [] } : VehicleStreamHandler) = s := by
        cases s
        simp_all
      refine ⟨k, ?_, hwrites, by rw [hsame]; exact hs, ?_, ?_⟩
      · rw [hwrites, hqueue, set_at_eq hk]
        rfl
      · rw [hwrites, hqueue, List.append_nil, List.append_nil]
      · intro cmds hd hnone
        have := hblock cmds hd hnone
        rwa [hwrites, hqueue, List.append_nil, List.append_nil] at this
  | true =>
      have hone : k.writes.length = 1 := by rw [hlen, hw]; rfl
      obtain ⟨cmd, hwrites⟩ := List.length_eq_one_iff.mp hone
      obtain ⟨k', hrun, hd⟩ := run_confirming s.writeQueue hf hk hs hwrites rfl
      have hall : deliveredOn k' = deliveredOn k ++ k.writes ++ s.writeQueue := by
        rw [hd.delivered, hwrites, List.append_assoc]
        rfl
      refine ⟨k', by rw [hwrites]; exact hrun, hd.quiet, hd.idle, hall, ?_⟩
      intro cmds hdealt hnone
      rw [hall]
      exact hblock cmds hdealt hnone

omit [JsonText] in
/-- A flushed command on the wire and a direct one queued behind it. -/
theorem delivery_completes_queued :
    ∃ (_ : JsonText) (w : World) (k k' : Connection),
      World.machine.Reachable w ∧ w.conns[0]? = some k
      ∧ k.writes = [.orderUpdateStatus ⟨"V1"⟩]
      ∧ World.machine.run w (confirming 0 [.orderUpdateStatus ⟨"V1"⟩, .orderUpdateStatus ⟨"V2"⟩])
          = some { w with conns := w.conns.set 0 k' }
      ∧ deliveredOn k' = [.orderUpdateStatus ⟨"V1"⟩, .orderUpdateStatus ⟨"V2"⟩] := by
  let _ : JsonText := ⟨fun _ => ""⟩
  obtain ⟨w, hr, hp⟩ := Machine.exists_reachable_of_run (M := World.machine)
    (l := [.push (.orderUpdateStatus ⟨"V1"⟩), .complete 0 (.request true),
      .push (.orderUpdateStatus ⟨"V2"⟩)])
    (p := fun w => decide (w.fault = false
      ∧ w.conns[0]?.map (fun k => (k.writes, k.handler.map (·.writeQueue), lastWrite k,
          deliveredOn k))
        = some ([.orderUpdateStatus ⟨"V1"⟩], some [.orderUpdateStatus ⟨"V2"⟩], none, [])))
    (by decide)
  obtain ⟨hf, hconn⟩ := of_decide_eq_true hp
  obtain ⟨k, hk, heq⟩ := Option.map_eq_some_iff.mp hconn
  simp only [Prod.mk.injEq] at heq
  obtain ⟨hwrites, hqueued, hlast, hnone⟩ := heq
  obtain ⟨s, hs, hqueue⟩ := Option.map_eq_some_iff.mp hqueued
  obtain ⟨k', hrun, _, _, hall, _⟩ := (delivery_completes hr hf hk hs).2 (by simp [hlast])
  refine ⟨_, w, k, k', hr, hk, hwrites, ?_, ?_⟩
  · rw [hwrites, hqueue] at hrun
    exact hrun
  · rw [hall, hnone, hwrites, hqueue]
    rfl

end CloudGateway.Proof
