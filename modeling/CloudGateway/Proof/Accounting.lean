import CloudGateway.Lib.Relay
import CloudGateway.Proof.Connections

/-!
# Where the commands are

A pushed command is written, on the wire, in the queue of a handler that still
exists, or in `pending_commands_`. This file follows commands through the four
places. Two things make one disappear: a `Write` that fails, since the command
has already left the queue and `on_write_done` does not put it back, and a
handler that deletes itself with commands still queued. `lostBy` is the exact
loss of a step, so a run none of whose steps loses anything is simulated by a
store-and-forward relay, and loses nothing.
-/

namespace CloudGateway.Proof

open Services Proto Reactive

/-! ## The places of one connection -/

/-- Commands whose `Write` completed with `ok = true`. -/
def writtenBy (k : Connection) : Multiset GatewayCommand :=
  (k.completions.filterMap (fun c => match c with
    | .write cmd true => some cmd
    | _ => none) : List GatewayCommand)

/-- Commands carried by outstanding `Write`s. -/
def onWire (k : Connection) : Multiset GatewayCommand := (k.writes : List GatewayCommand)

/-- Commands in the `write_queue_` of a handler that has not been deleted. -/
def queuedIn (k : Connection) : Multiset GatewayCommand :=
  match k.handler with
  | none => 0
  | some s => (s.writeQueue : List GatewayCommand)

/-- What enters a connection with an action. -/
def gainedBy : Connection.Action → Multiset GatewayCommand
  | .enqueue cmd => {cmd}
  | .complete (.request true) flushed => (flushed : List GatewayCommand)
  | _ => 0

theorem gainedBy_other {c : Completion} (hc : c ≠ .request true)
    (flushed : List GatewayCommand) : gainedBy (.complete c flushed) = 0 := by
  cases c with
  | request ok =>
      cases ok with
      | false => rfl
      | true => exact absurd rfl hc
  | _ => rfl

/-- What an action delivers. -/
def deliveredBy : Completion → Multiset GatewayCommand
  | .write cmd true => {cmd}
  | _ => 0

/-- What an action makes disappear: a failed `Write`, or the queue of a handler that ends. -/
def lostBy (k : Connection) : Completion → Multiset GatewayCommand
  | .write cmd false => {cmd}
  | .request false => queuedIn k
  | .finish _ => queuedIn k
  | _ => 0

/-- A `Write` either delivers its command or loses it. -/
theorem delivered_add_lost (k : Connection) (cmd : GatewayCommand) (ok : Bool) :
    deliveredBy (.write cmd ok) + lostBy k (.write cmd ok) = {cmd} := by
  cases ok <;> simp [deliveredBy, lostBy]

theorem cons_erase_coe {cmds : List GatewayCommand} {cmd : GatewayCommand} (h : cmd ∈ cmds) :
    ({cmd} : Multiset GatewayCommand) + (cmds.erase cmd : List GatewayCommand)
      = (cmds : List GatewayCommand) := by
  rw [Multiset.singleton_add, ← Multiset.coe_erase]
  exact Multiset.cons_erase (Multiset.mem_coe.mpr h)

theorem deliveredBy_cases (c : Completion) :
    deliveredBy c = 0 ∨ ∃ cmd, deliveredBy c = {cmd} := by
  cases c with
  | write cmd ok =>
      cases ok with
      | false => exact Or.inl rfl
      | true => exact Or.inr ⟨cmd, rfl⟩
  | _ => exact Or.inl rfl

/-- Everything a connection still has to deliver. -/
def heldBy (k : Connection) : Multiset GatewayCommand := onWire k + queuedIn k

variable [JsonText]

theorem step_written {k k' : Connection} {c : Completion} {flushed : List GatewayCommand}
    (hwf : Wf k) (h : k.step (.complete c flushed) = some k') :
    writtenBy k' = writtenBy k + deliveredBy c := by
  rw [writtenBy, step_completions hwf h, List.filterMap_append, ← Multiset.coe_add]
  cases c with
  | write cmd ok => cases ok <;> rfl
  | _ => rfl

/-- **The books of one connection.** -/
theorem step_held {k k' : Connection} {c : Completion} {flushed : List GatewayCommand}
    (hwf : Wf k) (h : k.step (.complete c flushed) = some k') :
    heldBy k' + deliveredBy c + lostBy k c = heldBy k + gainedBy (.complete c flushed) := by
  cases step_effect hwf h with
  | @writeDone s cmd ok _ hs hw =>
      have hq : ((s.onWriteDone ok).2.toList : Multiset GatewayCommand)
          + ((s.onWriteDone ok).1.writeQueue : List GatewayCommand)
          = (s.writeQueue : List GatewayCommand) := by
        rw [Multiset.coe_add, onWriteDone_queue]
      simp only [heldBy, onWire, queuedIn, issueWrite_writes, issueWrite_handler, hs, gainedBy, add_zero,
        ← Multiset.coe_add]
      rw [add_assoc _ (deliveredBy _), delivered_add_lost, ← hq, ← cons_erase_coe hw]
      abel
  | @stray cmd ok _ hs hw =>
      simp only [heldBy, onWire, queuedIn, hs, gainedBy, add_zero]
      rw [add_assoc, delivered_add_lost, ← cons_erase_coe hw]
      abel
  | refused hs hst => simp [heldBy, onWire, queuedIn, deliveredBy, lostBy, gainedBy]
  | @accepted s s' flushed ws hs hst hst' hq hw =>
      have hq' : (ws : Multiset GatewayCommand) + (s'.writeQueue : List GatewayCommand)
          = (s.writeQueue : List GatewayCommand) + (flushed : List GatewayCommand) := by
        rw [Multiset.coe_add, Multiset.coe_add, hq]
      simp only [heldBy, onWire, queuedIn, hs, gainedBy, deliveredBy, lostBy, add_zero, ← Multiset.coe_add]
      rw [add_assoc, hq', ← add_assoc]
  | readOk hs hst => simp [heldBy, onWire, queuedIn, deliveredBy, lostBy, gainedBy, hs]
  | readFailed hs hst => simp [heldBy, onWire, queuedIn, deliveredBy, lostBy, gainedBy, hs]
  | finished hs hst => simp [heldBy, onWire, queuedIn, deliveredBy, lostBy, gainedBy]

omit [JsonText] in
theorem enqueue_held {k : Connection} {s : VehicleStreamHandler} (hs : k.handler = some s)
    (cmd : GatewayCommand) :
    heldBy (k.enqueue cmd) = heldBy k + {cmd} := by
  have hq : ((s.enqueue cmd).2.toList : Multiset GatewayCommand)
      + ((s.enqueue cmd).1.writeQueue : List GatewayCommand)
      = (s.writeQueue : List GatewayCommand) + {cmd} := by
    rw [Multiset.coe_add, enqueue_queue, ← Multiset.coe_add, Multiset.coe_singleton]
  rw [enqueue_live hs]
  simp only [heldBy, onWire, queuedIn, issueWrite_writes, issueWrite_handler, hs, ← Multiset.coe_add]
  rw [add_assoc, hq, ← add_assoc]

/-! ## The places of a world -/

/-- Commands completed by a `Write` with `ok = true`. -/
def completedWrites (w : World) : Multiset GatewayCommand := (w.conns.map writtenBy).sum

/-- Commands carried by a `Write` outstanding on some stream. -/
def outstandingWrites (w : World) : Multiset GatewayCommand := (w.conns.map onWire).sum

/-- Commands in the `write_queue_` of some handler that has not been deleted. -/
def writeQueues (w : World) : Multiset GatewayCommand := (w.conns.map queuedIn).sum

/--
Every command ever pushed is in exactly one place: written, on the wire, in the
queue of a handler that still exists, or in `pending_commands_`. Equal commands
are counted as often as they were pushed.
-/
def NoCommandLost (w : World) : Prop :=
  (w.pushed : Multiset GatewayCommand)
    = completedWrites w + outstandingWrites w + writeQueues w
      + (w.pendingCommands : Multiset GatewayCommand)

instance (w : World) : Decidable (NoCommandLost w) :=
  inferInstanceAs (Decidable (_ = _))

/-- What a world still has to deliver. -/
def held (w : World) : Multiset GatewayCommand :=
  (w.conns.map heldBy).sum + (w.pendingCommands : List GatewayCommand)

omit [JsonText] in
theorem held_eq (w : World) :
    held w = outstandingWrites w + writeQueues w
      + (w.pendingCommands : Multiset GatewayCommand) := by
  rw [held, outstandingWrites, writeQueues, ← List.sum_map_add]
  rfl

/-- What a step submits, delivers and loses. -/
def submitted : World.Action → Multiset GatewayCommand
  | .push cmd => {cmd}
  | .complete _ _ => 0

def delivered : World.Action → Multiset GatewayCommand
  | .push _ => 0
  | .complete _ c => deliveredBy c

def lost (w : World) : World.Action → Multiset GatewayCommand
  | .push _ => 0
  | .complete h c => ((w.conns[h]?).map (fun k => lostBy k c)).getD 0

/-- The books after one connection has moved. -/
theorem move_books {w : World} {h : Nat} {c : Completion} {k k' : Connection}
    (hwf : ConnsWf w) (hm : Moves w h c k k') :
    ((w.conns.set h k').map writtenBy).sum = completedWrites w + deliveredBy c
      ∧ ((w.conns.set h k').map heldBy).sum + deliveredBy c + lost w (.complete h c)
          = (w.conns.map heldBy).sum + gainedBy (.complete c w.pendingCommands) := by
  have hkwf := hwf k (List.mem_of_getElem? hm.1)
  have h1 := sum_map_set_at writtenBy hm.1 k'
  have h2 := sum_map_set_at heldBy hm.1 k'
  have hlost : lost w (.complete h c) = lostBy k c := by simp [lost, hm.1]
  refine ⟨?_, ?_⟩
  · rw [step_written hkwf hm.2] at h1
    refine add_right_cancel (b := writtenBy k) (h1.trans ?_)
    rw [completedWrites]; abel
  · refine add_right_cancel (b := heldBy k) ?_
    calc
      _ = ((w.conns.set h k').map heldBy).sum + heldBy k + deliveredBy c + lostBy k c := by
        rw [hlost]; abel
      _ = (w.conns.map heldBy).sum + (heldBy k' + deliveredBy c + lostBy k c) := by
        rw [h2]; abel
      _ = _ := by rw [step_held hkwf hm.2]; abel

omit [JsonText] in
/-- The books after a command has been enqueued. -/
theorem enqueue_books {w : World} {h : Nat} {k : Connection} {s : VehicleStreamHandler}
    (hk : w.conns[h]? = some k) (hs : k.handler = some s) (cmd : GatewayCommand) :
    ((w.conns.set h (k.enqueue cmd)).map writtenBy).sum = completedWrites w
      ∧ ((w.conns.set h (k.enqueue cmd)).map heldBy).sum = (w.conns.map heldBy).sum + {cmd} := by
  have hw : writtenBy (k.enqueue cmd) = writtenBy k := by
    simp only [writtenBy, (enqueue_keeps hs cmd).2]
  have h1 := sum_map_set_at writtenBy hk (k.enqueue cmd)
  have h2 := sum_map_set_at heldBy hk (k.enqueue cmd)
  rw [hw] at h1
  rw [enqueue_held hs] at h2
  refine ⟨add_right_cancel h1, add_right_cancel (b := heldBy k) (h2.trans ?_)⟩
  abel

/-- **The books of a world.** -/
theorem world_books {w w' : World} {a : World.Action} (hr : World.machine.Reachable w)
    (h : w.step a = some w') :
    (w'.pushed : Multiset GatewayCommand) = (w.pushed : List GatewayCommand) + submitted a
      ∧ completedWrites w' = completedWrites w + delivered a
      ∧ held w' + delivered a + lost w a = held w + submitted a := by
  have hwf := connsWf_reachable hr
  -- a completion other than an accept moves one connection and nothing else
  have move : ∀ {i : Nat} {c : Completion} {k k' : Connection}, Moves w i c k k' →
      gainedBy (.complete c w.pendingCommands) = 0 →
      ((w.conns.set i k').map heldBy).sum + (w.pendingCommands : List GatewayCommand)
          + deliveredBy c + lost w (.complete i c) = held w + 0 := by
    intro i c k k' hm hg
    have h2 := (move_books hwf hm).2
    rw [hg] at h2
    calc
      _ = ((w.conns.set i k').map heldBy).sum + deliveredBy c + lost w (.complete i c)
            + (w.pendingCommands : List GatewayCommand) := by abel
      _ = _ := by rw [h2, held]; abel
  have heff := world_step_effect hwf h
  cases a with
  | push cmd =>
      cases heff with
      | queued ha =>
          refine ⟨by rw [← Multiset.coe_add]; rfl, (add_zero _).symm, ?_⟩
          simp only [held, delivered, lost, submitted, add_zero, ← Multiset.coe_add,
            Multiset.coe_singleton, add_assoc]
      | @sent _ i k s ha hk hs =>
          obtain ⟨h1, h2⟩ := enqueue_books hk hs cmd
          refine ⟨by rw [← Multiset.coe_add]; rfl, h1.trans (add_zero _).symm, ?_⟩
          simp only [held, delivered, lost, submitted, add_zero, h2]
          abel
      | @dangling _ i ha hd =>
          exact absurd hd (active_alive hr ha)
  | complete i c =>
      by_cases hc : c = .request true
      · subst hc
        cases heff with
        | @accepted _ k k' hm =>
            obtain ⟨h1, h2⟩ := move_books hwf hm
            have hnew : writtenBy .construct = 0 ∧ heldBy .construct = 0 := ⟨rfl, rfl⟩
            refine ⟨(add_zero _).symm, ?_, ?_⟩
            · simp only [completedWrites, List.map_append, List.sum_append, List.map_cons,
                List.map_nil, List.sum_singleton, hnew.1, add_zero]
              exact h1
            · simp only [held, List.map_append, List.sum_append, List.map_cons, List.map_nil,
                List.sum_singleton, hnew.2, add_zero, Multiset.coe_nil, submitted]
              exact h2
      · obtain ⟨k, k', b, hm, rfl⟩ := completion_effect heff hc
        exact ⟨(add_zero _).symm, (move_books hwf hm).1, move hm (gainedBy_other hc _)⟩

/-! ## When nothing is lost -/

/--
The steps that lose nothing: no `Write` completes with `ok = false`, and no
`Finish` completes for a handler that still has commands queued.
-/
def LosesNothing (w : World) : World.Action → Prop
  | .complete _ (.write _ ok) => ok = true
  | .complete h (.finish _) => ∀ k ∈ w.conns[h]?, ∀ s ∈ k.handler, s.writeQueue = []
  | _ => True

instance (w : World) : (a : World.Action) → Decidable (LosesNothing w a)
  | .complete _ (.write _ ok) => inferInstanceAs (Decidable (ok = true))
  | .complete h (.finish _) =>
      inferInstanceAs (Decidable (∀ k ∈ w.conns[h]?, ∀ s ∈ k.handler, s.writeQueue = []))
  | .complete _ (.request _) | .complete _ (.read _) | .push _ => isTrue trivial

omit [JsonText] in
theorem queuedIn_eq_zero {k : Connection} :
    queuedIn k = 0 ↔ ∀ s ∈ k.handler, s.writeQueue = [] := by
  unfold queuedIn
  split
  · rename_i h; simp [h]
  · rename_i s h; simp [h]

theorem lost_eq_zero_iff {w w' : World} {a : World.Action} (hr : World.machine.Reachable w)
    (h : w.step a = some w') : lost w a = 0 ↔ LosesNothing w a := by
  cases world_effect_reachable hr h with
  | queued ha => simp [lost, LosesNothing]
  | sent ha hk hs => simp [lost, LosesNothing]
  | dangling ha hd => simp [lost, LosesNothing]
  | accepted hm => simp [lost, LosesNothing, hm.1, lostBy]
  | readOk hm => simp [lost, LosesNothing, hm.1, lostBy]
  | readFailed hm => simp [lost, LosesNothing, hm.1, lostBy]
  | @written i cmd ok k k' s hm hs => cases ok <;> simp [lost, LosesNothing, hm.1, lostBy]
  | @stray i cmd ok k k' hm hs => cases ok <;> simp [lost, LosesNothing, hm.1, lostBy]
  | finished hm =>
      simp only [lost, LosesNothing, hm.1, Option.map_some, Option.getD_some, lostBy,
        queuedIn_eq_zero, Option.mem_some_iff, forall_eq']
  | @refused i k k' hm =>
      have hmem := List.mem_of_getElem? hm.1
      cases step_effect (connsWf_reachable hr k hmem) hm.2 with
      | refused hs hst =>
          have hk := accepting_untouched hr k hmem (by simp [stateOf, hs, hst])
          have hq : queuedIn k = 0 := by rw [hk]; rfl
          simp [lost, LosesNothing, hm.1, lostBy, hq]

omit [JsonText] in
theorem noCommandLost_iff (w : World) :
    NoCommandLost w ↔ (w.pushed : Multiset GatewayCommand) = completedWrites w + held w := by
  rw [NoCommandLost, held_eq, add_assoc, add_assoc, add_assoc]

/-- **A run that loses nothing is simulated by a relay.** -/
theorem relay_simulates {w : World} (h : World.machine.ReachableWhen LosesNothing w) :
    ∃ r, (Relay.machine GatewayCommand).Reachable r
      ∧ r.submitted = (w.pushed : List GatewayCommand)
      ∧ r.delivered = completedWrites w ∧ r.held = held w := by
  refine h.simulate (N := Relay.machine GatewayCommand)
    (R := fun w (r : Relay GatewayCommand) => r.submitted = (w.pushed : List GatewayCommand)
      ∧ r.delivered = completedWrites w ∧ r.held = held w) ⟨rfl, rfl, rfl⟩ ?_
  rintro w a w' r hr ⟨hsub, hdel, hheld⟩ hok hs
  obtain ⟨h1, h2, h3⟩ := world_books hr.reachable hs
  rw [(lost_eq_zero_iff hr.reachable hs).mpr hok, add_zero] at h3
  cases a with
  | push cmd =>
      -- wherever the command is put, it is held
      refine ⟨[.submit cmd], ⟨r.submitted + {cmd}, r.held + {cmd}, r.delivered⟩, rfl, ?_, ?_, ?_⟩
      · rw [h1, hsub]; rfl
      · rw [h2, hdel]; exact (add_zero _).symm
      · show r.held + {cmd} = held w'
        rw [hheld, ← add_zero (held w')]; exact h3.symm
  | complete i c =>
      have h3 : held w' + deliveredBy c = held w := h3.trans (add_zero _)
      -- only a `Write` that succeeds shows at the relay
      rcases deliveredBy_cases c with hc | ⟨cmd, hc⟩
      · rw [hc, add_zero] at h3
        refine ⟨[], r, rfl, ?_, ?_, ?_⟩
        · rw [h1, hsub]; exact (add_zero _).symm
        · rw [h2, hdel]; show _ = _ + deliveredBy c; rw [hc, add_zero]
        · rw [hheld, h3]
      · have hmem : cmd ∈ r.held := by rw [hheld, ← h3, hc]; simp
        refine ⟨[.deliver cmd], ⟨r.submitted, r.held.erase cmd, r.delivered + {cmd}⟩, ?_, ?_, ?_, ?_⟩
        · simp [Relay.machine, hmem]
        · rw [h1, hsub]; exact (add_zero _).symm
        · rw [h2, hdel]; show _ = _ + deliveredBy c; rw [hc]
        · show r.held.erase cmd = held w'
          rw [hheld, ← h3, hc, Multiset.add_comm, Multiset.singleton_add, Multiset.erase_cons_head]

/--
**When no command is lost.** In a run whose steps all lose nothing, every pushed
command stays in exactly one of the four places; and the first step that does
lose something breaks this.
-/
theorem no_command_lost {w : World} (h : World.machine.ReachableWhen LosesNothing w) :
    NoCommandLost w ∧ ∀ a w', w.step a = some w' → (NoCommandLost w' ↔ LosesNothing w a) := by
  have hbooks : (w.pushed : Multiset GatewayCommand) = completedWrites w + held w := by
    obtain ⟨r, hr, hsub, hdel, hheld⟩ := relay_simulates h
    rw [← hsub, ← hdel, ← hheld]
    exact Relay.conserves hr
  refine ⟨(noCommandLost_iff w).mpr hbooks, ?_⟩
  intro a w' hs
  obtain ⟨h1, h2, h3⟩ := world_books h.reachable hs
  have hafter : (w'.pushed : Multiset GatewayCommand)
      = completedWrites w' + held w' + lost w a := by
    calc
      _ = completedWrites w + (held w + submitted a) := by rw [h1, hbooks, add_assoc]
      _ = completedWrites w + delivered a + held w' + lost w a := by rw [← h3]; abel
      _ = _ := by rw [h2]
  rw [noCommandLost_iff, hafter, ← lost_eq_zero_iff h.reachable hs]
  exact add_eq_left

omit [JsonText] in
/-- Two commands: one written, the other on the wire when the vehicle leaves. -/
theorem no_command_lost_leaving :
    ∃ (_ : JsonText) (w : World), World.machine.ReachableWhen LosesNothing w
      ∧ w.pushed.length = 2 ∧ w.active = none ∧ NoCommandLost w := by
  let _ : JsonText := ⟨fun _ => ""⟩
  obtain ⟨w, hr, hp⟩ := Machine.exists_reachableWhen_of_run (M := World.machine)
    (Q := LosesNothing)
    (l := [.push (.orderUpdateStatus ⟨"V1"⟩), .complete 0 (.request true),
      .complete 0 (.write (.orderUpdateStatus ⟨"V1"⟩) true), .push (.orderUpdateLocation ⟨"V1"⟩),
      .complete 0 (.read none)])
    (p := fun w => decide (w.pushed.length = 2 ∧ w.active = none)) (by decide)
  obtain ⟨hlen, ha⟩ := of_decide_eq_true hp
  exact ⟨_, w, hr, hlen, ha, (no_command_lost hr).1⟩

omit [JsonText] in
/-- A command whose `Write` fails is nowhere. -/
theorem not_noCommandLost :
    ¬ ∀ (_ : JsonText) (w : World), World.machine.Reachable w → NoCommandLost w := by
  intro h
  let _ : JsonText := ⟨fun _ => ""⟩
  obtain ⟨w, hr, hp⟩ := Machine.exists_reachable_of_run (M := World.machine)
    (l := [.push (.orderUpdateStatus ⟨"V1"⟩), .complete 0 (.request true),
      .complete 0 (.write (.orderUpdateStatus ⟨"V1"⟩) false)])
    (p := fun w => decide (¬ NoCommandLost w)) (by decide)
  exact of_decide_eq_true hp (h _ w hr)

omit [JsonText] in
/-- So is one that is still queued when the handler deletes itself. -/
example : ∃ (_ : JsonText) (w : World), World.machine.Reachable w ∧ ¬ NoCommandLost w := by
  let _ : JsonText := ⟨fun _ => ""⟩
  obtain ⟨w, hr, hp⟩ := Machine.exists_reachable_of_run (M := World.machine)
    (l := [.push (.orderUpdateStatus ⟨"V1"⟩), .push (.orderUpdateLocation ⟨"V1"⟩),
      .complete 0 (.request true), .complete 0 (.read none), .complete 0 (.finish true)])
    (p := fun w => decide (¬ NoCommandLost w)) (by decide)
  exact ⟨_, w, hr, of_decide_eq_true hp⟩

end CloudGateway.Proof
