import CloudGateway.Lib.Fleet
import CloudGateway.Proof.Connection
import CloudGateway.Services.StreamWorld

/-!
# The handlers together: what a step can do

`WorldEffect` does for `World` what `Effect` does for one connection: it lists,
case by case, what a step changes. In every case at most one connection takes a
step of its own machine, and an accept also constructs a sibling. So the
connections of a world are a fleet of connection machines, and what is proved of
one connection holds of all of them.
-/

namespace CloudGateway.Proof

open Services Proto Reactive

/-! ## The shared operations, on a handler that still exists -/

section Shared

variable {w : World} {h : Nat} {k : Connection} {s : VehicleStreamHandler}

theorem handler_of (hk : w.conns[h]? = some k) : w.handler h = k.handler := by
  simp [World.handler, hk]

theorem modify_conn (hk : w.conns[h]? = some k) (f : Connection → Connection) :
    w.modify h f = { w with conns := w.conns.set h (f k) } := by
  simp only [World.modify, modify_at hk]

theorem enqueue_conn (hk : w.conns[h]? = some k) (hs : k.handler = some s)
    (cmd : GatewayCommand) :
    w.enqueue h cmd = { w with conns := w.conns.set h (k.enqueue cmd) } := by
  simp only [World.enqueue, handler_of hk, hs, modify_conn hk]

theorem drainTo_conn (cmds : List GatewayCommand) {w : World} {k : Connection}
    {s : VehicleStreamHandler} (hk : w.conns[h]? = some k) (hs : k.handler = some s)
    (hp : w.pendingCommands = cmds) :
    World.drainTo h cmds w
      = { w with conns := w.conns.set h (cmds.foldl Connection.enqueue k)
                 pendingCommands := [] } := by
  induction cmds generalizing w k s with
  | nil =>
      rw [World.drainTo, List.foldl_nil, set_at_eq hk, ← hp]
  | cons cmd cmds ih =>
      rw [World.drainTo, enqueue_conn hk hs]
      have hlive : (k.enqueue cmd).handler = some (s.enqueue cmd).1 := by
        rw [enqueue_live hs]; simp
      rw [ih (k := k.enqueue cmd) (set_at hk _) hlive rfl, List.foldl_cons, List.set_set]

/-- **`flush_pending` empties the queue into the handler.** -/
theorem flushPending_conn (hk : w.conns[h]? = some k) (hs : k.handler = some s) :
    w.flushPending h
      = { w with conns := w.conns.set h (w.pendingCommands.foldl Connection.enqueue k)
                 pendingCommands := [] } :=
  drainTo_conn _ hk hs rfl

theorem take_conn {c : Completion} {w₁ : World} (h : w.take i c = some w₁) :
    ∃ k k₁, w.conns[i]? = some k ∧ k.take c = some k₁
      ∧ w₁ = { w with conns := w.conns.set i k₁ } := by
  obtain ⟨k, hk, h⟩ := Option.bind_eq_some_iff.mp h
  obtain ⟨k₁, hk₁, rfl⟩ := Option.map_eq_some_iff.mp h
  exact ⟨k, k₁, hk, hk₁, rfl⟩

end Shared

variable [JsonText]

/-! ## `Proceed` on the shared state -/

section Proceed

variable {w : World} {h : Nat} {k : Connection} {s : VehicleStreamHandler}
  (hk : w.conns[h]? = some k) (hs : k.handler = some s)
include hk hs

theorem world_proceed_refused (hst : s.state = .accepting) :
    w.proceed h false = { w with conns := w.conns.set h (k.proceed w.pendingCommands false) } := by
  rw [proceed_accepting _ _ hs hst]
  simp only [World.proceed, handler_of hk, hs, hst, modify_conn hk]
  rfl

/--
An accept, all of it: the sibling, the store, the flush and the first `Read`.
The sibling goes to a new address, so the flush reaches only this handler.
-/
theorem world_proceed_accepted (hst : s.state = .accepting) :
    w.proceed h true
      = { w with
          conns := w.conns.set h (k.proceed w.pendingCommands true) ++ [.construct]
          active := some h
          pendingCommands := []
          accepted := w.accepted ++ [h] } := by
  have hk₁ : (w.acceptStore h).conns[h]? = some k := by
    show (w.conns ++ [.construct])[h]? = some k
    rw [List.getElem?_append_left (address_lt hk)]; exact hk
  rw [proceed_accepting _ _ hs hst]
  simp only [World.proceed, handler_of hk, hs, hst, Bool.not_true, Bool.false_eq_true, if_false]
  rw [flushPending_conn hk₁ hs, modify_conn (set_at hk₁ _), List.set_set]
  simp only [World.acceptStore, set_append_at hk]

theorem world_proceed_readOk (hst : s.state = .reading) :
    w.proceed h true = { w with conns := w.conns.set h (k.proceed w.pendingCommands true) } := by
  rw [proceed_reading _ _ hs hst]
  simp only [World.proceed, handler_of hk, hs, hst, modify_conn hk]
  rfl

theorem world_proceed_readFailed (hst : s.state = .reading) :
    w.proceed h false
      = { w with
          conns := w.conns.set h (k.proceed w.pendingCommands false)
          active := if w.active = some h then none else w.active } := by
  rw [proceed_reading _ _ hs hst]
  simp only [World.proceed, handler_of hk, hs, hst, Bool.not_false, if_true]
  exact modify_conn (w := w.clearActive h) hk _

theorem world_proceed_finish (ok : Bool) (hst : s.state = .finish) :
    w.proceed h ok
      = { w with
          conns := w.conns.set h (k.proceed w.pendingCommands ok)
          active := if w.active = some h then none else w.active } := by
  rw [proceed_finish _ _ hs hst]
  simp only [World.proceed, handler_of hk, hs, hst]
  exact modify_conn (w := w.clearActive h) hk _

end Proceed

/-! ## What a step can do -/

/-- The step a completion makes its own connection take. -/
def Moves (w : World) (h : Nat) (c : Completion) (k k' : Connection) : Prop :=
  w.conns[h]? = some k ∧ k.step (.complete c w.pendingCommands) = some k'

/-- **Everything a step can do to a world whose connections are well formed.** -/
inductive WorldEffect (w : World) : World.Action → World → Prop where
  /-- A push while nobody is connected. -/
  | queued {cmd : GatewayCommand} (ha : w.active = none) :
      WorldEffect w (.push cmd)
        { w with
          pushed := w.pushed ++ [cmd]
          pendingCommands := w.pendingCommands ++ [cmd] }
  /-- A push to the handler in `active_`. -/
  | sent {cmd : GatewayCommand} {h : Nat} {k : Connection} {s : VehicleStreamHandler}
      (ha : w.active = some h) (hk : w.conns[h]? = some k) (hs : k.handler = some s) :
      WorldEffect w (.push cmd)
        { w with
          pushed := w.pushed ++ [cmd]
          conns := w.conns.set h (k.enqueue cmd) }
  /-- A push to a handler that is gone. -/
  | dangling {cmd : GatewayCommand} {h : Nat} (ha : w.active = some h)
      (hd : w.handler h = none) :
      WorldEffect w (.push cmd) { w with pushed := w.pushed ++ [cmd], fault := true }
  | accepted {h : Nat} {k k' : Connection} (hm : Moves w h (.request true) k k') :
      WorldEffect w (.complete h (.request true))
        { w with
          conns := w.conns.set h k' ++ [.construct]
          active := some h
          pendingCommands := []
          accepted := w.accepted ++ [h] }
  | refused {h : Nat} {k k' : Connection} (hm : Moves w h (.request false) k k') :
      WorldEffect w (.complete h (.request false)) { w with conns := w.conns.set h k' }
  | readOk {h : Nat} {ev : VehicleEvent} {k k' : Connection}
      (hm : Moves w h (.read (some ev)) k k') :
      WorldEffect w (.complete h (.read (some ev))) { w with conns := w.conns.set h k' }
  | readFailed {h : Nat} {k k' : Connection} (hm : Moves w h (.read none) k k') :
      WorldEffect w (.complete h (.read none))
        { w with
          conns := w.conns.set h k'
          active := if w.active = some h then none else w.active }
  | finished {h : Nat} {ok : Bool} {k k' : Connection} (hm : Moves w h (.finish ok) k k') :
      WorldEffect w (.complete h (.finish ok))
        { w with
          conns := w.conns.set h k'
          active := if w.active = some h then none else w.active }
  | written {h : Nat} {cmd : GatewayCommand} {ok : Bool} {k k' : Connection}
      {s : VehicleStreamHandler} (hm : Moves w h (.write cmd ok) k k') (hs : k.handler = some s) :
      WorldEffect w (.complete h (.write cmd ok)) { w with conns := w.conns.set h k' }
  /-- A `Write` completes after its handler is gone. -/
  | stray {h : Nat} {cmd : GatewayCommand} {ok : Bool} {k k' : Connection}
      (hm : Moves w h (.write cmd ok) k k') (hs : k.handler = none) :
      WorldEffect w (.complete h (.write cmd ok))
        { w with conns := w.conns.set h k', fault := true }

/-- The connections of a world are well formed. -/
def ConnsWf (w : World) : Prop := ∀ k ∈ w.conns, Wf k

omit [JsonText] in
theorem pushCommand_none {w : World} (ha : w.active = none) (cmd : GatewayCommand) :
    w.pushCommand cmd
      = { w with
          pushed := w.pushed ++ [cmd]
          pendingCommands := w.pendingCommands ++ [cmd] } := by
  simp only [World.pushCommand, ha, World.pushPending]

omit [JsonText] in
theorem pushCommand_some {w : World} {h : Nat} (ha : w.active = some h) (cmd : GatewayCommand) :
    w.pushCommand cmd = World.enqueue { w with pushed := w.pushed ++ [cmd] } h cmd := by
  simp only [World.pushCommand, ha]

theorem pushCommand_effect (w : World) (cmd : GatewayCommand) :
    WorldEffect w (.push cmd) (w.pushCommand cmd) := by
  rcases Option.eq_none_or_eq_some w.active with ha | ⟨h, ha⟩
  · rw [pushCommand_none ha]; exact .queued ha
  · rw [pushCommand_some ha]
    rcases Option.eq_none_or_eq_some (w.handler h) with hd | ⟨s, hs⟩
    · have hd' : ({ w with pushed := w.pushed ++ [cmd] } : World).handler h = none := hd
      simp only [World.enqueue, hd', World.crash]
      exact .dangling ha hd
    · obtain ⟨k, hk, hks⟩ := Option.bind_eq_some_iff.mp hs
      rw [enqueue_conn (w := { w with pushed := w.pushed ++ [cmd] }) hk hks]
      exact .sent ha hk hks

/-- **Every step is one of the effects.** -/
theorem world_step_effect {w w' : World} {a : World.Action} (hwf : ConnsWf w)
    (h : w.step a = some w') : WorldEffect w a w' := by
  unfold World.step at h
  split at h
  · exact absurd h (by simp)
  cases a with
  | push cmd => obtain rfl := Option.some.inj h; exact pushCommand_effect w cmd
  | complete i c =>
      obtain ⟨w₁, hw₁, rfl⟩ := Option.map_eq_some_iff.mp h
      obtain ⟨k, k₁, hk, hk₁, rfl⟩ := take_conn hw₁
      have hat := set_at hk k₁
      have hm : Moves w i c k (k₁.dispatch w.pendingCommands c) :=
        ⟨hk, by simp only [Connection.step, hk₁, Option.map_some]⟩
      have hkwf := hwf k (List.mem_of_getElem? hk)
      cases c with
      | request ok =>
          obtain ⟨s, hs, hst, heq⟩ := take_request hkwf hk₁
          have hs₁ : k₁.handler = some s := by rw [heq]; exact hs
          cases ok with
          | false =>
              rw [World.runCQ, world_proceed_refused hat hs₁ hst]
              simp only [List.set_set]
              exact .refused hm
          | true =>
              rw [World.runCQ, world_proceed_accepted hat hs₁ hst]
              simp only [List.set_set]
              exact .accepted hm
      | read ev =>
          obtain ⟨s, hs, hst, heq⟩ := take_read hkwf hk₁
          have hs₁ : k₁.handler = some { s with incoming := ev.getD s.incoming } := by rw [heq]
          cases ev with
          | none =>
              rw [World.runCQ, Option.isSome_none, world_proceed_readFailed hat hs₁ hst]
              simp only [List.set_set]
              exact .readFailed hm
          | some ev =>
              rw [World.runCQ, Option.isSome_some, world_proceed_readOk hat hs₁ hst]
              simp only [List.set_set]
              exact .readOk hm
      | finish ok =>
          obtain ⟨s, hs, hst, heq⟩ := take_finish hkwf hk₁
          have hs₁ : k₁.handler = some s := by rw [heq]; exact hs
          rw [World.runCQ, world_proceed_finish hat hs₁ ok hst]
          simp only [List.set_set]
          exact .finished hm
      | write cmd ok =>
          obtain ⟨_, heq⟩ := take_write hk₁
          have hs₁ : k₁.handler = k.handler := by rw [heq]
          rcases Option.eq_none_or_eq_some k.handler with hd | ⟨s, hs⟩
          · rw [World.runCQ, World.writerProceed, handler_of hat, hs₁, hd]
            have hdisp : k₁.dispatch w.pendingCommands (.write cmd ok) = k₁ := by
              simp only [Connection.dispatch, Connection.onWriteDone, Connection.writeWith, hs₁, hd]
            rw [hdisp] at hm
            exact .stray hm hd
          · rw [World.runCQ, World.writerProceed, handler_of hat, hs₁, hs]
            dsimp only
            rw [modify_conn hat]
            simp only [List.set_set]
            exact .written hm hs

/-- Completions after which a handler clears itself from `active_`. -/
def endsStream : Completion → Bool
  | .read none => true
  | .finish _ => true
  | _ => false

/--
**A completion other than an accept.** One connection moves, `active_` is cleared
if it designated that connection and its stream is over, and nothing else changes.
-/
theorem completion_effect {w w' : World} {h : Nat} {c : Completion}
    (he : WorldEffect w (.complete h c) w') (hc : c ≠ .request true) :
    ∃ k k' b, Moves w h c k k' ∧ w' = { w with
      conns := w.conns.set h k'
      active := if endsStream c = true ∧ w.active = some h then none else w.active
      fault := b } := by
  cases he with
  | accepted hm => exact absurd rfl hc
  | refused hm => exact ⟨_, _, w.fault, hm, by simp [endsStream]⟩
  | readOk hm => exact ⟨_, _, w.fault, hm, by simp [endsStream]⟩
  | readFailed hm => exact ⟨_, _, w.fault, hm, by simp [endsStream]⟩
  | finished hm => exact ⟨_, _, w.fault, hm, by simp [endsStream]⟩
  | written hm hs => exact ⟨_, _, w.fault, hm, by simp [endsStream]⟩
  | stray hm hs => exact ⟨_, _, true, hm, by simp [endsStream]⟩

/-! ## The connections are a fleet -/

theorem Moves.fleet {w : World} {h : Nat} {c : Completion} {k k' : Connection}
    (hm : Moves w h c k k') :
    Connection.machine.fleet.step w.conns (.act h (.complete c w.pendingCommands))
      = some (w.conns.set h k') :=
  Machine.fleet_step_act hm.1 hm.2

/-- A step of the world is a run of the fleet: nothing, one member's step, or an accept. -/
theorem world_fleet_step {w w' : World} {a : World.Action} (hwf : ConnsWf w)
    (h : w.step a = some w') :
    ∃ bs, Connection.machine.fleet.run w.conns bs = some w'.conns := by
  cases world_step_effect hwf h with
  | queued ha => exact ⟨[], rfl⟩
  | dangling ha hd => exact ⟨[], rfl⟩
  | @sent cmd i k s ha hk hs =>
      have hstep : Connection.machine.step k (.enqueue cmd) = some (k.enqueue cmd) := by
        simp [Connection.machine, Connection.step, hs]
      exact ⟨[.act i (.enqueue cmd)], by simp [Machine.fleet_step_act hk hstep]⟩
  | accepted hm =>
      exact ⟨[.act _ (.complete _ _), .spawn], by rw [Machine.run_cons, hm.fleet]; rfl⟩
  | refused hm => exact ⟨[.act _ (.complete _ _)], by rw [Machine.run_cons, hm.fleet]; rfl⟩
  | readOk hm => exact ⟨[.act _ (.complete _ _)], by rw [Machine.run_cons, hm.fleet]; rfl⟩
  | readFailed hm => exact ⟨[.act _ (.complete _ _)], by rw [Machine.run_cons, hm.fleet]; rfl⟩
  | finished hm => exact ⟨[.act _ (.complete _ _)], by rw [Machine.run_cons, hm.fleet]; rfl⟩
  | written hm hs => exact ⟨[.act _ (.complete _ _)], by rw [Machine.run_cons, hm.fleet]; rfl⟩
  | stray hm hs => exact ⟨[.act _ (.complete _ _)], by rw [Machine.run_cons, hm.fleet]; rfl⟩

/-- **Every handler of a reachable world runs the machine of one connection.** -/
theorem conns_reachable {w : World} (h : World.machine.Reachable w) :
    ∀ k ∈ w.conns, Connection.machine.Reachable k := by
  have hsim : ∃ ks, Connection.machine.fleet.Reachable ks
      ∧ w.conns = ks ∧ Connection.machine.fleet.Reachable ks := by
    refine h.simulate (R := fun w ks => w.conns = ks ∧ Connection.machine.fleet.Reachable ks)
      ⟨rfl, .init⟩ ?_
    rintro w a w' _ _ ⟨rfl, hr⟩ _ hs
    -- the fleet reached so far makes the connections well formed, hence the step one of its own
    have hwf : ConnsWf w := fun k hk => wf_reachable (Machine.fleet_members hr k hk)
    obtain ⟨bs, hrun⟩ := world_fleet_step hwf hs
    exact ⟨bs, w'.conns, hrun, rfl, hr.run hrun⟩
  obtain ⟨ks, hks, rfl, _⟩ := hsim
  exact Machine.fleet_members hks

theorem connsWf_reachable {w : World} (h : World.machine.Reachable w) : ConnsWf w :=
  fun k hk => wf_reachable (conns_reachable h k hk)

/-- What a step can do, from any state a run reaches. -/
theorem world_effect_reachable {w w' : World} {a : World.Action}
    (h : World.machine.Reachable w) (hs : w.step a = some w') : WorldEffect w a w' :=
  world_step_effect (connsWf_reachable h) hs

/-- A step that a connection may take in a world: commands go only to the handler in `active_`. -/
def MayTake (w : World) (k : Connection) : Connection.Action → Prop
  | .enqueue _ => ∃ h, w.active = some h ∧ w.conns[h]? = some k
  | .complete _ _ => k ∈ w.conns

omit [JsonText] in
theorem MayTake.mem {w : World} {k : Connection} {a : Connection.Action} (h : MayTake w k a) :
    k ∈ w.conns := by
  cases a with
  | enqueue cmd =>
      obtain ⟨i, _, hk⟩ := h
      exact List.mem_of_getElem? hk
  | complete c flushed => exact h

/--
**The rule for connections.** What holds of a fresh connection, and is kept by
every step a connection may take in a reachable world whose connections all have
it, holds of every connection of a reachable world.
-/
theorem conns_rule {P : Connection → Prop} (hinit : P .construct)
    (hstep : ∀ (w : World) (k : Connection) (a : Connection.Action) (k' : Connection),
      World.machine.Reachable w → (∀ x ∈ w.conns, P x) → MayTake w k a → k.step a = some k' → P k')
    {w : World} (h : World.machine.Reachable w) : ∀ k ∈ w.conns, P k := by
  refine h.invariant (P := fun w => ∀ k ∈ w.conns, P k) ?_ ?_
  · intro k hk
    rw [List.mem_singleton.mp hk]
    exact hinit
  intro w a w' hr ih _ hs
  -- the connection that moves, among the others
  have move : ∀ {i : Nat} {c : Completion} {k k' : Connection}, Moves w i c k k' →
      ∀ x ∈ w.conns.set i k', P x := by
    intro i c k k' hm
    exact (forall_set_at ih hm.1).mpr
      (hstep w k (.complete c w.pendingCommands) k' hr ih (List.mem_of_getElem? hm.1) hm.2)
  cases world_effect_reachable hr hs with
  | queued ha => exact ih
  | dangling ha hd => exact ih
  | @sent cmd i k s ha hk hks =>
      refine (forall_set_at ih hk).mpr (hstep w k (.enqueue cmd) _ hr ih ⟨i, ha, hk⟩ ?_)
      simp [Connection.step, hks]
  | accepted hm =>
      intro x hx
      rcases List.mem_append.mp hx with hx | hx
      · exact move hm x hx
      · rw [List.mem_singleton.mp hx]
        exact hinit
  | refused hm => exact move hm
  | readOk hm => exact move hm
  | readFailed hm => exact move hm
  | finished hm => exact move hm
  | written hm hks => exact move hm
  | stray hm hks => exact move hm

end CloudGateway.Proof
