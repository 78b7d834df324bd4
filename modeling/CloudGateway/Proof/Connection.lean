import CloudGateway.Services.StreamHandler

/-!
# One connection: what a step can do

`Effect` lists what a step does to a connection whose outstanding operations
match its state, case by case; every later invariant of the stream handlers is a
case analysis of it. The match itself, `Wf`, is the first such invariant: under
its own tag a live handler has exactly the operation its state waits for, a
deleted one has none, and a `Write` is outstanding exactly while `writing_` is
set.
-/

namespace CloudGateway.Proof

open Services Proto Reactive

/-! ## The writer's methods -/

section Writer

variable (s : VehicleStreamHandler) (cmd : GatewayCommand) (ok : Bool)

@[simp] theorem flushWriteQueueLocked_state : s.flushWriteQueueLocked.1.state = s.state := by
  unfold VehicleStreamHandler.flushWriteQueueLocked
  split
  · rfl
  · split <;> rfl

/-- A flush moves the front of the queue into `Write` and drops nothing. -/
theorem flushWriteQueueLocked_queue :
    s.flushWriteQueueLocked.2.toList ++ s.flushWriteQueueLocked.1.writeQueue = s.writeQueue := by
  unfold VehicleStreamHandler.flushWriteQueueLocked
  split
  · simp_all
  · split <;> simp_all

theorem flushWriteQueueLocked_idle (h : s.writing = false) :
    s.flushWriteQueueLocked.2.isSome = !s.writeQueue.isEmpty
      ∧ s.flushWriteQueueLocked.1.writing = s.flushWriteQueueLocked.2.isSome := by
  unfold VehicleStreamHandler.flushWriteQueueLocked
  split <;> simp_all

@[simp] theorem enqueue_state : (s.enqueue cmd).1.state = s.state := by
  unfold VehicleStreamHandler.enqueue
  dsimp only
  split
  · exact flushWriteQueueLocked_state _
  · rfl

theorem enqueue_queue :
    (s.enqueue cmd).2.toList ++ (s.enqueue cmd).1.writeQueue = s.writeQueue ++ [cmd] := by
  unfold VehicleStreamHandler.enqueue
  dsimp only
  split
  · exact flushWriteQueueLocked_queue _
  · rfl

/-- `enqueue` starts a `Write` exactly when none is outstanding, and leaves one outstanding. -/
theorem enqueue_writing :
    (s.enqueue cmd).2.isSome = !s.writing ∧ (s.enqueue cmd).1.writing = true := by
  unfold VehicleStreamHandler.enqueue
  dsimp only
  split
  · rename_i h
    have hw : s.writing = false := by simpa using h
    obtain ⟨h1, h2⟩ := flushWriteQueueLocked_idle { s with writeQueue := s.writeQueue ++ [cmd] } hw
    rw [h2, h1, hw]
    simp
  · simp_all

@[simp] theorem onWriteDone_state : (s.onWriteDone ok).1.state = s.state := by
  unfold VehicleStreamHandler.onWriteDone
  split
  · rfl
  · exact flushWriteQueueLocked_state _

theorem onWriteDone_queue :
    (s.onWriteDone ok).2.toList ++ (s.onWriteDone ok).1.writeQueue = s.writeQueue := by
  unfold VehicleStreamHandler.onWriteDone
  split
  · rfl
  · exact flushWriteQueueLocked_queue _

/-- `on_write_done` starts the next `Write` exactly when this one succeeded and another waits. -/
theorem onWriteDone_writing :
    (s.onWriteDone ok).2.isSome = (ok && !s.writeQueue.isEmpty)
      ∧ (s.onWriteDone ok).1.writing = (s.onWriteDone ok).2.isSome := by
  unfold VehicleStreamHandler.onWriteDone
  split
  · simp_all
  · obtain ⟨h1, h2⟩ := flushWriteQueueLocked_idle { s with writing := false } rfl
    simp_all

end Writer

/-! ## Handing commands to `Write` -/

section Issue

variable (k : Connection) (o : Option GatewayCommand)

@[simp] theorem issueWrite_handler : (k.issueWrite o).handler = k.handler := by cases o <;> rfl

@[simp] theorem issueWrite_ownOps : (k.issueWrite o).ownOps = k.ownOps := by cases o <;> rfl

@[simp] theorem issueWrite_writes : (k.issueWrite o).writes = k.writes ++ o.toList := by
  cases o <;> simp [Connection.issueWrite]

@[simp] theorem issueWrite_calls :
    (k.issueWrite o).calls = k.calls ++ o.toList.map .write := by
  cases o <;> simp [Connection.issueWrite]

@[simp] theorem issueWrite_completions : (k.issueWrite o).completions = k.completions := by
  cases o <;> rfl

@[simp] theorem issueWrite_published : (k.issueWrite o).published = k.published := by
  cases o <;> rfl

end Issue

/-! ## A fresh handler, and its first `Read` -/

@[simp] theorem construct_handler :
    Connection.construct.handler = some { VehicleStreamHandler.new with state := .accepting } := rfl

@[simp] theorem construct_ownOps : Connection.construct.ownOps = [.request] := rfl

@[simp] theorem construct_writes : Connection.construct.writes = [] := rfl

@[simp] theorem construct_calls : Connection.construct.calls = [.own .request] := rfl

@[simp] theorem construct_completions : Connection.construct.completions = [] := rfl

@[simp] theorem new_writeQueue : VehicleStreamHandler.new.writeQueue = [] := rfl

section StartReading

variable (k : Connection)

@[simp] theorem startReading_handler :
    k.startReading.handler = k.handler.map (fun s => { s with state := .reading }) := rfl

@[simp] theorem startReading_ownOps : k.startReading.ownOps = k.ownOps ++ [.read] := rfl

@[simp] theorem startReading_calls : k.startReading.calls = k.calls ++ [.own .read] := rfl

end StartReading

/-! ## Enqueueing -/

/-- `enqueue` on a handler that still exists. -/
theorem enqueue_live {k : Connection} {s : VehicleStreamHandler} (hs : k.handler = some s)
    (cmd : GatewayCommand) :
    k.enqueue cmd
      = Connection.issueWrite { k with handler := some (s.enqueue cmd).1 } (s.enqueue cmd).2 := by
  simp only [Connection.enqueue, Connection.writeWith, hs]

/--
**Enqueueing a list of commands.** Only the handler's queue and flag and the
outstanding `Write`s change: some commands `ws` go out at once, the rest wait,
and nothing is lost or reordered between the two.
-/
theorem enqueueAll_spec {k : Connection} {s : VehicleStreamHandler} (hs : k.handler = some s)
    (cmds : List GatewayCommand) :
    ∃ s' ws, cmds.foldl Connection.enqueue k
        = { k with
            handler := some s'
            writes := k.writes ++ ws
            calls := k.calls ++ ws.map .write }
      ∧ s'.state = s.state
      ∧ ws ++ s'.writeQueue = s.writeQueue ++ cmds
      ∧ s'.writing.toNat = s.writing.toNat + ws.length := by
  induction cmds generalizing k s with
  | nil =>
      refine ⟨s, [], ?_, rfl, by simp, by simp⟩
      cases k; simp_all
  | cons cmd cmds ih =>
      -- the first command goes out or waits, and the others queue up behind it
      have hlive := enqueue_live hs cmd
      obtain ⟨s', ws, heq, hst, hq, hw⟩ := ih (k := k.enqueue cmd) (s := (s.enqueue cmd).1)
        (by rw [hlive]; simp)
      obtain ⟨hissued, hwriting⟩ := enqueue_writing s cmd
      refine ⟨s', (s.enqueue cmd).2.toList ++ ws, ?_, ?_, ?_, ?_⟩
      · rw [List.foldl_cons, heq, hlive]
        cases (s.enqueue cmd).2 <;> simp [Connection.issueWrite]
      · rw [hst, enqueue_state]
      · have := enqueue_queue s cmd
        rw [List.append_assoc, hq, ← List.append_assoc, this]
        simp
      · rw [hw, hwriting]
        cases hb : s.writing <;> cases hi : (s.enqueue cmd).2 <;> simp_all
        omega

/-! ## Outstanding operations match the state -/

/-- What a handler in state `st` has outstanding under its own tag. -/
def waitsFor : StreamState → List OwnOp
  | .create => []
  | .accepting => [.request]
  | .reading => [.read]
  | .finish => [.finish]

/-- The operations a connection should have outstanding under its handler's own tag. -/
def ownOpsOf : Option VehicleStreamHandler → List OwnOp
  | none => []
  | some s => waitsFor s.state

/-- The outstanding operations of a connection match its handler. -/
structure Wf (k : Connection) : Prop where
  /-- Under its own tag, the operation its state waits for. -/
  own : k.ownOps = ownOpsOf k.handler
  /-- The constructor has left `CREATE`. -/
  registered : ∀ s, k.handler = some s → s.state ≠ .create
  /-- Under the writer's tag, one `Write` while `writing_` is set, else none. -/
  writing : ∀ s, k.handler = some s → k.writes.length = s.writing.toNat

theorem Wf.live {k : Connection} {s : VehicleStreamHandler} (hs : k.handler = some s)
    (hst : s.state ≠ .create) (hown : k.ownOps = waitsFor s.state)
    (hw : k.writes.length = s.writing.toNat) : Wf k where
  own := by rw [hown, hs]; rfl
  registered := by intro s' hs'; rw [hs] at hs'; exact Option.some.inj hs' ▸ hst
  writing := by intro s' hs'; rw [hs] at hs'; exact Option.some.inj hs' ▸ hw

theorem Wf.dead {k : Connection} (hs : k.handler = none) (hown : k.ownOps = []) : Wf k where
  own := by rw [hown, hs]; rfl
  registered := by intro s' hs'; rw [hs] at hs'; exact absurd hs' (by simp)
  writing := by intro s' hs'; rw [hs] at hs'; exact absurd hs' (by simp)

/-- The state that waits for an operation. -/
def waiter : OwnOp → StreamState
  | .request => .accepting
  | .read => .reading
  | .finish => .finish

theorem waitsFor_mem {st : StreamState} {op : OwnOp} (h : op ∈ waitsFor st) :
    st = waiter op ∧ waitsFor st = [op] := by
  cases st <;> simp_all [waitsFor, waiter]

theorem Wf.waiting {k : Connection} (hwf : Wf k) {op : OwnOp} (h : op ∈ k.ownOps) :
    ∃ s, k.handler = some s ∧ s.state = waiter op ∧ k.ownOps = [op] := by
  rw [hwf.own] at h ⊢
  cases hk : k.handler with
  | none => rw [hk] at h; simp [ownOpsOf] at h
  | some s =>
      rw [hk] at h
      obtain ⟨hst, hown⟩ := waitsFor_mem h
      exact ⟨s, rfl, hst, hown⟩

/-! ## Completing an operation -/

theorem take_write {k k₁ : Connection} {cmd : GatewayCommand} {ok : Bool}
    (h : k.take (.write cmd ok) = some k₁) :
    cmd ∈ k.writes ∧ k₁ = { k with
      writes := k.writes.erase cmd
      completions := k.completions ++ [.write cmd ok] } := by
  simp only [Connection.take] at h
  split at h
  · exact ⟨by assumption, (Option.some.inj h).symm⟩
  · exact absurd h (by simp)

theorem take_request {k k₁ : Connection} {ok : Bool} (hwf : Wf k)
    (h : k.take (.request ok) = some k₁) :
    ∃ s, k.handler = some s ∧ s.state = .accepting
      ∧ k₁ = { k with ownOps := [], completions := k.completions ++ [.request ok] } := by
  simp only [Connection.take] at h
  split at h
  · rename_i hm
    obtain ⟨s, hs, hst, hown⟩ := hwf.waiting hm
    exact ⟨s, hs, hst, by rw [← Option.some.inj h, hown]; rfl⟩
  · exact absurd h (by simp)

theorem take_finish {k k₁ : Connection} {ok : Bool} (hwf : Wf k)
    (h : k.take (.finish ok) = some k₁) :
    ∃ s, k.handler = some s ∧ s.state = .finish
      ∧ k₁ = { k with ownOps := [], completions := k.completions ++ [.finish ok] } := by
  simp only [Connection.take] at h
  split at h
  · rename_i hm
    obtain ⟨s, hs, hst, hown⟩ := hwf.waiting hm
    exact ⟨s, hs, hst, by rw [← Option.some.inj h, hown]; rfl⟩
  · exact absurd h (by simp)

theorem take_read {k k₁ : Connection} {ev : Option VehicleEvent} (hwf : Wf k)
    (h : k.take (.read ev) = some k₁) :
    ∃ s, k.handler = some s ∧ s.state = .reading
      ∧ k₁ = { k with
          ownOps := []
          completions := k.completions ++ [.read ev]
          handler := some { s with incoming := ev.getD s.incoming } } := by
  simp only [Connection.take] at h
  split at h
  · rename_i hm
    obtain ⟨s, hs, hst, hown⟩ := hwf.waiting hm
    exact ⟨s, hs, hst, by rw [← Option.some.inj h, hown, hs]; rfl⟩
  · exact absurd h (by simp)

/-! ## What a step can do -/

variable [JsonText]

/-- **Everything a step can do to a connection whose operations match its state.** -/
inductive Effect (k : Connection) : Connection.Action → Connection → Prop where
  | enqueue {s : VehicleStreamHandler} {cmd : GatewayCommand} (hs : k.handler = some s) :
      Effect k (.enqueue cmd)
        (Connection.issueWrite { k with handler := some (s.enqueue cmd).1 } (s.enqueue cmd).2)
  | writeDone {s : VehicleStreamHandler} {cmd : GatewayCommand} {ok : Bool}
      {flushed : List GatewayCommand} (hs : k.handler = some s) (hw : cmd ∈ k.writes) :
      Effect k (.complete (.write cmd ok) flushed)
        (Connection.issueWrite
          { k with
            handler := some (s.onWriteDone ok).1
            writes := k.writes.erase cmd
            completions := k.completions ++ [.write cmd ok] } (s.onWriteDone ok).2)
  /-- The completion of a `Write` whose handler is gone. -/
  | stray {cmd : GatewayCommand} {ok : Bool} {flushed : List GatewayCommand}
      (hs : k.handler = none) (hw : cmd ∈ k.writes) :
      Effect k (.complete (.write cmd ok) flushed)
        { k with
          writes := k.writes.erase cmd
          completions := k.completions ++ [.write cmd ok] }
  | refused {s : VehicleStreamHandler} {flushed : List GatewayCommand}
      (hs : k.handler = some s) (hst : s.state = .accepting) :
      Effect k (.complete (.request false) flushed)
        { k with
          handler := none
          ownOps := []
          completions := k.completions ++ [.request false] }
  /-- The flush sends some commands `ws` at once and leaves the rest in the queue. -/
  | accepted {s s' : VehicleStreamHandler} {flushed ws : List GatewayCommand}
      (hs : k.handler = some s) (hst : s.state = .accepting) (hst' : s'.state = .reading)
      (hq : ws ++ s'.writeQueue = s.writeQueue ++ flushed)
      (hw : s'.writing.toNat = s.writing.toNat + ws.length) :
      Effect k (.complete (.request true) flushed)
        { k with
          handler := some s'
          ownOps := [.read]
          writes := k.writes ++ ws
          calls := k.calls ++ ws.map .write ++ [.own .read]
          completions := k.completions ++ [.request true] }
  | readOk {s : VehicleStreamHandler} {ev : VehicleEvent} {flushed : List GatewayCommand}
      (hs : k.handler = some s) (hst : s.state = .reading) :
      Effect k (.complete (.read (some ev)) flushed)
        { k with
          handler := some { s with incoming := ev }
          ownOps := [.read]
          calls := k.calls ++ [.own .read]
          completions := k.completions ++ [.read (some ev)]
          published := k.published ++ (VehicleStreamHandler.handleIncoming ev).toList }
  | readFailed {s : VehicleStreamHandler} {flushed : List GatewayCommand}
      (hs : k.handler = some s) (hst : s.state = .reading) :
      Effect k (.complete (.read none) flushed)
        { k with
          handler := some { s with state := .finish }
          ownOps := [.finish]
          calls := k.calls ++ [.own .finish]
          completions := k.completions ++ [.read none] }
  | finished {s : VehicleStreamHandler} {ok : Bool} {flushed : List GatewayCommand}
      (hs : k.handler = some s) (hst : s.state = .finish) :
      Effect k (.complete (.finish ok) flushed)
        { k with
          handler := none
          ownOps := []
          completions := k.completions ++ [.finish ok] }

section Proceed

variable {k : Connection} {s : VehicleStreamHandler} (flushed : List GatewayCommand) (ok : Bool)
  (hs : k.handler = some s)
include hs

theorem proceed_accepting (hst : s.state = .accepting) :
    k.proceed flushed ok
      = if !ok then k.free else (flushed.foldl Connection.enqueue k).startReading := by
  simp only [Connection.proceed, hs, hst]

theorem proceed_reading (hst : s.state = .reading) :
    k.proceed flushed ok = if !ok then k.startFinish else k.readNext := by
  simp only [Connection.proceed, hs, hst]

theorem proceed_finish (hst : s.state = .finish) : k.proceed flushed ok = k.free := by
  simp only [Connection.proceed, hs, hst]

end Proceed

/-- **Every step is one of the effects.** -/
theorem step_effect {k k' : Connection} {a : Connection.Action} (hwf : Wf k)
    (h : k.step a = some k') : Effect k a k' := by
  cases a with
  | enqueue cmd =>
      simp only [Connection.step] at h
      cases hs : k.handler with
      | none => rw [hs] at h; exact absurd h (by simp)
      | some s =>
          rw [hs] at h
          obtain rfl : k.enqueue cmd = k' := by simpa using h
          simp only [Connection.enqueue, Connection.writeWith, hs]
          exact .enqueue hs
  | complete c flushed =>
      obtain ⟨k₁, hk₁, rfl⟩ := Option.map_eq_some_iff.mp h
      cases c with
      | write cmd ok =>
          obtain ⟨hw, rfl⟩ := take_write hk₁
          cases hs : k.handler with
          | none =>
              simp only [Connection.dispatch, Connection.onWriteDone, Connection.writeWith]
              rw [← hs]; exact .stray hs hw
          | some s =>
              simp only [Connection.dispatch, Connection.onWriteDone, Connection.writeWith]
              exact .writeDone hs hw
      | request ok =>
          obtain ⟨s, hs, hst, heq⟩ := take_request hwf hk₁
          have hs₁ : k₁.handler = some s := by rw [heq]; exact hs
          rw [Connection.dispatch, proceed_accepting flushed ok hs₁ hst, heq]
          cases ok with
          | false => exact .refused hs hst
          | true =>
              -- the flush is one list of commands to a handler that stays alive
              obtain ⟨s', ws, hflush, _, hq, hw⟩ := enqueueAll_spec
                (k := { k with
                  ownOps := []
                  completions := k.completions ++ [.request true] }) hs flushed
              simp only [Bool.not_true, Bool.false_eq_true, if_false]
              rw [hflush]
              exact @Effect.accepted _ k s { s' with state := .reading } flushed ws hs hst rfl hq hw
      | read ev =>
          obtain ⟨s, hs, hst, heq⟩ := take_read hwf hk₁
          have hs₁ : k₁.handler = some { s with incoming := ev.getD s.incoming } := by rw [heq]
          rw [Connection.dispatch, proceed_reading flushed ev.isSome hs₁ hst, heq]
          cases ev with
          | none => exact .readFailed hs hst
          | some ev => exact .readOk hs hst
      | finish ok =>
          obtain ⟨s, hs, hst, heq⟩ := take_finish hwf hk₁
          have hs₁ : k₁.handler = some s := by rw [heq]; exact hs
          rw [Connection.dispatch, proceed_finish flushed ok hs₁ hst, heq]
          exact .finished hs hst

/-! ## The operations keep matching the state -/

omit [JsonText] in
theorem wf_construct : Wf .construct :=
  Wf.live (s := { VehicleStreamHandler.new with state := .accepting }) rfl (by simp) rfl rfl

/-- **Every step keeps the outstanding operations matched to the state.** -/
theorem wf_step {k k' : Connection} {a : Connection.Action} (hwf : Wf k)
    (h : k.step a = some k') : Wf k' := by
  have hown : ∀ s, k.handler = some s → k.ownOps = waitsFor s.state := by
    intro s hs; rw [hwf.own, hs]; rfl
  cases step_effect hwf h with
  | @enqueue s cmd hs =>
      obtain ⟨hissued, hwriting⟩ := enqueue_writing s cmd
      refine Wf.live (s := (s.enqueue cmd).1) (by simp) ?_ ?_ ?_
      · rw [enqueue_state]; exact hwf.registered s hs
      · rw [enqueue_state, issueWrite_ownOps]; exact hown s hs
      · rw [issueWrite_writes, List.length_append, Option.length_toList, hwf.writing s hs,
          hissued, hwriting]
        cases s.writing <;> rfl
  | @writeDone s cmd ok _ hs hw =>
      obtain ⟨_, hwriting⟩ := onWriteDone_writing s ok
      refine Wf.live (s := (s.onWriteDone ok).1) (by simp) ?_ ?_ ?_
      · rw [onWriteDone_state]; exact hwf.registered s hs
      · rw [onWriteDone_state, issueWrite_ownOps]; exact hown s hs
      · -- the completed `Write` was the only one outstanding
        have hlen := hwf.writing s hs
        have hpos := List.length_pos_of_mem hw
        have hle : s.writing.toNat ≤ 1 := Bool.toNat_le _
        rw [issueWrite_writes, List.length_append, Option.length_toList, hwriting,
          List.length_erase_of_mem hw]
        cases (s.onWriteDone ok).2 <;> simp <;> omega
  | stray hs hw => exact Wf.dead hs (by rw [hwf.own, hs]; rfl)
  | refused hs hst => exact Wf.dead rfl rfl
  | @accepted s s' _ ws hs hst hst' hq hw =>
      refine Wf.live (s := s') rfl (by simp [hst']) (by rw [hst']; rfl) ?_
      rw [List.length_append, hwf.writing s hs, hw]
  | @readOk s ev _ hs hst =>
      exact Wf.live rfl (by simp [hst]) (by simp [hst, waitsFor]) (hwf.writing s hs)
  | @readFailed s _ hs hst => exact Wf.live rfl (by simp) rfl (hwf.writing s hs)
  | finished hs hst => exact Wf.dead rfl rfl

theorem wf_reachable {k : Connection} (h : Connection.machine.Reachable k) : Wf k :=
  h.invariant (P := Wf) wf_construct (fun _ _ _ _ hwf _ hs => wf_step hwf hs)

end CloudGateway.Proof
