import CloudGateway.Proof.PushOrder

/-!
# One `Write` at a time, in the order of the queue

gRPC forbids a second `Write` on a stream before the first has completed. The
handler keeps to it with `writing_`, which `flush_write_queue_locked` sets and
`on_write_done` clears, and keeps the commands that have to wait in
`write_queue_`. Both hold over every run of a connection: whoever enqueues, and
however the `Write`s end.
-/

namespace CloudGateway.Proof

open Services Proto Reactive

/-- The commands an action passes to `enqueue`. -/
def enqueued : Connection.Action → List GatewayCommand
  | .enqueue cmd => [cmd]
  | .complete (.request true) flushed => flushed
  | .complete _ _ => []

/-- A connection to which `cmds` have been enqueued writes one of them at a time, in order. -/
structure WriteDiscipline (k : Connection) (cmds : List GatewayCommand) : Prop where
  /-- At most one `Write` is outstanding. -/
  single : k.writes.length ≤ 1
  /-- While the handler exists, one is outstanding exactly when `writing_` is set. -/
  flag : ∀ s, k.handler = some s → (k.writes.length = 1 ↔ s.writing = true)
  /-- While it exists, what went to `Write` and what waits are what was enqueued, in order. -/
  queue : ∀ s, k.handler = some s → writtenOn k ++ s.writeQueue = cmds
  /-- Afterwards, what went to `Write` is how the enqueued commands began. -/
  written : writtenOn k <+: cmds

theorem WriteDiscipline.live {k : Connection} {s : VehicleStreamHandler}
    {cmds : List GatewayCommand} (hwf : Wf k) (hs : k.handler = some s)
    (hq : writtenOn k ++ s.writeQueue = cmds) : WriteDiscipline k cmds := by
  have hlen := hwf.writing s hs
  refine ⟨?_, ?_, ?_, ⟨_, hq⟩⟩
  · rw [hlen]; exact Bool.toNat_le _
  · intro s' hs'
    obtain rfl := Option.some.inj (hs.symm.trans hs')
    rw [hlen]; cases s.writing <;> simp
  · intro s' hs'
    obtain rfl := Option.some.inj (hs.symm.trans hs')
    exact hq

theorem WriteDiscipline.dead {k : Connection} {cmds : List GatewayCommand}
    (hs : k.handler = none) (hsingle : k.writes.length ≤ 1) (hwritten : writtenOn k <+: cmds) :
    WriteDiscipline k cmds where
  single := hsingle
  flag := by intro s hs'; rw [hs] at hs'; exact absurd hs' (by simp)
  queue := by intro s hs'; rw [hs] at hs'; exact absurd hs' (by simp)
  written := hwritten

/-- An operation of the handler itself is no `Write`. -/
theorem writtenOn_own (k : Connection) {k' : Connection} (op : OwnOp)
    (h : k'.calls = k.calls ++ [.own op]) : writtenOn k' = writtenOn k := by
  rw [writtenOn, h, List.filterMap_append]
  exact List.append_nil _

/-! ## Steps -/

variable [JsonText]

omit [JsonText] in
theorem writeDiscipline_construct : WriteDiscipline .construct [] :=
  WriteDiscipline.live wf_construct construct_handler rfl

/-- **Every step keeps the discipline, for the commands it enqueues as well.** -/
theorem writeDiscipline_step {k k' : Connection} {a : Connection.Action}
    {cmds : List GatewayCommand} (hwf : Wf k) (hk : WriteDiscipline k cmds)
    (h : k.step a = some k') : WriteDiscipline k' (cmds ++ enqueued a) := by
  have hwf' := wf_step hwf h
  -- an action that enqueues nothing leaves the commands as they are
  have hnone : writtenOn k <+: cmds ++ [] := by rw [List.append_nil]; exact hk.written
  cases step_effect hwf h with
  | @enqueue s cmd hs =>
      have hsent := sentTo_enqueue hs cmd
      refine WriteDiscipline.live hwf' (issueWrite_handler _ _) ?_
      rw [enqueue_live hs] at hsent
      simpa only [sentTo, issueWrite_handler, hs, Option.map_some, Option.getD_some, enqueued,
        hk.queue s hs] using hsent
  | @writeDone s cmd ok _ hs hw =>
      -- the next command moves from the queue to the stream, if there is one
      refine WriteDiscipline.live hwf' (issueWrite_handler _ _) ?_
      simp only [writtenOn, issueWrite_calls, writtenOn_issue, List.append_assoc, onWriteDone_queue,
        enqueued, List.append_nil]
      exact hk.queue s hs
  | @stray cmd ok _ hs hw =>
      have hle := hk.single
      have herase := List.length_erase_of_mem hw
      exact WriteDiscipline.dead hs (show (k.writes.erase cmd).length ≤ 1 by omega) hnone
  | refused hs hst => exact WriteDiscipline.dead rfl hk.single hnone
  | @accepted s s' flushed ws hs hst hst' hq hw =>
      refine WriteDiscipline.live hwf' rfl ?_
      have hkq := hk.queue s hs
      simp only [writtenOn, List.filterMap_append] at hkq ⊢
      simp [enqueued, List.filterMap_map, ← hkq, hq]
  | @readOk s ev _ hs hst =>
      refine WriteDiscipline.live hwf' rfl ?_
      rw [writtenOn_own k .read rfl]
      exact (hk.queue s hs).trans (List.append_nil _).symm
  | @readFailed s _ hs hst =>
      refine WriteDiscipline.live hwf' rfl ?_
      rw [writtenOn_own k .finish rfl]
      exact (hk.queue s hs).trans (List.append_nil _).symm
  | finished hs hst => exact WriteDiscipline.dead rfl hk.single hnone

/--
**One `Write` at a time, nothing reordered, lost or doubled.** After every run of
a connection, with commands enqueued at any time and `Write`s completed in any
way, at most one `Write` is outstanding, one is while `writing_` is set, and the
commands written and then those queued are the commands enqueued.
-/
theorem write_discipline {as : List Connection.Action} {k : Connection}
    (h : Connection.machine.run Connection.machine.init as = some k) :
    WriteDiscipline k (as.flatMap enqueued) := by
  have hany : ∀ a ∈ as, True := fun _ _ => trivial
  have hrun : ∀ cmds, WriteDiscipline Connection.machine.init cmds →
      WriteDiscipline k (cmds ++ as.flatMap enqueued) := by
    refine Machine.Reachable.run_rule (P := fun s as t => ∀ cmds, WriteDiscipline s cmds →
      WriteDiscipline t (cmds ++ as.flatMap enqueued)) ?_ ?_ .init hany h
    · intro s cmds hs
      simpa using hs
    · intro s a s' as t hr _ hs ih cmds hk
      have hk' := ih _ (writeDiscipline_step (wf_reachable hr) hk hs)
      rwa [List.append_assoc, ← List.flatMap_cons] at hk'
  exact hrun [] writeDiscipline_construct

omit [JsonText] in
/-- Of two flushed commands the first one's `Write` fails; the next `enqueue` sends the second. -/
theorem write_discipline_failed :
    ∃ (_ : JsonText) (k : Connection),
      Connection.machine.run Connection.machine.init
        [.complete (.request true) [.orderUpdateStatus ⟨"V1"⟩, .orderUpdateStatus ⟨"V2"⟩],
          .complete (.write (.orderUpdateStatus ⟨"V1"⟩) false) [],
          .enqueue (.orderUpdateStatus ⟨"V3"⟩)] = some k
      ∧ writtenOn k = [.orderUpdateStatus ⟨"V1"⟩, .orderUpdateStatus ⟨"V2"⟩]
      ∧ WriteDiscipline k [.orderUpdateStatus ⟨"V1"⟩, .orderUpdateStatus ⟨"V2"⟩,
        .orderUpdateStatus ⟨"V3"⟩] := by
  let _ : JsonText := ⟨fun _ => ""⟩
  have hrun : (Connection.machine.run Connection.machine.init
      [.complete (.request true) [.orderUpdateStatus ⟨"V1"⟩, .orderUpdateStatus ⟨"V2"⟩],
        .complete (.write (.orderUpdateStatus ⟨"V1"⟩) false) [],
        .enqueue (.orderUpdateStatus ⟨"V3"⟩)]).map writtenOn
      = some [.orderUpdateStatus ⟨"V1"⟩, .orderUpdateStatus ⟨"V2"⟩] := by decide
  obtain ⟨k, hk, hwritten⟩ := Option.map_eq_some_iff.mp hrun
  exact ⟨_, k, hk, hwritten, write_discipline hk⟩

end CloudGateway.Proof
