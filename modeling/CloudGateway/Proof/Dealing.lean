import CloudGateway.Lib.Handoff
import CloudGateway.Proof.WriteDiscipline

/-!
# The commands are dealt out in blocks

`active_` and `pending_commands_` hand a stream of commands from connection to
connection: a world simulates a `Handoff`, in which an accepted handler takes
over, and a handler that clears itself from `active_` leaves. So, whatever fails
and however connections overlap, each handler ever accepted is given one block of
what was pushed, and the blocks in the order of the accepts, followed by
`pending_commands_`, are what was pushed, in order. Within a block the handler
keeps the order (`WriteDiscipline`).
-/

namespace CloudGateway.Proof

open Services Proto Reactive

/-- The handler at an address has been given the commands `cmds`. -/
def DealtTo (ks : List Connection) (h : Nat) (cmds : List GatewayCommand) : Prop :=
  ∃ k, ks[h]? = some k ∧ WriteDiscipline k cmds

/-- What the handler at an address has handed to `stream_.Write`. -/
def writtenAt (ks : List Connection) (h : Nat) : List GatewayCommand :=
  (ks[h]?.map writtenOn).getD []

theorem DealtTo.written {ks : List Connection} {h : Nat} {cmds : List GatewayCommand}
    (hd : DealtTo ks h cmds) : writtenAt ks h <+: cmds := by
  obtain ⟨k, hk, hdisc⟩ := hd
  simpa [writtenAt, hk] using hdisc.written

theorem DealtTo.set_ne {ks : List Connection} {i h : Nat} {cmds : List GatewayCommand}
    (hd : DealtTo ks h cmds) (hne : i ≠ h) (k' : Connection) : DealtTo (ks.set i k') h cmds := by
  obtain ⟨k, hk, hdisc⟩ := hd
  exact ⟨k, by rw [List.getElem?_set_ne hne]; exact hk, hdisc⟩

theorem DealtTo.append {ks : List Connection} {h : Nat} {cmds : List GatewayCommand}
    (hd : DealtTo ks h cmds) (ls : List Connection) : DealtTo (ks ++ ls) h cmds := by
  obtain ⟨k, hk, hdisc⟩ := hd
  exact ⟨k, by rw [List.getElem?_append_left (address_lt hk)]; exact hk, hdisc⟩

/-- Receivers at other addresses do not notice that one connection moves. -/
theorem dealt_set {ks : List Connection} {hs : List Nat} {blocks : List (List GatewayCommand)}
    {i : Nat} (hd : List.Forall₂ (DealtTo ks) hs blocks) (hi : i ∉ hs) (k' : Connection) :
    List.Forall₂ (DealtTo (ks.set i k')) hs blocks := by
  induction hd with
  | nil => exact .nil
  | @cons h b hs bs hx _ ih =>
      obtain ⟨hne, hrest⟩ : i ≠ h ∧ i ∉ hs := by simpa using hi
      exact .cons (hx.set_ne hne k') (ih hrest)

variable [JsonText]

/-- A completion other than an accept enqueues nothing. -/
theorem dealtTo_moved {w : World} {i h : Nat} {c : Completion} {k k' : Connection}
    {cmds : List GatewayCommand} (hwf : Wf k) (hm : Moves w i c k k') (hc : c ≠ .request true)
    (hd : DealtTo w.conns h cmds) : DealtTo (w.conns.set i k') h cmds := by
  by_cases hi : i = h
  · subst hi
    obtain ⟨x, hx, hdisc⟩ := hd
    obtain rfl := Option.some.inj (hm.1.symm.trans hx)
    have hstep := writeDiscipline_step hwf hdisc hm.2
    have hnone : enqueued (.complete c w.pendingCommands) = [] := by
      cases c with
      | request ok =>
          cases ok with
          | false => rfl
          | true => exact absurd rfl hc
      | _ => rfl
    rw [hnone, List.append_nil] at hstep
    exact ⟨k', set_at hm.1 k', hstep⟩
  · exact hd.set_ne hi k'

/-! ## The simulation -/

/-- How a world stands to a `Handoff`. -/
structure Deals (w : World) (r : Handoff GatewayCommand) : Prop where
  submitted : r.submitted = w.pushed
  waiting : r.waiting = w.pendingCommands
  serving : r.serving = w.active.isSome
  /-- The accepted handlers, the latest first, have been given the blocks. -/
  receivers : List.Forall₂ (DealtTo w.conns) w.accepted.reverse r.blocks
  /-- Any other handler has been given nothing. -/
  idle : ∀ h ∉ w.accepted, ∀ k ∈ w.conns[h]?, WriteDiscipline k []
  /-- Nobody is accepted twice. -/
  once : w.accepted.Nodup

omit [JsonText] in
theorem deals_start : Deals .start (Handoff.machine GatewayCommand).init where
  submitted := rfl
  waiting := rfl
  serving := rfl
  receivers := .nil
  idle := by
    intro h _ k hk
    have hmem := List.mem_of_getElem? hk
    rw [List.mem_singleton.mp hmem]
    exact writeDiscipline_construct
  once := List.nodup_nil

section Steps

variable {w : World} {r : Handoff GatewayCommand} (hd : Deals w r)
include hd

omit [JsonText] in
/-- A command waits while nobody is connected. -/
theorem Deals.queued (ha : w.active = none) (cmd : GatewayCommand) :
    Deals { w with
      pushed := w.pushed ++ [cmd]
      pendingCommands := w.pendingCommands ++ [cmd] } (r.submit cmd) := by
  have hs : r.serving = false := by rw [hd.serving, ha]; rfl
  rw [Handoff.submit_waiting hs]
  exact ⟨by simp [hd.submitted], by simp [hd.waiting], hd.serving, hd.receivers, hd.idle, hd.once⟩

/-- A command goes to the handler in `active_`, which was accepted last. -/
theorem Deals.sent (hr : World.machine.Reachable w) {h : Nat} {k : Connection}
    {s : VehicleStreamHandler} (ha : w.active = some h) (hk : w.conns[h]? = some k)
    (hs : k.handler = some s) (cmd : GatewayCommand) :
    Deals { w with
      pushed := w.pushed ++ [cmd]
      conns := w.conns.set h (k.enqueue cmd) } (r.submit cmd) := by
  obtain ⟨hlast, _⟩ := ((bookkeeping_reachable hr).active_iff h).mp ha
  obtain ⟨earlier, hacc⟩ : ∃ earlier, w.accepted = earlier ++ [h] :=
    ⟨_, (List.dropLast_append_getLast? h hlast).symm⟩
  have hrev : w.accepted.reverse = h :: earlier.reverse := by rw [hacc]; simp
  have hrecv := hd.receivers
  rw [hrev] at hrecv
  obtain ⟨b, bs, ⟨x, hx, hdisc⟩, hrest, hb⟩ := List.forall₂_cons_left_iff.mp hrecv
  obtain rfl := Option.some.inj (hk.symm.trans hx)
  have hserving : r.serving = true := by rw [hd.serving, ha]; rfl
  have hstep : k.step (.enqueue cmd) = some (k.enqueue cmd) := by
    simp [Connection.step, hs]
  have hwf := connsWf_reachable hr k (List.mem_of_getElem? hk)
  have hearlier : h ∉ earlier.reverse := by
    have := hd.once
    rw [hacc, List.nodup_append] at this
    intro hmem
    exact this.2.2 h (List.mem_reverse.mp hmem) h (by simp) rfl
  rw [Handoff.submit_serving hserving hb]
  refine ⟨by simp [hd.submitted], hd.waiting, hd.serving, ?_, ?_, hd.once⟩
  · show List.Forall₂ (DealtTo (w.conns.set h (k.enqueue cmd))) w.accepted.reverse _
    rw [hrev]
    exact .cons ⟨_, set_at hk _, writeDiscipline_step hwf hdisc hstep⟩
      (dealt_set hrest hearlier _)
  · intro j hj y hy
    have hne : h ≠ j := by
      rintro rfl
      exact hj (by rw [hacc]; simp)
    rw [List.getElem?_set_ne hne] at hy
    exact hd.idle j hj y hy

/-- An accepted handler takes over. -/
theorem Deals.accept (hr : World.machine.Reachable w) {i : Nat} {k k' : Connection}
    (hm : Moves w i (.request true) k k') :
    Deals { w with
      conns := w.conns.set i k' ++ [.construct]
      active := some i
      pendingCommands := []
      accepted := w.accepted ++ [i] } r.takeOver := by
  have hreach := conns_reachable hr k (List.mem_of_getElem? hm.1)
  have hwf := wf_reachable hreach
  -- a handler that is accepted now was not accepted before
  have hnew : i ∉ w.accepted := by
    intro hmem
    obtain ⟨x, hx, hrec⟩ := (bookkeeping_reachable hr).known i hmem
    obtain rfl := Option.some.inj (hm.1.symm.trans hx)
    have hp := phase_reachable hreach
    cases step_effect hwf hm.2 with
    | accepted hs hst _ _ _ =>
        simp only [Phase, stateOf, hs, hst, Option.map_some] at hp
        exact absurd (hrec.symm.trans hp.1) (by simp)
  have hdisc := writeDiscipline_step hwf (hd.idle i hnew k hm.1) hm.2
  have hold : i ∉ w.accepted.reverse := fun hmem => hnew (List.mem_reverse.mp hmem)
  refine ⟨hd.submitted, rfl, rfl, ?_, ?_, ?_⟩
  · show List.Forall₂ (DealtTo (w.conns.set i k' ++ [.construct])) (w.accepted ++ [i]).reverse
      (r.waiting :: r.blocks)
    rw [List.reverse_append, hd.waiting]
    refine .cons (DealtTo.append ⟨k', set_at hm.1 k', hdisc⟩ _) ?_
    exact (dealt_set hd.receivers hold k').imp (fun _ _ hx => hx.append _)
  · intro j hj y hy
    obtain ⟨hj, hji⟩ : j ∉ w.accepted ∧ j ≠ i := by simpa using hj
    rcases at_set_append (Ne.symm hji) hy with hy | rfl
    · exact hd.idle j hj y hy
    · exact writeDiscipline_construct
  · show (w.accepted ++ [i]).Nodup
    rw [List.nodup_append]
    exact ⟨hd.once, by simp, by rintro a ha b hb rfl; simp_all⟩

/-- Any other completion leaves the commands where they are. -/
theorem Deals.moved (hr : World.machine.Reachable w) {i : Nat} {c : Completion}
    {k k' : Connection} (hm : Moves w i c k k') (hc : c ≠ .request true) {b : Bool}
    {active : Option Nat} {r' : Handoff GatewayCommand} (hsub : r'.submitted = r.submitted)
    (hwait : r'.waiting = r.waiting) (hblocks : r'.blocks = r.blocks)
    (hserving : r'.serving = active.isSome) :
    Deals { w with conns := w.conns.set i k', active := active, fault := b } r' := by
  have hwf := connsWf_reachable hr k (List.mem_of_getElem? hm.1)
  refine ⟨hsub.trans hd.submitted, hwait.trans hd.waiting, hserving, ?_, ?_, hd.once⟩
  · rw [hblocks]
    exact hd.receivers.imp (fun _ _ hx => dealtTo_moved hwf hm hc hx)
  · intro j hj y hy
    by_cases hij : i = j
    · subst hij
      obtain ⟨z, hz, hdisc⟩ := dealtTo_moved hwf hm hc ⟨k, hm.1, hd.idle i hj k hm.1⟩
      exact Option.some.inj (hz.symm.trans hy) ▸ hdisc
    · rw [List.getElem?_set_ne hij] at hy
      exact hd.idle j hj y hy

end Steps

/-- **A world simulates a hand-over of the commands.** -/
theorem handoff_simulates {w : World} (hr : World.machine.Reachable w) :
    ∃ r, (Handoff.machine GatewayCommand).Reachable r ∧ Deals w r := by
  refine hr.simulate (R := Deals) deals_start ?_
  intro w a w' r hr hd _ hs
  have heff := world_effect_reachable hr hs
  cases a with
  | push cmd =>
      refine ⟨[.submit cmd], r.submit cmd, rfl, ?_⟩
      cases heff with
      | queued ha => exact hd.queued ha cmd
      | sent ha hk hks => exact hd.sent hr ha hk hks cmd
      | dangling ha hdead => exact absurd hdead (active_alive hr ha)
  | complete i c =>
      by_cases hc : c = .request true
      · subst hc
        cases heff with
        | accepted hm => exact ⟨[.takeOver], r.takeOver, rfl, hd.accept hr hm⟩
      · obtain ⟨k, k', b, hm, rfl⟩ := completion_effect heff hc
        split
        · -- the handler leaves
          exact ⟨[.leave], r.leave, rfl, hd.moved hr hm hc rfl rfl rfl rfl⟩
        · exact ⟨[], r, rfl, hd.moved hr hm hc rfl rfl rfl hd.serving⟩

/-- The blocks of a world, the first accepted handler's first. -/
theorem exists_blocks {w : World} (hr : World.machine.Reachable w) :
    ∃ blocks : List (List GatewayCommand),
      w.pushed = blocks.flatten ++ w.pendingCommands
        ∧ List.Forall₂ (DealtTo w.conns) w.accepted blocks
        ∧ (∀ h ∉ w.accepted, ∀ k ∈ w.conns[h]?, WriteDiscipline k [])
        ∧ (w.active ≠ none → w.pendingCommands = []) := by
  obtain ⟨r, hreach, hd⟩ := handoff_simulates hr
  have horder := Handoff.inOrder_reachable hreach
  have hdealt : List.Forall₂ (DealtTo w.conns) w.accepted r.blocks.reverse := by
    have := List.rel_reverse hd.receivers
    rwa [List.reverse_reverse] at this
  have hpushed : w.pushed = r.blocks.reverse.flatten ++ w.pendingCommands := by
    rw [← hd.submitted, ← hd.waiting]
    exact horder.order
  refine ⟨r.blocks.reverse, hpushed, hdealt, hd.idle, ?_⟩
  intro ha
  rw [← hd.waiting]
  exact (horder.served (by rw [hd.serving]; exact Option.isSome_iff_ne_none.mpr ha)).1

/-- What has been written, over all connections, is in the order of the pushes. -/
theorem written_sublist {w : World} (hr : World.machine.Reachable w) :
    (w.accepted.flatMap (writtenAt w.conns)).Sublist w.pushed := by
  obtain ⟨blocks, hpushed, hdealt, _⟩ := exists_blocks hr
  have hprefix : List.Forall₂ (fun xs b => xs <+: b)
      (w.accepted.map (writtenAt w.conns)) blocks :=
    List.forall₂_map_left_iff.mpr (hdealt.imp (fun _ _ hx => hx.written))
  rw [List.flatMap_def, hpushed]
  exact (Handoff.flatten_sublist hprefix).trans (List.sublist_append_left _ _)

theorem accepted_once {w : World} (hr : World.machine.Reachable w) : w.accepted.Nodup := by
  obtain ⟨r, _, hd⟩ := handoff_simulates hr
  exact hd.once

/--
**Every connection gets one block of the commands.** Whatever fails and however
connections overlap: the commands pushed so far are the blocks given to the
handlers ever accepted, in the order of the accepts, and then
`pending_commands_`, which is empty while `active_` is set. A handler writes its
block in order, one command at a time, and one that was never accepted gets none.
So everything written, over all connections, is in the order of the pushes.
-/
theorem commands_dealt {w : World} (hr : World.machine.Reachable w) :
    ∃ blocks : List (List GatewayCommand),
      w.pushed = blocks.flatten ++ w.pendingCommands
        ∧ List.Forall₂ (DealtTo w.conns) w.accepted blocks
        ∧ w.accepted.Nodup
        ∧ (∀ h ∉ w.accepted, ∀ k ∈ w.conns[h]?, WriteDiscipline k [])
        ∧ (w.active ≠ none → w.pendingCommands = [])
        ∧ (w.accepted.flatMap (writtenAt w.conns)).Sublist w.pushed := by
  obtain ⟨blocks, hpushed, hdealt, hidle, hempty⟩ := exists_blocks hr
  exact ⟨blocks, hpushed, hdealt, accepted_once hr, hidle, hempty, written_sublist hr⟩

omit [JsonText] in
/-- Two overlapping connections and a gap: a flushed command, a direct one, and one that waits. -/
theorem commands_dealt_gap :
    ∃ (_ : JsonText) (w : World), World.machine.Reachable w ∧ w.accepted = [0, 1]
      ∧ w.pendingCommands = [.orderUpdateStatus ⟨"V3"⟩]
      ∧ (w.accepted.flatMap (writtenAt w.conns)).Sublist w.pushed := by
  let _ : JsonText := ⟨fun _ => ""⟩
  obtain ⟨w, hr, hp⟩ := Machine.exists_reachable_of_run (M := World.machine)
    (l := [.push (.orderUpdateStatus ⟨"V1"⟩), .complete 0 (.request true),
      .complete 1 (.request true), .push (.orderUpdateStatus ⟨"V2"⟩), .complete 1 (.read none),
      .push (.orderUpdateStatus ⟨"V3"⟩)])
    (p := fun w => decide (w.accepted = [0, 1]
      ∧ w.pendingCommands = [.orderUpdateStatus ⟨"V3"⟩])) (by decide)
  obtain ⟨hacc, hpending⟩ := of_decide_eq_true hp
  obtain ⟨_, _, _, _, _, _, hsub⟩ := commands_dealt hr
  exact ⟨_, w, hr, hacc, hpending, hsub⟩

end CloudGateway.Proof
