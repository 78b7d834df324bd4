import CloudGateway.Proof.World
import CloudGateway.Services.StreamThreads

/-!
# Two threads: what a step can do

`ThreadsEffect` lists the atomic steps of the two threads. A connection is well
formed as before, except that of the handler whose accept is under way: its
registration has completed and its first `Read` has not been issued, so it has
nothing outstanding under its own tag.

Without interference the two descriptions agree: whatever the handlers can do in
whole steps, the two threads can do (`threads_of_world`).
-/

namespace CloudGateway.Proof

open Services Proto Reactive

/-! ## Well-formedness between the steps -/

/-- A handler between `active_.store(this)` and its first `Read`. -/
structure InAccept (k : Connection) (s : VehicleStreamHandler) : Prop where
  live : k.handler = some s
  state : s.state = .accepting
  own : k.ownOps = []
  writing : k.writes.length = s.writing.toNat

/-- The connections are well formed, that of an accept under way up to its first `Read`. -/
structure ThreadsWf (t : Threads) : Prop where
  settled : ∀ i k, t.world.conns[i]? = some k → t.cq.accepting ≠ some i → Wf k
  accepting : ∀ h, t.cq.accepting = some h →
    ∃ k s, t.world.conns[h]? = some k ∧ InAccept k s

theorem ThreadsWf.connsWf {t : Threads} (hwf : ThreadsWf t) (hcq : t.cq = .next) :
    ConnsWf t.world := by
  intro k hk
  obtain ⟨i, hi⟩ := List.mem_iff_getElem?.mp hk
  exact hwf.settled i k hi (by simp [hcq, CqThread.accepting])

/-- `enqueue` during the flush. -/
theorem inAccept_enqueue {k : Connection} {s : VehicleStreamHandler} (h : InAccept k s)
    (cmd : GatewayCommand) : InAccept (k.enqueue cmd) (s.enqueue cmd).1 := by
  obtain ⟨hissued, hwriting⟩ := enqueue_writing s cmd
  rw [enqueue_live h.live]
  refine ⟨by simp, by rw [enqueue_state]; exact h.state, by simpa using h.own, ?_⟩
  rw [issueWrite_writes, List.length_append, Option.length_toList, h.writing, hissued, hwriting]
  cases s.writing <;> rfl

/-- The first `Read` ends the exception. -/
theorem wf_startReading {k : Connection} {s : VehicleStreamHandler} (h : InAccept k s) :
    Wf k.startReading := by
  refine Wf.live (s := { s with state := .reading }) ?_ (by simp) ?_ h.writing
  · simp [h.live]
  · simp [h.own, waitsFor]

variable [JsonText]

theorem wf_enqueue {k : Connection} {s : VehicleStreamHandler} (hwf : Wf k)
    (hs : k.handler = some s) (cmd : GatewayCommand) : Wf (k.enqueue cmd) :=
  wf_step (a := .enqueue cmd) hwf (by simp [Connection.step, hs])

/-! ## What a step can do -/

/-- The connection whose registration has just completed. -/
def registered (k : Connection) : Connection :=
  { k with ownOps := [], completions := k.completions ++ [.request true] }

/-- **Everything an atomic step can do.** -/
inductive ThreadsEffect (t : Threads) : Threads.Action → Threads → Prop where
  | load {cmd : GatewayCommand} : ThreadsEffect t (.load cmd) (t.load cmd)
  | append {i : Nat} {p : PushCall} (hp : t.pushing[i]? = some p) (hl : p.loaded = none)
      (hcq : t.cq.locked = false) :
      ThreadsEffect t (.append i)
        { t with
          world := { t.world with pendingCommands := t.world.pendingCommands ++ [p.cmd] }
          pushing := t.pushing.eraseIdx i }
  | enqueue {i h : Nat} {p : PushCall} {k : Connection} {s : VehicleStreamHandler}
      (hp : t.pushing[i]? = some p) (hl : p.loaded = some h)
      (hk : t.world.conns[h]? = some k) (hs : k.handler = some s) :
      ThreadsEffect t (.enqueue i)
        { t with
          world := { t.world with conns := t.world.conns.set h (k.enqueue p.cmd) }
          pushing := t.pushing.eraseIdx i }
  /-- The handler a call has loaded is gone. -/
  | dangling {i h : Nat} {p : PushCall} (hp : t.pushing[i]? = some p) (hl : p.loaded = some h)
      (hd : t.world.handler h = none) :
      ThreadsEffect t (.enqueue i)
        { t with world := { t.world with fault := true }, pushing := t.pushing.eraseIdx i }
  /-- An accept, up to `active_.store(this)`. -/
  | stored {h : Nat} {k : Connection} {s : VehicleStreamHandler} (hcq : t.cq = .next)
      (hk : t.world.conns[h]? = some k) (hs : k.handler = some s) (hst : s.state = .accepting) :
      ThreadsEffect t (.complete h (.request true))
        { t with
          world := { t.world with
            conns := t.world.conns.set h (registered k) ++ [.construct]
            active := some h
            accepted := t.world.accepted ++ [h] }
          cq := .stored h }
  /-- Any other completion. -/
  | moved {h : Nat} {c : Completion} {k k' : Connection} {b : Bool} (hcq : t.cq = .next)
      (hc : c ≠ .request true) (hm : Moves t.world h c k k') :
      ThreadsEffect t (.complete h c)
        { t with
          world := { t.world with
            conns := t.world.conns.set h k'
            active :=
              if endsStream c = true ∧ t.world.active = some h then none else t.world.active
            fault := b } }
  | lock {h : Nat} (hcq : t.cq = .stored h) : ThreadsEffect t .lock { t with cq := .flushing h }
  | flushOne {h : Nat} {cmd : GatewayCommand} {rest : List GatewayCommand} {k : Connection}
      {s : VehicleStreamHandler} (hcq : t.cq = .flushing h)
      (hp : t.world.pendingCommands = cmd :: rest) (hk : t.world.conns[h]? = some k)
      (hs : k.handler = some s) :
      ThreadsEffect t .flushOne
        { t with world := { t.world with
            conns := t.world.conns.set h (k.enqueue cmd)
            pendingCommands := rest } }
  | unlock {h : Nat} {k : Connection} {s : VehicleStreamHandler} (hcq : t.cq = .flushing h)
      (hp : t.world.pendingCommands = []) (hk : t.world.conns[h]? = some k)
      (hs : k.handler = some s) :
      ThreadsEffect t .unlock
        { t with
          world := { t.world with conns := t.world.conns.set h k.startReading }
          cq := .next }

omit [JsonText] in
/-- Only the completion of a registration is taken for an accept. -/
theorem accepts_iff {w w₁ : World} {h : Nat} {c : Completion} (hwf : ConnsWf w)
    (htake : w.take h c = some w₁) : w₁.accepts h c = true ↔ c = .request true := by
  obtain ⟨k, k₁, hk, hk₁, rfl⟩ := take_conn htake
  have hat := handler_of (w := { w with conns := w.conns.set h k₁ }) (set_at hk k₁)
  have hkwf := hwf k (List.mem_of_getElem? hk)
  cases c with
  | write cmd ok => simp [World.accepts]
  | request ok =>
      obtain ⟨s, hs, hst, heq⟩ := take_request hkwf hk₁
      have hs₁ : k₁.handler = some s := by rw [heq]; exact hs
      simp only [World.accepts, hat, hs₁]
      simp [Completion.ok, hst]
  | read ev =>
      obtain ⟨s, hs, hst, heq⟩ := take_read hkwf hk₁
      have hs₁ : k₁.handler = some { s with incoming := ev.getD s.incoming } := by rw [heq]
      simp only [World.accepts, hat, hs₁]
      simp [hst]
  | finish ok =>
      obtain ⟨s, hs, hst, heq⟩ := take_finish hkwf hk₁
      have hs₁ : k₁.handler = some s := by rw [heq]; exact hs
      simp only [World.accepts, hat, hs₁]
      simp [hst]

/-- **Every step is one of the effects.** -/
theorem threads_step_effect {t t' : Threads} {a : Threads.Action} (hwf : ThreadsWf t)
    (h : t.step a = some t') : ThreadsEffect t a t' := by
  unfold Threads.step at h
  split at h
  · exact absurd h (by simp)
  rename_i hfault
  cases a with
  | load cmd => obtain rfl := Option.some.inj h; exact .load
  | append i =>
      obtain ⟨p, hp, h⟩ := Option.bind_eq_some_iff.mp h
      split at h
      · rename_i hg
        obtain rfl := Option.some.inj h
        exact .append hp hg.1 hg.2
      · exact absurd h (by simp)
  | enqueue i =>
      obtain ⟨p, hp, h⟩ := Option.bind_eq_some_iff.mp h
      obtain ⟨j, hl, rfl⟩ := Option.map_eq_some_iff.mp h
      rcases Option.eq_none_or_eq_some (t.world.handler j) with hd | ⟨s, hs⟩
      · simp only [World.enqueue, hd, World.crash]
        exact .dangling hp hl hd
      · obtain ⟨k, hk, hks⟩ := Option.bind_eq_some_iff.mp hs
        rw [enqueue_conn hk hks]
        exact .enqueue hp hl hk hks
  | complete i c =>
      simp only at h
      split at h
      case isFalse => exact absurd h (by simp)
      rename_i hcq
      obtain ⟨w₁, hw₁, rfl⟩ := Option.map_eq_some_iff.mp h
      have hconns := hwf.connsWf hcq
      have hacc := accepts_iff hconns hw₁
      unfold Threads.dispatch
      split
      · rename_i ha
        obtain rfl := hacc.mp ha
        obtain ⟨k, k₁, hk, hk₁, rfl⟩ := take_conn hw₁
        obtain ⟨s, hs, hst, rfl⟩ := take_request (hconns k (List.mem_of_getElem? hk)) hk₁
        exact .stored hcq hk hs hst
      · rename_i ha
        have hc : c ≠ .request true := fun hc => ha (hacc.mpr hc)
        have hstep : t.world.step (.complete i c) = some (w₁.runCQ i c) := by
          simp [World.step, hfault, hw₁]
        obtain ⟨k, k', b, hm, heq⟩ := completion_effect (world_step_effect hconns hstep) hc
        rw [heq]
        exact .moved hcq hc hm
  | lock =>
      simp only at h
      split at h
      · rename_i j hcq; obtain rfl := Option.some.inj h; exact .lock hcq
      · exact absurd h (by simp)
  | flushOne =>
      simp only at h
      split at h
      · rename_i j cmd rest hcq hp
        obtain rfl := Option.some.inj h
        obtain ⟨k, s, hk, hin⟩ := hwf.accepting j (by simp [hcq, CqThread.accepting])
        rw [enqueue_conn hk hin.live]
        exact .flushOne hcq hp hk hin.live
      · exact absurd h (by simp)
  | unlock =>
      simp only at h
      split at h
      · rename_i j hcq hp
        obtain rfl := Option.some.inj h
        obtain ⟨k, s, hk, hin⟩ := hwf.accepting j (by simp [hcq, CqThread.accepting])
        rw [modify_conn hk]
        exact .unlock hcq hp hk hin.live
      · exact absurd h (by simp)

/-! ## Every step keeps the connections well formed -/

omit [JsonText] in
theorem threadsWf_init : ThreadsWf (.atRest .start) where
  settled := by
    intro i k hk _
    rw [List.mem_singleton.mp (List.mem_of_getElem? hk)]; exact wf_construct
  accepting := by intro h hh; exact absurd hh (by simp [Threads.atRest, CqThread.accepting])

/-- Enqueueing to one connection keeps all of them well formed. -/
theorem threadsWf_enqueue {t : Threads} (hwf : ThreadsWf t) {h : Nat} {k : Connection}
    {s : VehicleStreamHandler} (hk : t.world.conns[h]? = some k) (hs : k.handler = some s)
    (cmd : GatewayCommand) :
    ThreadsWf { t with world := { t.world with
      conns := t.world.conns.set h (k.enqueue cmd) } } where
  settled := by
    intro i x hx hne
    by_cases hi : h = i
    · subst hi
      obtain rfl := Option.some.inj ((set_at hk _).symm.trans hx)
      exact wf_enqueue (hwf.settled h k hk hne) hs cmd
    · exact hwf.settled i x (by rwa [List.getElem?_set_ne hi] at hx) hne
  accepting := by
    intro i hi
    obtain ⟨y, r, hy, hin⟩ := hwf.accepting i hi
    by_cases hhi : h = i
    · subst hhi
      obtain rfl := Option.some.inj (hk.symm.trans hy)
      exact ⟨_, _, set_at hk _, inAccept_enqueue hin cmd⟩
    · exact ⟨y, r, by rw [List.getElem?_set_ne hhi]; exact hy, hin⟩

/-- **Every step keeps the connections well formed.** -/
theorem threadsWf_step {t t' : Threads} {a : Threads.Action} (hwf : ThreadsWf t)
    (h : t.step a = some t') : ThreadsWf t' := by
  cases threads_step_effect hwf h with
  | load => exact ⟨hwf.settled, hwf.accepting⟩
  | append hp hl hcq => exact ⟨hwf.settled, hwf.accepting⟩
  | dangling hp hl hd => exact ⟨hwf.settled, hwf.accepting⟩
  | @lock i hcq =>
      have heq : t.cq.accepting = some i := by rw [hcq]; rfl
      exact ⟨fun i k hk hne => hwf.settled i k hk (heq ▸ hne),
        fun j hj => hwf.accepting j (heq ▸ hj)⟩
  | enqueue hp hl hk hs => exact ⟨(threadsWf_enqueue hwf hk hs _).settled,
      (threadsWf_enqueue hwf hk hs _).accepting⟩
  | flushOne hcq hp hk hs => exact ⟨(threadsWf_enqueue hwf hk hs _).settled,
      (threadsWf_enqueue hwf hk hs _).accepting⟩
  | @stored i k s hcq hk hs hst =>
      have hkwf := hwf.connsWf hcq k (List.mem_of_getElem? hk)
      have hat := set_at hk (registered k)
      refine ⟨?_, ?_⟩
      · intro j x hx hne
        have hij : i ≠ j := fun hij => hne (by rw [hij]; rfl)
        rcases at_set_append hij hx with hx' | rfl
        · exact hwf.connsWf hcq x (List.mem_of_getElem? hx')
        · exact wf_construct
      · intro j hj
        obtain rfl : i = j := Option.some.inj hj
        refine ⟨registered k, s, ?_, hs, hst, rfl, hkwf.writing s hs⟩
        show (_ ++ _)[i]? = _
        rw [List.getElem?_append_left (address_lt hat)]; exact hat
  | @moved i c k k' b hcq hc hm =>
      have hkwf := hwf.connsWf hcq k (List.mem_of_getElem? hm.1)
      refine ⟨?_, ?_⟩
      · intro j x hx _
        have hset := (forall_set_at (hwf.connsWf hcq) hm.1).mpr (wf_step hkwf hm.2)
        exact hset x (List.mem_of_getElem? hx)
      · intro j hj
        exact absurd hj (by simp [hcq, CqThread.accepting])
  | @unlock i k s hcq hp hk hs =>
      have heq : t.cq.accepting = some i := by rw [hcq]; rfl
      obtain ⟨y, r, hy, hin⟩ := hwf.accepting i heq
      obtain rfl := Option.some.inj (hk.symm.trans hy)
      refine ⟨?_, ?_⟩
      · intro j x hx _
        by_cases hij : i = j
        · subst hij
          obtain rfl := Option.some.inj ((set_at hk _).symm.trans hx)
          exact wf_startReading hin
        · refine hwf.settled j x (by rwa [List.getElem?_set_ne hij] at hx) ?_
          rw [heq]
          intro h
          exact hij (Option.some.inj h)
      · intro j hj
        exact absurd hj (by simp [CqThread.accepting])

theorem threadsWf_reachable {t : Threads} (h : Threads.machine.Reachable t) : ThreadsWf t :=
  h.invariant (P := ThreadsWf) threadsWf_init (fun _ _ _ _ hwf _ hs => threadsWf_step hwf hs)

/-- What a step can do, from any state a run reaches. -/
theorem threads_effect_reachable {t t' : Threads} {a : Threads.Action}
    (h : Threads.machine.Reachable t) (hs : t.step a = some t') : ThreadsEffect t a t' :=
  threads_step_effect (threadsWf_reachable h) hs

/-! ## Whole steps are runs of atomic steps -/

/-- The flush, command by command. -/
theorem run_flushing (cmds : List GatewayCommand) (ps : List PushCall) {w : World} {h : Nat}
    {k : Connection} {s : VehicleStreamHandler} (hf : w.fault = false)
    (hk : w.conns[h]? = some k) (hs : k.handler = some s) (hp : w.pendingCommands = cmds) :
    Threads.machine.run ⟨w, ps, .flushing h⟩ (List.replicate cmds.length .flushOne)
      = some ⟨World.drainTo h cmds w, ps, .flushing h⟩ := by
  induction cmds generalizing w k s with
  | nil => rfl
  | cons cmd cmds ih =>
      have hlive : (k.enqueue cmd).handler = some (s.enqueue cmd).1 := by
        rw [enqueue_live hs]; simp
      have hstep : Threads.machine.step ⟨w, ps, .flushing h⟩ .flushOne
          = some ⟨{ w.enqueue h cmd with pendingCommands := cmds }, ps, .flushing h⟩ := by
        simp [Threads.machine, Threads.step, hf, hp]
      rw [List.length_cons, List.replicate_succ, Machine.run_cons, hstep, Option.bind_some,
        World.drainTo, enqueue_conn hk hs]
      exact ih hf (set_at hk _) hlive rfl

/-- A push with nobody in between. -/
theorem run_push {w : World} (hf : w.fault = false) (cmd : GatewayCommand) :
    ∃ bs, Threads.machine.run (.atRest w) bs = some (.atRest (w.pushCommand cmd)) := by
  rcases Option.eq_none_or_eq_some w.active with ha | ⟨h, ha⟩
  · refine ⟨[.load cmd, .append 0], ?_⟩
    simp [Threads.machine, Threads.step, Threads.atRest, Threads.load, hf, ha, CqThread.locked,
      World.pushCommand, World.pushPending]
  · refine ⟨[.load cmd, .enqueue 0], ?_⟩
    simp [Threads.machine, Threads.step, Threads.atRest, Threads.load, hf, ha,
      World.pushCommand]

/-- A completion with nobody in between. -/
theorem run_complete {w w₁ : World} {h : Nat} {c : Completion} (hwf : ConnsWf w)
    (hf : w.fault = false) (hw₁ : w.take h c = some w₁) :
    ∃ bs, Threads.machine.run (.atRest w) bs = some (.atRest (w₁.runCQ h c)) := by
  have hacc := accepts_iff hwf hw₁
  have hdisp : Threads.machine.step (.atRest w) (.complete h c)
      = some ((Threads.atRest w).dispatch w₁ h c) := by
    simp [Threads.machine, Threads.step, Threads.atRest, hf, hw₁]
  by_cases hc : c = .request true
  · -- the accept: store, lock, one step for each pending command, unlock
    subst hc
    obtain ⟨k, k₁, hk, hk₁, rfl⟩ := take_conn hw₁
    obtain ⟨s, hks, hst, heq⟩ := take_request (hwf k (List.mem_of_getElem? hk)) hk₁
    have hs₁ : k₁.handler = some s := by rw [heq]; exact hks
    set w₁ : World := { w with conns := w.conns.set h k₁ } with hw₁
    have hat : (w₁.acceptStore h).conns[h]? = some k₁ := by
      show (_ ++ _)[h]? = _
      rw [List.getElem?_append_left (address_lt (set_at hk k₁))]; exact set_at hk k₁
    have hstored : Threads.machine.step (.atRest w) (.complete h (.request true))
        = some ⟨w₁.acceptStore h, [], .stored h⟩ := by
      rw [hdisp, Threads.dispatch, if_pos (hacc.mpr rfl)]; rfl
    have hlock : Threads.machine.step ⟨w₁.acceptStore h, [], .stored h⟩ .lock
        = some ⟨w₁.acceptStore h, [], .flushing h⟩ := by
      simp [Threads.machine, Threads.step, World.acceptStore, hw₁, hf]
    have hflush := run_flushing (w₁.acceptStore h).pendingCommands [] (h := h)
      (w := w₁.acceptStore h) hf hat hs₁ rfl
    have hend : Threads.machine.step ⟨(w₁.acceptStore h).flushPending h, [], .flushing h⟩ .unlock
        = some (.atRest (((w₁.acceptStore h).flushPending h).modify h (·.startReading))) := by
      rw [flushPending_conn hat hs₁]
      simp [Threads.machine, Threads.step, Threads.atRest, World.acceptStore, hw₁, hf]
    refine ⟨.complete h (.request true) :: .lock ::
      (List.replicate (w₁.acceptStore h).pendingCommands.length .flushOne ++ [.unlock]), ?_⟩
    have hrun : w₁.runCQ h (.request true)
        = ((w₁.acceptStore h).flushPending h).modify h (·.startReading) := by
      have hw₁s : w₁.handler h = some s := (handler_of (set_at hk k₁)).trans hs₁
      simp [World.runCQ, World.proceed, hw₁s, hst]
    rw [Machine.run_cons, hstored, Option.bind_some, Machine.run_cons, hlock, Option.bind_some,
      Machine.run_append, hflush, hrun]
    exact (Machine.run_cons ..).trans (by rw [World.flushPending] at hend; rw [hend]; rfl)
  · refine ⟨[.complete h c], ?_⟩
    rw [Machine.run_cons, hdisp, Threads.dispatch, if_neg (fun ha => hc (hacc.mp ha))]
    rfl

/-- **What the handlers can do in whole steps, the two threads can do.** -/
theorem threads_of_world {w : World} (h : World.machine.Reachable w) :
    Threads.machine.Reachable (.atRest w) := by
  have hsim : ∃ t, Threads.machine.Reachable t ∧ t = Threads.atRest w := by
    refine h.simulate (N := Threads.machine) (R := fun w t => t = Threads.atRest w) rfl ?_
    rintro w a w' t hr rfl _ hs
    simp only [World.machine, World.step] at hs
    split at hs
    · exact absurd hs (by simp)
    rename_i hfault
    have hf : w.fault = false := by simpa using hfault
    -- two atomic steps for a push, one for a completion, more for an accept
    cases a with
    | push cmd =>
        obtain rfl := Option.some.inj hs
        obtain ⟨bs, hbs⟩ := run_push hf cmd
        exact ⟨bs, _, hbs, rfl⟩
    | complete i c =>
        obtain ⟨w₁, hw₁, rfl⟩ := Option.map_eq_some_iff.mp hs
        obtain ⟨bs, hbs⟩ := run_complete (connsWf_reachable hr) hf hw₁
        exact ⟨bs, _, hbs, rfl⟩
  obtain ⟨t, ht, rfl⟩ := hsim
  exact ht

end CloudGateway.Proof
