import CloudGateway.Proof.PushOrder

/-!
# When the two threads behave like whole steps

`World` takes `push_command` and each iteration of the completion-queue loop as
one step, `Threads` takes them apart. A `push_command` takes effect in its second
step, and does there what the whole call would do, as long as `active_` is still
what the call has loaded and no accept is under way (`InPlace`). A run of the
two threads all of whose pushes take effect so is one of whole steps, in which the
calls are made in the order of their second steps and an accept happens at its
store: `settle` is what the accept under way will leave.

Calls of `push_command` may overlap one another and any completions that leave
`active_` alone; the commands of a world are then a permutation of those loaded.
-/

namespace CloudGateway.Proof

open Services Proto Reactive

/-! ## The history of the pushes is only a history -/

section Pushed

variable (w : World) (p : List GatewayCommand) (h : Nat)

theorem pushed_enqueue (cmd : GatewayCommand) :
    World.enqueue { w with pushed := p } h cmd = { w.enqueue h cmd with pushed := p } := by
  have hsame : World.handler { w with pushed := p } h = w.handler h := rfl
  unfold World.enqueue
  rw [hsame]
  cases w.handler h <;> rfl

theorem enqueue_pushed (cmd : GatewayCommand) : (w.enqueue h cmd).pushed = w.pushed := by
  unfold World.enqueue
  cases w.handler h <;> rfl

theorem pushed_drainTo (cmds : List GatewayCommand) :
    World.drainTo h cmds { w with pushed := p }
      = { World.drainTo h cmds w with pushed := p } := by
  induction cmds generalizing w with
  | nil => rfl
  | cons cmd cmds ih =>
      rw [World.drainTo, pushed_enqueue, World.drainTo]
      exact ih { w.enqueue h cmd with pendingCommands := cmds }

theorem pushed_flushPending :
    World.flushPending { w with pushed := p } h = { w.flushPending h with pushed := p } :=
  pushed_drainTo w p h w.pendingCommands

theorem pushed_take (c : Completion) :
    World.take { w with pushed := p } h c
      = (w.take h c).map (fun w₁ => { w₁ with pushed := p }) := by
  cases hk : w.conns[h]? with
  | none => simp [World.take, hk]
  | some k => simp [World.take, hk, Function.comp_def]

variable [JsonText]

theorem pushed_proceed (ok : Bool) :
    World.proceed { w with pushed := p } h ok = { w.proceed h ok with pushed := p } := by
  have hsame : World.handler { w with pushed := p } h = w.handler h := rfl
  unfold World.proceed
  rw [hsame]
  cases w.handler h with
  | none => rfl
  | some s =>
      dsimp only
      cases s.state with
      | create => rfl
      | finish => rfl
      | reading => cases ok <;> rfl
      | accepting =>
          cases ok with
          | false => rfl
          | true =>
              have hflush := pushed_flushPending (w.acceptStore h) p h
              exact congrArg (fun v : World => v.modify h (·.startReading)) hflush

theorem pushed_runCQ (c : Completion) :
    World.runCQ { w with pushed := p } h c = { w.runCQ h c with pushed := p } := by
  cases c with
  | request ok => exact pushed_proceed w p h ok
  | read ev => exact pushed_proceed w p h ev.isSome
  | finish ok => exact pushed_proceed w p h ok
  | write cmd ok =>
      have hsame : World.handler { w with pushed := p } h = w.handler h := rfl
      simp only [World.runCQ, World.writerProceed, hsame]
      cases w.handler h <;> rfl

end Pushed

/-! ## Taking effect -/

/-- A call takes effect where it was loaded: `active_` has not changed, and nobody is accepted. -/
def InPlace (t : Threads) : Threads.Action → Prop
  | .append i | .enqueue i => t.cq = .next ∧ ∀ p ∈ t.pushing[i]?, p.loaded = t.world.active
  | _ => True

instance (t : Threads) : (a : Threads.Action) → Decidable (InPlace t a)
  | .append i | .enqueue i =>
      inferInstanceAs (Decidable (t.cq = .next ∧ ∀ p ∈ t.pushing[i]?, p.loaded = t.world.active))
  | .load _ | .complete _ _ | .lock | .flushOne | .unlock => isTrue trivial

/-- The handlers once the accept under way, if any, has ended. -/
def settle (t : Threads) : World :=
  match t.cq with
  | .next => t.world
  | .stored h | .flushing h => (t.world.flushPending h).modify h (·.startReading)

/-- The whole steps taken so far have led to `w`. -/
structure Linearizes (t : Threads) (w : World) : Prop where
  /-- They have done to the handlers what the threads have. -/
  settled : settle t = { w with pushed := t.world.pushed }
  /-- They have pushed what has been loaded, but for the calls in progress. -/
  pushed : t.world.pushed.Perm (w.pushed ++ inProgress t)

theorem Linearizes.world {t : Threads} {w : World} (hl : Linearizes t w) (hcq : t.cq = .next) :
    t.world = { w with pushed := t.world.pushed } := by
  have := hl.settled
  rwa [settle, hcq] at this

theorem settle_next {t : Threads} (hcq : t.cq = .next) : settle t = t.world := by
  rw [settle, hcq]

theorem settle_accepting {t : Threads} {h : Nat} (hcq : t.cq.accepting = some h) :
    settle t = (t.world.flushPending h).modify h (·.startReading) := by
  unfold settle
  cases hq : t.cq with
  | next => rw [hq] at hcq; exact absurd hcq (by simp [CqThread.accepting])
  | stored i => rw [hq] at hcq; obtain rfl := Option.some.inj hcq; rfl
  | flushing i => rw [hq] at hcq; obtain rfl := Option.some.inj hcq; rfl

/-- Loading changes only the history. -/
theorem settle_load (t : Threads) (cmd : GatewayCommand) :
    settle (t.load cmd) = { settle t with pushed := t.world.pushed ++ [cmd] } := by
  have hcq : (t.load cmd).cq = t.cq := rfl
  rcases Option.eq_none_or_eq_some t.cq.accepting with hnone | ⟨h, hsome⟩
  · have hnext : t.cq = .next := by
      cases hq : t.cq <;> simp_all [CqThread.accepting]
    rw [settle_next (hcq.trans hnext), settle_next hnext]
    rfl
  · rw [settle_accepting (hcq ▸ hsome), settle_accepting hsome]
    exact congrArg (fun v : World => v.modify h (·.startReading))
      (pushed_flushPending t.world (t.world.pushed ++ [cmd]) h)

/-- The calls in progress without the one that takes effect. -/
theorem inProgress_eraseIdx {ps : List PushCall} {i : Nat} {p : PushCall} (hp : ps[i]? = some p) :
    (ps.map (·.cmd)).Perm (p.cmd :: (ps.eraseIdx i).map (·.cmd)) := by
  obtain ⟨hlt, rfl⟩ := List.getElem?_eq_some_iff.mp hp
  exact ((List.getElem_cons_eraseIdx_perm hlt).map (·.cmd)).symm

/-- A call that takes effect moves from the calls in progress to the pushed commands. -/
theorem Linearizes.taken {t : Threads} {w : World} (hl : Linearizes t w) {i : Nat} {p : PushCall}
    (hp : t.pushing[i]? = some p) :
    t.world.pushed.Perm ((w.pushed ++ [p.cmd]) ++ (t.pushing.eraseIdx i).map (·.cmd)) := by
  have hmoved := (inProgress_eraseIdx hp).append_left w.pushed
  rw [List.append_assoc]
  exact hl.pushed.trans hmoved

variable [JsonText]

/-- An accept that has stored itself will leave what `Proceed` leaves. -/
theorem settle_accepts {w : World} {h : Nat} {c : Completion} (hacc : w.accepts h c = true)
    (ps : List PushCall) : settle ⟨w.acceptStore h, ps, .stored h⟩ = w.runCQ h c := by
  have hproceed : c.ok = true → (∃ s, w.handler h = some s ∧ s.state = .accepting) →
      w.proceed h c.ok = ((w.acceptStore h).flushPending h).modify h (·.startReading) := by
    rintro hok ⟨s, hs, hst⟩
    simp only [World.proceed, hs, hst, hok, Bool.not_true, Bool.false_eq_true, if_false]
  have hstate : (w.handler h).any (fun s => decide (s.state = .accepting)) = true →
      ∃ s, w.handler h = some s ∧ s.state = .accepting := by
    intro hany
    cases hs : w.handler h with
    | none => rw [hs] at hany; exact absurd hany (by simp)
    | some s => rw [hs] at hany; exact ⟨s, rfl, by simpa using hany⟩
  cases c with
  | write cmd ok => exact absurd hacc (by simp [World.accepts])
  | request ok =>
      obtain ⟨hok, hany⟩ := Bool.and_eq_true_iff.mp hacc
      exact (hproceed hok (hstate hany)).symm
  | read ev =>
      obtain ⟨hok, hany⟩ := Bool.and_eq_true_iff.mp hacc
      exact (hproceed hok (hstate hany)).symm
  | finish ok =>
      obtain ⟨hok, hany⟩ := Bool.and_eq_true_iff.mp hacc
      exact (hproceed hok (hstate hany)).symm

/-! ## Steps -/

/-- A push is a step of the handlers as long as no fault has occurred. -/
theorem world_push {w : World} (hf : w.fault = false) (cmd : GatewayCommand) :
    World.machine.run w [.push cmd] = some (w.pushCommand cmd) := by
  simp [World.machine, World.step, hf]

section Steps

variable {t : Threads} {w : World} (hl : Linearizes t w)
include hl

/-- A call that has loaded null appends while `active_` is still null. -/
theorem Linearizes.append (hf : t.world.fault = false) {i : Nat} {p : PushCall}
    (hp : t.pushing[i]? = some p) (hcq : t.cq = .next) (hactive : t.world.active = none) :
    ∃ bs w', World.machine.run w bs = some w' ∧ Linearizes
      { t with world := t.world.pushPending p.cmd, pushing := t.pushing.eraseIdx i } w' := by
  have hw := hl.world hcq
  have hwf : w.fault = false := by rw [hw] at hf; exact hf
  have hwa : w.active = none := by rw [hw] at hactive; exact hactive
  refine ⟨[.push p.cmd], _, world_push hwf p.cmd, ?_⟩
  rw [pushCommand_none hwa]
  refine ⟨(settle_next (by exact hcq)).trans ?_, hl.taken hp⟩
  show t.world.pushPending p.cmd = _
  rw [hw]
  rfl

/-- A call that has loaded a handler enqueues while `active_` is still that handler. -/
theorem Linearizes.enqueue (hf : t.world.fault = false) {i h : Nat} {p : PushCall}
    (hp : t.pushing[i]? = some p) (hcq : t.cq = .next) (hactive : t.world.active = some h) :
    ∃ bs w', World.machine.run w bs = some w' ∧ Linearizes
      { t with world := t.world.enqueue h p.cmd, pushing := t.pushing.eraseIdx i } w' := by
  have hw := hl.world hcq
  have hwf : w.fault = false := by rw [hw] at hf; exact hf
  have hwa : w.active = some h := by rw [hw] at hactive; exact hactive
  have hpush : w.pushCommand p.cmd
      = { w.enqueue h p.cmd with pushed := w.pushed ++ [p.cmd] } := by
    rw [pushCommand_some hwa, pushed_enqueue]
  refine ⟨[.push p.cmd], _, world_push hwf p.cmd, ?_⟩
  rw [hpush]
  refine ⟨(settle_next (by exact hcq)).trans ?_, ?_⟩
  · show t.world.enqueue h p.cmd
      = { w.enqueue h p.cmd with pushed := (t.world.enqueue h p.cmd).pushed }
    rw [enqueue_pushed, ← pushed_enqueue, ← hw]
  · show (t.world.enqueue h p.cmd).pushed.Perm _
    rw [enqueue_pushed]
    exact hl.taken hp

/-- A completion is a whole step, where an accept is under way as well. -/
theorem Linearizes.complete (hf : t.world.fault = false) {h : Nat} {c : Completion} {w₁ : World}
    (hcq : t.cq = .next) (hw₁ : t.world.take h c = some w₁) :
    ∃ bs w', World.machine.run w bs = some w' ∧ Linearizes (t.dispatch w₁ h c) w' := by
  have hw := hl.world hcq
  have hback : w = { t.world with pushed := w.pushed } := by rw [hw]
  have hwf : w.fault = false := by rw [hw] at hf; exact hf
  have htake : w.take h c = some { w₁ with pushed := w.pushed } := by
    rw [hback, pushed_take, hw₁]
    rfl
  have hstep : World.machine.run w [.complete h c]
      = some { w₁.runCQ h c with pushed := w.pushed } := by
    simp [World.machine, World.step, hwf, htake, pushed_runCQ]
  have hpushed : w₁.pushed = t.world.pushed := by
    obtain ⟨k, k₁, _, _, rfl⟩ := take_conn hw₁
    rfl
  have hran : (w₁.runCQ h c).pushed = t.world.pushed := by
    rw [pushed_runCQ w₁ w₁.pushed h c]
    exact hpushed
  refine ⟨[.complete h c], _, hstep, ?_⟩
  unfold Threads.dispatch
  split
  · rename_i hacc
    refine ⟨?_, ?_⟩
    · rw [settle_accepts hacc]
      show w₁.runCQ h c = { w₁.runCQ h c with pushed := w₁.pushed }
      rw [hpushed, ← hran]
    · show w₁.pushed.Perm _
      rw [hpushed]
      exact hl.pushed
  · refine ⟨(settle_next (by exact hcq)).trans rfl, ?_⟩
    show (w₁.runCQ h c).pushed.Perm _
    rw [hran]
    exact hl.pushed

omit [JsonText] in
/-- A step within the accept changes nothing of what the accept will leave. -/
theorem Linearizes.within {t' : Threads} (hsettled : settle t' = settle t)
    (hpushed : t'.world.pushed = t.world.pushed) (hsame : t'.pushing = t.pushing) :
    Linearizes t' w where
  settled := by rw [hsettled, hl.settled, hpushed]
  pushed := by rw [hpushed, inProgress, hsame]; exact hl.pushed

end Steps

/-- **Every step of the two threads is none of the handlers, or one.** -/
theorem linearizes_step {t t' : Threads} {a : Threads.Action} {w : World}
    (hl : Linearizes t w) (hok : InPlace t a) (hs : t.step a = some t') :
    ∃ bs w', World.machine.run w bs = some w' ∧ Linearizes t' w' := by
  unfold Threads.step at hs
  split at hs
  · exact absurd hs (by simp)
  rename_i hfault
  have hf : t.world.fault = false := by simpa using hfault
  cases a with
  | load cmd =>
      obtain rfl := Option.some.inj hs
      refine ⟨[], w, rfl, ?_, ?_⟩
      · rw [settle_load, hl.settled]
        rfl
      · have hmore : inProgress (t.load cmd) = inProgress t ++ [cmd] := by
          simp [inProgress, Threads.load]
        rw [hmore, ← List.append_assoc]
        exact hl.pushed.append_right [cmd]
  | append i =>
      obtain ⟨p, hp, hs⟩ := Option.bind_eq_some_iff.mp hs
      split at hs
      case isFalse => exact absurd hs (by simp)
      rename_i hload
      obtain rfl := Option.some.inj hs
      exact hl.append hf hp hok.1 ((hok.2 p hp).symm.trans hload.1)
  | enqueue i =>
      obtain ⟨p, hp, hs⟩ := Option.bind_eq_some_iff.mp hs
      obtain ⟨h, hload, rfl⟩ := Option.map_eq_some_iff.mp hs
      exact hl.enqueue hf hp hok.1 ((hok.2 p hp).symm.trans hload)
  | complete h c =>
      simp only at hs
      split at hs
      case isFalse => exact absurd hs (by simp)
      rename_i hcq
      obtain ⟨w₁, hw₁, rfl⟩ := Option.map_eq_some_iff.mp hs
      exact hl.complete hf hcq hw₁
  | lock =>
      simp only at hs
      split at hs
      case h_2 => exact absurd hs (by simp)
      rename_i h hcq
      obtain rfl := Option.some.inj hs
      refine ⟨[], w, rfl, hl.within ?_ rfl rfl⟩
      rw [settle_accepting (h := h) rfl, settle_accepting (h := h) (by rw [hcq]; rfl)]
  | flushOne =>
      simp only at hs
      split at hs
      case h_2 => exact absurd hs (by simp)
      rename_i h cmd rest hcq hpending
      obtain rfl := Option.some.inj hs
      have haccepting : t.cq.accepting = some h := by rw [hcq]; rfl
      -- one round of the loop
      have hround : t.world.flushPending h
          = World.flushPending { t.world.enqueue h cmd with pendingCommands := rest } h := by
        rw [World.flushPending, hpending, World.drainTo, World.flushPending]
      refine ⟨[], w, rfl, hl.within ?_ (enqueue_pushed t.world h cmd) rfl⟩
      rw [settle_accepting haccepting, hround]
      exact settle_accepting (by exact haccepting)
  | unlock =>
      simp only at hs
      split at hs
      case h_2 => exact absurd hs (by simp)
      rename_i h hcq hpending
      obtain rfl := Option.some.inj hs
      -- the end of the loop
      have hround : t.world.flushPending h = t.world := by
        rw [World.flushPending, hpending, World.drainTo]
      refine ⟨[], w, rfl, hl.within ?_ rfl rfl⟩
      rw [settle_next rfl, settle_accepting (h := h) (by rw [hcq]; rfl), hround]

/--
**Pushes that take effect in place make the two threads sequential.** In every run
in which each `push_command` finds, in its second step, `active_` as it has loaded
it and no accept under way, the handlers are always where some run of whole calls
and whole `Proceed`s leads, once the accept under way has ended; and the commands
of that run are those loaded, but for the calls in progress.
-/
theorem threads_linearizable {t : Threads} (h : Threads.machine.ReachableWhen InPlace t) :
    ∃ w, World.machine.Reachable w
      ∧ settle t = { w with pushed := t.world.pushed }
      ∧ t.world.pushed.Perm (w.pushed ++ inProgress t) := by
  have hsim : ∃ w, World.machine.Reachable w ∧ Linearizes t w := by
    refine h.simulate (R := Linearizes) ⟨rfl, List.Perm.refl _⟩ ?_
    intro t a t' w _ hl hok hs
    exact linearizes_step hl hok hs
  obtain ⟨w, hw, hl⟩ := hsim
  exact ⟨w, hw, hl.settled, hl.pushed⟩

omit [JsonText] in
/-- Two calls that overlap each other and a read, and an accept under way. -/
theorem threads_linearizable_overlap :
    ∃ (_ : JsonText) (t : Threads), Threads.machine.ReachableWhen InPlace t
      ∧ t.world.accepted = [0, 1] ∧ t.cq = .stored 1
      ∧ ∃ w, World.machine.Reachable w ∧ settle t = { w with pushed := t.world.pushed } := by
  let _ : JsonText := ⟨fun _ => ""⟩
  obtain ⟨t, ht, hp⟩ := Machine.exists_reachableWhen_of_run (M := Threads.machine) (Q := InPlace)
    (l := [.complete 0 (.request true), .lock, .unlock, .load (.orderUpdateStatus ⟨"V1"⟩),
      .load (.orderUpdateStatus ⟨"V2"⟩), .complete 0 (.read (some .notSet)), .enqueue 1,
      .enqueue 0, .complete 1 (.request true)])
    (p := fun t => decide (t.world.accepted = [0, 1] ∧ t.cq = .stored 1)) (by decide)
  obtain ⟨hacc, hcq⟩ := of_decide_eq_true hp
  obtain ⟨w, hw, hsettled, _⟩ := threads_linearizable ht
  exact ⟨_, t, ht, hacc, hcq, w, hw, hsettled⟩

end CloudGateway.Proof
