import CloudGateway.Proof.Threads

/-!
# The hand-over between the threads

`push_command` decides where a command goes by one load of `active_` and acts on
it later, and an accept publishes its handler before it drains
`pending_commands_`. Two things can go wrong in between: a command is appended to
`pending_commands_` after the drain and stays there (`NoneStranded`), or the
handler is deleted before the command reaches it (`NoDanglingPush`). For each,
this file says exactly which steps bring it about. The third, that a command
overtakes older ones, is the subject of `PushOrder`.
-/

namespace CloudGateway.Proof

open Services Proto Reactive

/-! ## Stranded commands -/

/-- With no `Proceed` in progress, commands are pending only while nobody is connected. -/
def NoneStranded (t : Threads) : Prop :=
  t.cq = .next → t.world.active ≠ none → t.world.pendingCommands = []

instance (t : Threads) : Decidable (NoneStranded t) :=
  inferInstanceAs (Decidable (t.cq = .next → t.world.active ≠ none → t.world.pendingCommands = []))

/--
The appends that some flush will find: while `active_` is null, or between an
accept's store of `active_` and its flush.
-/
def AppendsInTime (t : Threads) : Threads.Action → Prop
  | .append _ => t.world.active = none ∨ t.cq ≠ .next
  | _ => True

instance (t : Threads) : (a : Threads.Action) → Decidable (AppendsInTime t a)
  | .append _ => inferInstanceAs (Decidable (t.world.active = none ∨ t.cq ≠ .next))
  | .load _ | .enqueue _ | .complete _ _ | .lock | .flushOne | .unlock => isTrue trivial

section Stranded

variable [JsonText]

/-- **One step strands nothing exactly when it does not append too late.** -/
theorem noneStranded_step {t t' : Threads} {a : Threads.Action}
    (hr : Threads.machine.Reachable t) (hn : NoneStranded t) (hs : t.step a = some t') :
    NoneStranded t' ↔ AppendsInTime t a := by
  cases threads_effect_reachable hr hs with
  | load => exact ⟨fun _ => trivial, fun _ => hn⟩
  | enqueue hp hl hk hks => exact ⟨fun _ => trivial, fun _ => hn⟩
  | dangling hp hl hd => exact ⟨fun _ => trivial, fun _ => hn⟩
  | append hp hl hcq =>
      -- the appended command is pending now, whatever was before
      simp only [NoneStranded, AppendsInTime, List.append_eq_nil_iff, List.cons_ne_self, and_false,
        imp_false, not_not]
      tauto
  | stored hcq hk hks hst =>
      exact ⟨fun _ => trivial, fun _ h => absurd h (by simp)⟩
  | lock hcq => exact ⟨fun _ => trivial, fun _ h => absurd h (by simp)⟩
  | flushOne hcq hp hk hks => exact ⟨fun _ => trivial, fun _ h => absurd h (by simp [hcq])⟩
  | unlock hcq hp hk hks => exact ⟨fun _ => trivial, fun _ _ _ => hp⟩
  | moved hcq hc hm =>
      refine ⟨fun _ => trivial, fun _ _ ha => hn hcq (fun hnull => ha ?_)⟩
      simp [hnull]

/--
**When no command is stranded.** In a run in which every append comes in time, a
command is pending only while nobody is connected or an accept is under way; and
the first append that comes too late strands its command.
-/
theorem none_stranded {t : Threads} (h : Threads.machine.ReachableWhen AppendsInTime t) :
    NoneStranded t
      ∧ ∀ a t', t.step a = some t' → (NoneStranded t' ↔ AppendsInTime t a) := by
  have hn : NoneStranded t := by
    refine h.invariant (P := NoneStranded) (fun _ ha => absurd rfl ha) ?_
    intro t a t' hr hn hok hs
    exact (noneStranded_step hr.reachable hn hs).mpr hok
  exact ⟨hn, fun a t' hs => noneStranded_step h.reachable hn hs⟩

omit [JsonText] in
/-- A command appended between an accept's store and its flush. -/
theorem none_stranded_accept :
    ∃ (_ : JsonText) (t : Threads), Threads.machine.ReachableWhen AppendsInTime t
      ∧ t.world.pushed.length = 1 ∧ t.world.active = some 0 ∧ t.world.pendingCommands = [] := by
  let _ : JsonText := ⟨fun _ => ""⟩
  obtain ⟨t, hr, hp⟩ := Machine.exists_reachableWhen_of_run (M := Threads.machine)
    (Q := AppendsInTime)
    (l := [.load (.orderUpdateStatus ⟨"V1"⟩), .complete 0 (.request true), .append 0, .lock,
      .flushOne, .unlock])
    (p := fun t => decide (t.world.pushed.length = 1 ∧ t.world.active = some 0 ∧ t.cq = .next))
    (by decide)
  obtain ⟨hlen, ha, hcq⟩ := of_decide_eq_true hp
  exact ⟨_, t, hr, hlen, ha, (none_stranded hr).1 hcq (by simp [ha])⟩

omit [JsonText] in
/-- `push_command` sees nobody connected, a whole accept goes by, and it appends. -/
theorem not_noneStranded :
    ¬ ∀ (_ : JsonText) (t : Threads), Threads.machine.Reachable t → t.pushing = [] →
      NoneStranded t := by
  intro h
  let _ : JsonText := ⟨fun _ => ""⟩
  obtain ⟨t, hr, hp⟩ := Machine.exists_reachable_of_run (M := Threads.machine)
    (l := [.load (.orderUpdateStatus ⟨"V1"⟩), .complete 0 (.request true), .lock, .unlock,
      .append 0])
    (p := fun t => decide (t.pushing = [] ∧ ¬ NoneStranded t)) (by decide)
  obtain ⟨hnone, hbad⟩ := of_decide_eq_true hp
  exact hbad (h _ t hr hnone)

end Stranded

/-! ## Dangling handlers -/

/-- Every handler that a `push_command` in progress has loaded still exists. -/
def NoDanglingPush (t : Threads) : Prop :=
  ∀ p ∈ t.pushing, ∀ h ∈ p.loaded, (t.world.handler h).isSome

instance (t : Threads) : Decidable (NoDanglingPush t) :=
  inferInstanceAs (Decidable (∀ p ∈ t.pushing, ∀ h ∈ p.loaded, (t.world.handler h).isSome))

/-- The steps that delete no handler a `push_command` in progress has loaded. -/
def SparesLoaded (t : Threads) : Threads.Action → Prop
  | .complete h (.finish _) => ∀ p ∈ t.pushing, p.loaded ≠ some h
  | _ => True

instance (t : Threads) : (a : Threads.Action) → Decidable (SparesLoaded t a)
  | .complete h (.finish _) => inferInstanceAs (Decidable (∀ p ∈ t.pushing, p.loaded ≠ some h))
  | .complete _ (.request _) | .complete _ (.read _) | .complete _ (.write _ _) => isTrue trivial
  | .load _ | .append _ | .enqueue _ | .lock | .flushOne | .unlock => isTrue trivial

/-- A live handler past its registration: only its `Finish` can delete it. -/
def Engaged (k : Connection) : Prop := k.handler.isSome = true ∧ .request ∉ k.ownOps

/-- The handler at an address is engaged. -/
def EngagedAt (ks : List Connection) (h : Nat) : Prop := ∃ k, ks[h]? = some k ∧ Engaged k

/-- `active_` and the pointers loaded from it designate engaged handlers. -/
structure PointersEngaged (t : Threads) : Prop where
  active : ∀ h, t.world.active = some h → EngagedAt t.world.conns h
  loaded : ∀ p ∈ t.pushing, ∀ h, p.loaded = some h → EngagedAt t.world.conns h

theorem EngagedAt.set {ks : List Connection} {i j : Nat} {k k' : Connection}
    (h : EngagedAt ks j) (hk : ks[i]? = some k) (hk' : i = j → Engaged k → Engaged k') :
    EngagedAt (ks.set i k') j := by
  obtain ⟨x, hx, he⟩ := h
  by_cases hij : i = j
  · subst hij
    obtain rfl := Option.some.inj (hk.symm.trans hx)
    exact ⟨k', set_at hk k', hk' rfl he⟩
  · exact ⟨x, by rw [List.getElem?_set_ne hij]; exact hx, he⟩

theorem EngagedAt.append {ks ls : List Connection} {j : Nat} (h : EngagedAt ks j) :
    EngagedAt (ks ++ ls) j := by
  obtain ⟨x, hx, he⟩ := h
  exact ⟨x, by rw [List.getElem?_append_left (address_lt hx)]; exact hx, he⟩

theorem EngagedAt.live {w : World} {h : Nat} (he : EngagedAt w.conns h) :
    (w.handler h).isSome = true := by
  obtain ⟨k, hk, hl, _⟩ := he
  rw [handler_of hk]; exact hl

theorem engaged_enqueue {k : Connection} {s : VehicleStreamHandler} (hs : k.handler = some s)
    (cmd : GatewayCommand) (he : Engaged k) : Engaged (k.enqueue cmd) := by
  rw [enqueue_live hs]
  exact ⟨by simp, by simpa using he.2⟩

variable [JsonText]

/-- Only the completion of `Finish` ends an engagement. -/
theorem engaged_step {w : World} {i : Nat} {c : Completion} {k k' : Connection} (hwf : Wf k)
    (hm : Moves w i c k k') (hc : ∀ ok, c ≠ .finish ok) (he : Engaged k) : Engaged k' := by
  obtain ⟨hl, hreq⟩ := he
  cases step_effect hwf hm.2 with
  | writeDone hs hw => exact ⟨by simp, by simpa using hreq⟩
  | stray hs hw => rw [hs] at hl; exact absurd hl (by simp)
  | refused hs hst => exact absurd (by rw [hwf.own, hs]; simp [ownOpsOf, hst, waitsFor]) hreq
  | accepted hs hst hst' hq hw => exact ⟨rfl, by simp⟩
  | readOk hs hst => exact ⟨rfl, by simp⟩
  | readFailed hs hst => exact ⟨rfl, by simp⟩
  | finished hs hst => exact absurd rfl (hc _)

/-- A step that spares the loaded handlers keeps the pointers good. -/
theorem pointersEngaged_step {t t' : Threads} {a : Threads.Action}
    (hr : Threads.machine.Reachable t) (hp : PointersEngaged t) (hok : SparesLoaded t a)
    (hs : t.step a = some t') : PointersEngaged t' := by
  have hwf := threadsWf_reachable hr
  cases threads_step_effect hwf hs with
  | load =>
      refine ⟨hp.active, ?_⟩
      intro p hmem h hl
      rcases List.mem_append.mp hmem with hmem | hmem
      · exact hp.loaded p hmem h hl
      · rw [List.mem_singleton.mp hmem] at hl; exact hp.active h hl
  | append hi hl hcq =>
      exact ⟨hp.active, fun p hmem => hp.loaded p (List.mem_of_mem_eraseIdx hmem)⟩
  | dangling hi hl hd =>
      exact ⟨hp.active, fun p hmem => hp.loaded p (List.mem_of_mem_eraseIdx hmem)⟩
  | enqueue hi hl hk hks =>
      exact ⟨fun h ha => (hp.active h ha).set hk (fun _ => engaged_enqueue hks _),
        fun p hmem h hl => (hp.loaded p (List.mem_of_mem_eraseIdx hmem) h hl).set hk
          (fun _ => engaged_enqueue hks _)⟩
  | lock hcq => exact ⟨hp.active, hp.loaded⟩
  | flushOne hcq hpend hk hks =>
      exact ⟨fun h ha => (hp.active h ha).set hk (fun _ => engaged_enqueue hks _),
        fun p hmem h hl => (hp.loaded p hmem h hl).set hk (fun _ => engaged_enqueue hks _)⟩
  | @unlock i k s hcq hpend hk hks =>
      have hread : Engaged k → Engaged k.startReading := by
        intro he
        simpa [Engaged] using he
      exact ⟨fun h ha => (hp.active h ha).set hk (fun _ => hread),
        fun p hmem h hl => (hp.loaded p hmem h hl).set hk (fun _ => hread)⟩
  | @stored i k s hcq hk hks hst =>
      have hreg : Engaged (registered k) := ⟨by simp [registered, hks], by simp [registered]⟩
      refine ⟨?_, ?_⟩
      · intro h ha
        obtain rfl : i = h := Option.some.inj ha
        exact EngagedAt.append ⟨_, set_at hk _, hreg⟩
      · intro p hmem h hl
        exact ((hp.loaded p hmem h hl).set hk (fun _ _ => hreg)).append
  | @moved i c k k' b hcq hc hm =>
      have hkwf := hwf.connsWf hcq k (List.mem_of_getElem? hm.1)
      refine ⟨?_, ?_⟩
      · -- a handler whose stream is over is no longer designated
        intro h ha
        simp only at ha
        split at ha
        · exact absurd ha (by simp)
        · rename_i hends
          refine (hp.active h ha).set hm.1 (fun hij => engaged_step hkwf hm ?_)
          rintro ok rfl
          exact hends ⟨rfl, hij ▸ ha⟩
      · intro p hmem h hl
        refine (hp.loaded p hmem h hl).set hm.1 (fun hij => engaged_step hkwf hm ?_)
        rintro ok rfl
        exact hok p hmem (hij ▸ hl)

/-- **One step leaves no dangling pointer exactly when it spares the loaded handlers.** -/
theorem noDanglingPush_step {t t' : Threads} {a : Threads.Action}
    (hr : Threads.machine.Reachable t) (hp : PointersEngaged t) (hs : t.step a = some t') :
    NoDanglingPush t' ↔ SparesLoaded t a := by
  refine ⟨?_, ?_⟩
  case refine_2 =>
    intro hok p hmem h hl
    exact ((pointersEngaged_step hr hp hok hs).loaded p hmem h hl).live
  intro hn
  have hwf := threadsWf_reachable hr
  cases threads_step_effect hwf hs with
  | @moved i c k k' b hcq hc hm =>
      unfold SparesLoaded
      split
      · rename_i h ok heq
        obtain ⟨rfl, rfl⟩ := Threads.Action.complete.inj heq
        intro p hmem hl
        have hlive := hn p hmem i hl
        -- the completion of `Finish` has deleted the handler
        rw [handler_of (set_at hm.1 k')] at hlive
        cases step_effect (hwf.connsWf hcq k (List.mem_of_getElem? hm.1)) hm.2 with
        | finished hks hst => exact absurd hlive (by simp)
      · trivial
  | _ => trivial

/--
**When no push acts on a deleted handler.** In a run in which no `Finish`
completes for a handler that a `push_command` in progress has loaded, every
loaded handler still exists; and the first such completion leaves a dangling
pointer.
-/
theorem no_dangling_push {t : Threads} (h : Threads.machine.ReachableWhen SparesLoaded t) :
    NoDanglingPush t
      ∧ ∀ a t', t.step a = some t' → (NoDanglingPush t' ↔ SparesLoaded t a) := by
  have hp : PointersEngaged t := by
    refine h.invariant (P := PointersEngaged) ⟨?_, ?_⟩ ?_
    · intro h ha; exact absurd ha (by simp [Threads.machine, Threads.atRest, World.start])
    · intro p hmem; exact absurd hmem (by simp [Threads.machine, Threads.atRest])
    · intro t a t' hr hp hok hs
      exact pointersEngaged_step hr.reachable hp hok hs
  exact ⟨fun p hmem h hl => (hp.loaded p hmem h hl).live,
    fun a t' hs => noDanglingPush_step h.reachable hp hs⟩

omit [JsonText] in
/-- A push that has loaded the handler when the vehicle leaves, before `Finish` completes. -/
theorem no_dangling_push_leaving :
    ∃ (_ : JsonText) (t : Threads), Threads.machine.ReachableWhen SparesLoaded t
      ∧ t.pushing.map (·.loaded) = [some 0] ∧ t.world.active = none ∧ NoDanglingPush t := by
  let _ : JsonText := ⟨fun _ => ""⟩
  obtain ⟨t, hr, hp⟩ := Machine.exists_reachableWhen_of_run (M := Threads.machine)
    (Q := SparesLoaded)
    (l := [.complete 0 (.request true), .lock, .unlock, .load (.orderUpdateStatus ⟨"V1"⟩),
      .complete 0 (.read none)])
    (p := fun t => decide (t.pushing.map (·.loaded) = [some 0] ∧ t.world.active = none))
    (by decide)
  obtain ⟨hloaded, ha⟩ := of_decide_eq_true hp
  exact ⟨_, t, hr, hloaded, ha, (no_dangling_push hr).1⟩

omit [JsonText] in
/-- `push_command` loads the handler, and both completions that end the stream come first. -/
theorem not_noDanglingPush :
    ¬ ∀ (_ : JsonText) (t : Threads), Threads.machine.Reachable t → NoDanglingPush t := by
  intro h
  let _ : JsonText := ⟨fun _ => ""⟩
  obtain ⟨t, hr, hp⟩ := Machine.exists_reachable_of_run (M := Threads.machine)
    (l := [.complete 0 (.request true), .lock, .unlock, .load (.orderUpdateStatus ⟨"V1"⟩),
      .complete 0 (.read none), .complete 0 (.finish true)])
    (p := fun t => decide (¬ NoDanglingPush t)) (by decide)
  exact of_decide_eq_true hp (h _ t hr)

end CloudGateway.Proof
