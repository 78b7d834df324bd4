import CloudGateway.Proof.World

/-!
# Connection bookkeeping

Which handlers are waiting for a connection, and which one `active_` designates.

The completions a connection has received determine how far its handler has got
(`Phase`). Over a whole world two facts follow: of all the handlers, one is
accepting or one has been refused, never both and never two; and `active_` is the
last handler accepted, until its own `Read` fails.
-/

namespace CloudGateway.Proof

open Services Proto Reactive

/-! ## How far one handler has got -/

/-- A completion has been delivered. -/
def received (k : Connection) (c : Completion) : Bool := decide (c ∈ k.completions)

/-- The state of the handler, while it exists. -/
def stateOf (k : Connection) : Option StreamState := k.handler.map (·.state)

/-- The handler waits for a connection. -/
def isAccepting (k : Connection) : Bool := decide (stateOf k = some .accepting)

/-- The completions received so far determine the state. -/
def Phase (k : Connection) : Prop :=
  match stateOf k with
  | some .create => False
  | some .accepting =>
      received k (.request true) = false ∧ received k (.request false) = false
        ∧ received k (.read none) = false
  | some .reading =>
      received k (.request true) = true ∧ received k (.request false) = false
        ∧ received k (.read none) = false
  | some .finish =>
      received k (.request true) = true ∧ received k (.request false) = false
        ∧ received k (.read none) = true
  | none =>
      received k (.request true) = !received k (.request false)
        ∧ received k (.read none) = !received k (.request false)

/-- What a step makes of the state. -/
def nextState (st : Option StreamState) : Connection.Action → Option StreamState
  | .enqueue _ => st
  | .complete (.request ok) _ => if ok then some .reading else none
  | .complete (.read ev) _ => if ev.isSome then some .reading else some .finish
  | .complete (.finish _) _ => none
  | .complete (.write _ _) _ => st

variable [JsonText]

theorem step_completions {k k' : Connection} {c : Completion} {flushed : List GatewayCommand}
    (hwf : Wf k) (h : k.step (.complete c flushed) = some k') :
    k'.completions = k.completions ++ [c] := by
  cases step_effect hwf h with
  | writeDone hs hw => simp
  | _ => rfl

theorem step_stateOf {k k' : Connection} {a : Connection.Action} (hwf : Wf k)
    (h : k.step a = some k') : stateOf k' = nextState (stateOf k) a := by
  cases step_effect hwf h with
  | enqueue hs => simp [stateOf, nextState, hs]
  | writeDone hs hw => simp [stateOf, nextState, hs]
  | accepted hs hst hst' hq hw => simp [stateOf, nextState, hst']
  | readOk hs hst => simp [stateOf, nextState, hst]
  | _ => rfl

theorem step_received {k k' : Connection} {c : Completion} {flushed : List GatewayCommand}
    (hwf : Wf k) (h : k.step (.complete c flushed) = some k') (c₀ : Completion) :
    received k' c₀ = (received k c₀ || decide (c₀ = c)) := by
  simp [received, step_completions hwf h]

omit [JsonText] in
theorem phase_construct : Phase .construct := by
  simp [Phase, stateOf, received]

theorem phase_step {k k' : Connection} {a : Connection.Action} (hwf : Wf k) (hp : Phase k)
    (h : k.step a = some k') : Phase k' := by
  have hst' := step_stateOf hwf h
  cases a with
  | enqueue cmd =>
      have hc : k'.completions = k.completions := by
        cases step_effect hwf h with
        | enqueue hs => simp
      simpa only [Phase, hst', nextState, received, hc] using hp
  | complete c flushed =>
      have hr := step_received hwf h
      -- the state before the step fixes what has been received before it
      cases step_effect hwf h with
      | writeDone hs hw => simpa [Phase, hst', nextState, hr] using hp
      | stray hs hw => simpa [Phase, hst', nextState, hr] using hp
      | refused hs hst => simp_all [Phase, stateOf, nextState]
      | accepted hs hst _ _ _ => simp_all [Phase, stateOf, nextState]
      | readOk hs hst => simp_all [Phase, stateOf, nextState]
      | readFailed hs hst => simp_all [Phase, stateOf, nextState]
      | finished hs hst => simp_all [Phase, stateOf, nextState]

theorem phase_reachable {k : Connection} (h : Connection.machine.Reachable k) : Phase k :=
  h.invariant (P := Phase) phase_construct
    (fun _ _ _ hr hp _ hs => phase_step (wf_reachable hr) hp hs)

/-! ## What a step does to the counts -/

/--
A handler stops accepting by being accepted or by being refused, and starts
doing so only in its constructor.
-/
theorem step_waiting {k k' : Connection} {c : Completion} {flushed : List GatewayCommand}
    (hwf : Wf k) (hp : Phase k) (h : k.step (.complete c flushed) = some k') :
    (isAccepting k').toNat + (received k' (.request false)).toNat
        + (decide (c = .request true)).toNat
      = (isAccepting k).toNat + (received k (.request false)).toNat := by
  have hst' := step_stateOf hwf h
  have hr := step_received hwf h (.request false)
  cases step_effect hwf h with
  | writeDone hs hw => simp [isAccepting, hst', nextState, hr]
  | stray hs hw => simp [isAccepting, hst', nextState, hr]
  | refused hs hst => simp_all [Phase, isAccepting, stateOf, nextState]
  | accepted hs hst _ _ _ => simp_all [Phase, isAccepting, stateOf, nextState]
  | readOk hs hst => simp_all [Phase, isAccepting, stateOf, nextState]
  | readFailed hs hst => simp_all [Phase, isAccepting, stateOf, nextState]
  | finished hs hst => simp_all [Phase, isAccepting, stateOf, nextState]

omit [JsonText] in
/-- Enqueueing changes neither the state nor what has been received. -/
theorem enqueue_keeps {k : Connection} {s : VehicleStreamHandler} (hs : k.handler = some s)
    (cmd : GatewayCommand) :
    stateOf (k.enqueue cmd) = stateOf k ∧ (k.enqueue cmd).completions = k.completions := by
  rw [enqueue_live hs]
  simp [stateOf, hs]

/-! ## The bookkeeping invariant -/

/-- The `Read` of the handler at an address has failed. -/
def readFailedAt (ks : List Connection) (h : Nat) : Bool :=
  (ks[h]?).any (fun k => received k (.read none))

/-- How many handlers wait for a connection, and how many were refused one. -/
def acceptingCount (ks : List Connection) : Nat := ks.countP isAccepting

def refusedCount (ks : List Connection) : Nat := ks.countP (fun k => received k (.request false))

/-- Who is accepting, who has been accepted, and who is active. -/
structure Bookkeeping (w : World) : Prop where
  /-- One handler accepts, until one has been refused. -/
  accepting : acceptingCount w.conns + refusedCount w.conns = 1
  /-- Handlers stored in `active_` have been accepted. -/
  known : ∀ h ∈ w.accepted, ∃ k, w.conns[h]? = some k ∧ received k (.request true) = true
  /-- `active_` is the last one, until its `Read` fails. -/
  active : w.active = w.accepted.getLast?.filter (fun h => !readFailedAt w.conns h)

omit [JsonText] in
theorem bookkeeping_start : Bookkeeping .start where
  accepting := rfl
  known := by intro h hh; simp [World.start] at hh
  active := rfl

omit [JsonText] in
theorem readFailedAt_set {ks : List Connection} {i h : Nat} {k k' : Connection}
    (hk : ks[i]? = some k) :
    readFailedAt (ks.set i k') h
      = if h = i then received k' (.read none) else readFailedAt ks h := by
  unfold readFailedAt
  by_cases hi : h = i
  · subst hi; simp [set_at hk]
  · rw [List.getElem?_set_ne (Ne.symm hi), if_neg hi]

omit [JsonText] in
theorem readFailedAt_append (ks : List Connection) (h : Nat) :
    readFailedAt (ks ++ [.construct]) h = readFailedAt ks h := by
  unfold readFailedAt
  rcases at_append ks .construct h with heq | ⟨hnone, hnew⟩
  · rw [heq]
  · rw [hnone, hnew]; simp [received]

section Move

variable {w : World} {i : Nat} {k k' : Connection} (hb : Bookkeeping w)
  (hk : w.conns[i]? = some k)
include hb hk

omit [JsonText] in
variable (k') in
theorem counts_set :
    acceptingCount (w.conns.set i k') + refusedCount (w.conns.set i k')
        + ((isAccepting k).toNat + (received k (.request false)).toNat)
      = 1 + ((isAccepting k').toNat + (received k' (.request false)).toNat) := by
  have h1 := countP_set_at isAccepting hk k'
  have h2 := countP_set_at (fun k => received k (.request false)) hk k'
  have h3 := hb.accepting
  simp only [acceptingCount, refusedCount] at h1 h2 h3 ⊢
  omega

omit [JsonText] in
theorem known_set (hr : received k (.request true) = true → received k' (.request true) = true) :
    ∀ h ∈ w.accepted, ∃ x, (w.conns.set i k')[h]? = some x ∧ received x (.request true) = true := by
  intro h hh
  obtain ⟨x, hx, hrx⟩ := hb.known h hh
  by_cases hi : i = h
  · subst hi
    rw [hk] at hx
    obtain rfl := Option.some.inj hx
    exact ⟨k', set_at hk k', hr hrx⟩
  · exact ⟨x, by rw [List.getElem?_set_ne hi]; exact hx, hrx⟩

omit [JsonText] in
/-- A step without a failed `Read` leaves `active_` right. -/
theorem active_same (hf : received k' (.read none) = received k (.read none)) :
    w.active = w.accepted.getLast?.filter (fun h => !readFailedAt (w.conns.set i k') h) := by
  have hsame : ∀ h, readFailedAt (w.conns.set i k') h = readFailedAt w.conns h := by
    intro h
    rw [readFailedAt_set hk]
    split
    · rename_i hi; subst hi; simp [readFailedAt, hk, hf]
    · rfl
  simp only [hsame]
  exact hb.active

omit [JsonText] in
/-- The compare-exchange of a handler whose `Read` has failed leaves `active_` right. -/
theorem active_cleared (hf : received k' (.read none) = true) :
    (if w.active = some i then none else w.active)
      = w.accepted.getLast?.filter (fun h => !readFailedAt (w.conns.set i k') h) := by
  rw [hb.active]
  cases w.accepted.getLast? with
  | none => simp
  | some l =>
      by_cases hl : l = i
      · subst hl
        simp only [Option.filter_some, readFailedAt_set hk, hf, if_true]
        split <;> simp_all
      · simp only [Option.filter_some, readFailedAt_set hk, hl, if_false]
        cases readFailedAt w.conns l <;> simp [hl]

end Move

/-- A handler that clears itself from `active_` has failed a `Read`. -/
theorem readFailed_of_endsStream {k k' : Connection} {c : Completion}
    {flushed : List GatewayCommand} (hwf : Wf k) (hp : Phase k)
    (h : k.step (.complete c flushed) = some k') (hends : endsStream c = true) :
    received k' (.read none) = true := by
  rw [step_received hwf h]
  cases step_effect hwf h with
  | readFailed hs hst => simp
  | finished hs hst => simp_all [Phase, stateOf]
  | _ => exact absurd hends (by simp [endsStream])

section Cases

variable {w : World} {i : Nat} {k k' : Connection}

omit [JsonText] in
/-- A command enqueued to one handler leaves the books as they are. -/
theorem Bookkeeping.enqueued {s : VehicleStreamHandler} (hb : Bookkeeping w)
    (hk : w.conns[i]? = some k) (hs : k.handler = some s) (cmd : GatewayCommand) :
    Bookkeeping { w with
      pushed := w.pushed ++ [cmd]
      conns := w.conns.set i (k.enqueue cmd) } := by
  obtain ⟨hst, hc⟩ := enqueue_keeps hs cmd
  have hcounts := counts_set (k.enqueue cmd) hb hk
  simp only [isAccepting, received, hst, hc] at hcounts
  refine ⟨?_, ?_, ?_⟩
  · show acceptingCount (w.conns.set i (k.enqueue cmd))
        + refusedCount (w.conns.set i (k.enqueue cmd)) = 1
    omega
  · exact known_set hb hk (fun hx => by simpa only [received, hc] using hx)
  · exact active_same hb hk (by simp only [received, hc])

/-- So does a completion other than an accept, but for `active_`. -/
theorem Bookkeeping.moved {c : Completion} {b : Bool} (hb : Bookkeeping w) (hwf : Wf k)
    (hp : Phase k) (hm : Moves w i c k k') (hc : c ≠ .request true) :
    Bookkeeping { w with
      conns := w.conns.set i k'
      active := if endsStream c = true ∧ w.active = some i then none else w.active
      fault := b } := by
  have hwaiting := step_waiting hwf hp hm.2
  have hcounts := counts_set k' hb hm.1
  simp only [hc, decide_false, Bool.toNat_false] at hwaiting
  refine ⟨?_, ?_, ?_⟩
  · show acceptingCount (w.conns.set i k') + refusedCount (w.conns.set i k') = 1
    omega
  · refine known_set hb hm.1 (fun hx => ?_)
    rw [step_received hwf hm.2, hx, Bool.true_or]
  · by_cases hends : endsStream c = true
    · simp only [hends, true_and]
      exact active_cleared hb hm.1 (readFailed_of_endsStream hwf hp hm.2 hends)
    · have hread : c ≠ .read none := by
        intro h; rw [h] at hends; exact hends rfl
      simp only [hends, false_and, if_false, Bool.false_eq_true]
      refine active_same hb hm.1 ?_
      rw [step_received hwf hm.2]
      simp [Ne.symm hread]

/-- In an accept one handler stops accepting, its sibling starts, and `active_` is the former. -/
theorem Bookkeeping.accept (hb : Bookkeeping w) (hwf : Wf k) (hp : Phase k)
    (hm : Moves w i (.request true) k k') :
    Bookkeeping { w with
      conns := w.conns.set i k' ++ [.construct]
      active := some i
      pendingCommands := []
      accepted := w.accepted ++ [i] } := by
  have hp' := phase_step hwf hp hm.2
  have hwaiting := step_waiting hwf hp hm.2
  have hcounts := counts_set k' hb hm.1
  have hat := set_at hm.1 k'
  simp only [Phase, step_stateOf hwf hm.2, nextState, if_true] at hp'
  refine ⟨?_, ?_, ?_⟩
  · show acceptingCount (w.conns.set i k' ++ [.construct])
        + refusedCount (w.conns.set i k' ++ [.construct]) = 1
    have hnew : isAccepting .construct = true
        ∧ received .construct (.request false) = false := ⟨rfl, rfl⟩
    simp only [acceptingCount, refusedCount, List.countP_append, List.countP_singleton,
      hnew.1, hnew.2, decide_true, Bool.toNat_true, if_true, Bool.false_eq_true,
      if_false] at hwaiting hcounts ⊢
    omega
  · intro h hh
    rcases List.mem_append.mp hh with hh | hh
    · obtain ⟨x, hx, hrx⟩ := known_set hb hm.1 (fun _ => hp'.1) h hh
      exact ⟨x, by rw [List.getElem?_append_left (address_lt hx)]; exact hx, hrx⟩
    · obtain rfl := List.mem_singleton.mp hh
      exact ⟨k', by rw [List.getElem?_append_left (address_lt hat)]; exact hat, hp'.1⟩
  · simp only [List.getLast?_append, List.getLast?_singleton, Option.some_or,
      Option.filter_some, readFailedAt_append, readFailedAt_set hm.1, if_true, hp'.2.2,
      Bool.not_false]

end Cases

/-- **Every step keeps the books.** -/
theorem bookkeeping_step {w w' : World} {a : World.Action} (hr : World.machine.Reachable w)
    (hb : Bookkeeping w) (h : w.step a = some w') : Bookkeeping w' := by
  have hconn : ∀ {i : Nat} {k : Connection}, w.conns[i]? = some k → Wf k ∧ Phase k := by
    intro i k hk
    have := conns_reachable hr k (List.mem_of_getElem? hk)
    exact ⟨wf_reachable this, phase_reachable this⟩
  have heff := world_effect_reachable hr h
  cases a with
  | push cmd =>
      cases heff with
      | queued ha => exact ⟨hb.accepting, hb.known, hb.active⟩
      | dangling ha hd => exact ⟨hb.accepting, hb.known, hb.active⟩
      | sent ha hk hs => exact hb.enqueued hk hs cmd
  | complete i c =>
      by_cases hc : c = .request true
      · subst hc
        cases heff with
        | accepted hm =>
            obtain ⟨hwf, hp⟩ := hconn hm.1
            exact hb.accept hwf hp hm
      · obtain ⟨k, k', b, hm, rfl⟩ := completion_effect heff hc
        obtain ⟨hwf, hp⟩ := hconn hm.1
        exact hb.moved hwf hp hm hc

theorem bookkeeping_reachable {w : World} (h : World.machine.Reachable w) : Bookkeeping w :=
  h.invariant (P := Bookkeeping) bookkeeping_start
    (fun _ _ _ hr hb _ hs => bookkeeping_step hr hb hs)

/-! ## What `active_` designates -/

/-- The handler at an address is in state `st`. -/
def InState (w : World) (h : Nat) (st : StreamState) : Prop :=
  ∃ k ∈ w.conns[h]?, stateOf k = some st

instance (w : World) (h : Nat) (st : StreamState) : Decidable (InState w h st) :=
  inferInstanceAs (Decidable (∃ k ∈ w.conns[h]?, stateOf k = some st))

omit [JsonText] in
theorem Bookkeeping.active_iff {w : World} (hb : Bookkeeping w) (h : Nat) :
    w.active = some h ↔ w.accepted.getLast? = some h ∧ readFailedAt w.conns h = false := by
  rw [hb.active, Option.filter_eq_some_iff, Bool.not_eq_true']

/-- A handler that was accepted reads until its `Read` fails. -/
theorem reading_of_accepted {w : World} (hr : World.machine.Reachable w) {h : Nat}
    (hacc : h ∈ w.accepted) (hf : readFailedAt w.conns h = false) : InState w h .reading := by
  obtain ⟨k, hk, hka⟩ := (bookkeeping_reachable hr).known h hacc
  have hp := phase_reachable (conns_reachable hr k (List.mem_of_getElem? hk))
  have hkf : received k (.read none) = false := by simpa [readFailedAt, hk] using hf
  refine ⟨k, hk, ?_⟩
  unfold Phase at hp
  split at hp
  · exact hp.elim
  · rw [hp.1] at hka; exact absurd hka (by simp)
  · assumption
  · rw [hp.2.2] at hkf; exact absurd hkf (by simp)
  · rw [hp.2, ← hp.1, hka] at hkf; exact absurd hkf (by simp)

/-- And a handler that is reading has not failed a `Read`. -/
theorem readFailedAt_reading {w : World} (hr : World.machine.Reachable w) {h : Nat}
    (hst : InState w h .reading) : readFailedAt w.conns h = false := by
  obtain ⟨k, hk, hkst⟩ := hst
  have hp := phase_reachable (conns_reachable hr k (List.mem_of_getElem? hk))
  simp only [Phase, hkst] at hp
  simpa [readFailedAt, Option.mem_def.mp hk] using hp.2.2

/-- **`active_` never designates a handler in `FINISH`, or a deleted one.** -/
theorem active_reading {w : World} (hr : World.machine.Reachable w) {h : Nat}
    (ha : w.active = some h) : InState w h .reading := by
  obtain ⟨hl, hf⟩ := ((bookkeeping_reachable hr).active_iff h).mp ha
  exact reading_of_accepted hr (List.mem_of_getLast? hl) hf

/-- So no command is handed to a deleted handler. -/
theorem active_alive {w : World} (hr : World.machine.Reachable w) {h : Nat}
    (ha : w.active = some h) : w.handler h ≠ none := by
  obtain ⟨k, hk, hst⟩ := active_reading hr ha
  intro hd
  rw [handler_of hk] at hd
  simp [stateOf, hd] at hst

/-- A completion of another handler leaves `active_` alone, unless it is an accept. -/
theorem active_kept {w w' : World} (hr : World.machine.Reachable w) {h j : Nat} {c : Completion}
    (ha : w.active = some h) (hj : j ≠ h) (hc : c ≠ .request true)
    (hs : w.step (.complete j c) = some w') : w'.active = some h := by
  obtain ⟨k, k', b, _, rfl⟩ := completion_effect (world_effect_reachable hr hs) hc
  have hne : ¬ w.active = some j := by rw [ha]; simp [Ne.symm hj]
  simp only [hne, and_false, if_false]
  exact ha

/-- A handler that waits for its connection is as its constructor left it. -/
theorem accepting_untouched {w : World} (hr : World.machine.Reachable w) :
    ∀ k ∈ w.conns, stateOf k = some .accepting → k = .construct := by
  refine conns_rule (P := fun k => stateOf k = some .accepting → k = .construct)
    (fun _ => rfl) ?_ hr
  intro w k a k' hr ih hmay hs hst
  have hmem := hmay.mem
  rw [step_stateOf (connsWf_reachable hr k hmem) hs] at hst
  cases a with
  | enqueue cmd =>
      -- a command goes to a handler that reads
      obtain ⟨h, ha, hk⟩ := hmay
      obtain ⟨y, hy, hyst⟩ := active_reading hr ha
      obtain rfl := Option.some.inj (hk.symm.trans hy)
      rw [nextState, hyst] at hst
      exact absurd hst (by simp)
  | complete c flushed =>
      cases c with
      | request ok => cases ok <;> simp [nextState] at hst
      | read ev => cases ev <;> simp [nextState] at hst
      | finish ok => simp [nextState] at hst
      | write cmd ok =>
          -- no `Write` is outstanding on an untouched connection
          rw [ih k hmem hst] at hs
          simp [Connection.step, Connection.take] at hs

/--
**Connection bookkeeping.** In every reachable state at most one handler is
accepting, and exactly one while none has been refused; `active_` is the most
recently accepted handler exactly until its `Read` fails, so that it is always a
handler in `READING`; and what befalls another handler never clears it.
-/
theorem connection_bookkeeping {w : World} (hr : World.machine.Reachable w) :
    acceptingCount w.conns ≤ 1
      ∧ ((∀ k ∈ w.conns, .request false ∉ k.completions) → acceptingCount w.conns = 1)
      ∧ (∀ h, w.active = some h ↔
          w.accepted.getLast? = some h ∧ ∀ k ∈ w.conns[h]?, .read none ∉ k.completions)
      ∧ (∀ h, w.active = some h → InState w h .reading)
      ∧ (∀ h j c w', w.active = some h → j ≠ h → c ≠ .request true →
          w.step (.complete j c) = some w' → w'.active = some h) := by
  have hb := bookkeeping_reachable hr
  have hcount := hb.accepting
  refine ⟨by omega, ?_, ?_, fun h => active_reading hr, fun h j c w' => active_kept hr⟩
  · intro hnone
    have : refusedCount w.conns = 0 := by
      simp only [refusedCount, List.countP_eq_zero]
      intro k hk
      simpa [received] using hnone k hk
    omega
  · intro h
    rw [hb.active_iff]
    cases hk : w.conns[h]? <;> simp [readFailedAt, hk, received]

omit [JsonText] in
/-- Two overlapping connections, the older of which has left. -/
theorem connection_bookkeeping_overlap :
    ∃ (_ : JsonText) (w : World), World.machine.Reachable w ∧ w.accepted = [0, 1]
      ∧ acceptingCount w.conns = 1 ∧ w.active = some 1 ∧ InState w 1 .reading := by
  let _ : JsonText := ⟨fun _ => ""⟩
  obtain ⟨w, hr, hp⟩ := Machine.exists_reachable_of_run (M := World.machine)
    (l := [.complete 0 (.request true), .complete 1 (.request true), .complete 0 (.read none)])
    (p := fun w => decide (w.accepted = [0, 1] ∧ w.active = some 1
      ∧ ∀ k ∈ w.conns, Completion.request false ∉ k.completions)) (by decide)
  obtain ⟨hacc, ha, hnone⟩ := of_decide_eq_true hp
  obtain ⟨_, hone, _, hreading, _⟩ := connection_bookkeeping hr
  exact ⟨_, w, hr, hacc, hone hnone, ha, hreading 1 ha⟩

/-! ## Overlapping connections -/

/-- While some handler reads, `active_` designates one that does. -/
def ServedWhileConnected (w : World) : Prop :=
  (∃ k ∈ w.conns, stateOf k = some .reading) → ∃ h ∈ w.active, InState w h .reading

instance (w : World) : Decidable (ServedWhileConnected w) :=
  inferInstanceAs (Decidable ((∃ k ∈ w.conns, stateOf k = some .reading) →
    ∃ h ∈ w.active, InState w h .reading))

omit [JsonText] in
/--
The newer of two overlapping connections leaves first: the older one is still
reading, and `active_` is null.
-/
theorem not_servedWhileConnected :
    ¬ ∀ (_ : JsonText) (w : World), World.machine.Reachable w → ServedWhileConnected w := by
  intro h
  let _ : JsonText := ⟨fun _ => ""⟩
  obtain ⟨w, hr, hp⟩ := Machine.exists_reachable_of_run (M := World.machine)
    (l := [.complete 0 (.request true), .complete 1 (.request true), .complete 1 (.read none)])
    (p := fun w => decide (¬ ServedWhileConnected w)) (by decide)
  exact of_decide_eq_true hp (h _ w hr)

/--
**The newest connection is served.** In every reachable state, `active_` designates
a reading handler if and only if the most recently accepted one still reads. It is
then that one, and a command pushed is enqueued to it rather than put in
`pending_commands_`.
-/
theorem newest_connection_served {w : World} (hr : World.machine.Reachable w) :
    ((∃ h ∈ w.active, InState w h .reading) ↔ ∃ h ∈ w.accepted.getLast?, InState w h .reading)
      ∧ ∀ h ∈ w.accepted.getLast?, InState w h .reading →
          w.active = some h
            ∧ ∀ cmd, ∃ k ∈ w.conns[h]?, w.pushCommand cmd
                = { w with
                    pushed := w.pushed ++ [cmd]
                    conns := w.conns.set h (k.enqueue cmd) } := by
  have hb := bookkeeping_reachable hr
  have hactive : ∀ h ∈ w.accepted.getLast?, InState w h .reading → w.active = some h :=
    fun h hl hst => (hb.active_iff h).mpr ⟨hl, readFailedAt_reading hr hst⟩
  refine ⟨⟨?_, ?_⟩, ?_⟩
  · rintro ⟨h, ha, hst⟩
    exact ⟨h, ((hb.active_iff h).mp ha).1, hst⟩
  · rintro ⟨h, hl, hst⟩
    exact ⟨h, hactive h hl hst, hst⟩
  · intro h hl hst
    have ha := hactive h hl hst
    obtain ⟨k, hk, hkst⟩ := hst
    obtain ⟨s, hs, _⟩ := Option.map_eq_some_iff.mp hkst
    refine ⟨ha, fun cmd => ⟨k, hk, ?_⟩⟩
    rw [pushCommand_some ha]
    exact enqueue_conn (w := { w with pushed := w.pushed ++ [cmd] }) hk hs cmd

omit [JsonText] in
/-- The older of two overlapping connections has left, and the newer one is served. -/
theorem newest_connection_served_overlap :
    ∃ (_ : JsonText) (w : World), World.machine.Reachable w ∧ w.accepted = [0, 1]
      ∧ w.active = some 1 := by
  let _ : JsonText := ⟨fun _ => ""⟩
  obtain ⟨w, hr, hp⟩ := Machine.exists_reachable_of_run (M := World.machine)
    (l := [.complete 0 (.request true), .complete 1 (.request true), .complete 0 (.read none)])
    (p := fun w => decide (w.accepted = [0, 1] ∧ InState w 1 .reading)) (by decide)
  obtain ⟨hacc, hst⟩ := of_decide_eq_true hp
  exact ⟨_, w, hr, hacc, ((newest_connection_served hr).2 1 (by rw [hacc]; rfl) hst).1⟩

end CloudGateway.Proof
