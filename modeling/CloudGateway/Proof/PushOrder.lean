import CloudGateway.Proof.Connections
import CloudGateway.Proof.Threads

/-!
# The order of the commands across the hand-over

One thread pushes, one handler is accepted, and nothing fails. Commands then pass
through three queues: the call in progress, `pending_commands_`, and the handler
with its stream. `InPushOrder` says that the three, read from the far end, are
exactly what was pushed, in order. The flush and `on_write_done` keep this in any
interleaving; a direct `enqueue` keeps it only while nothing is pending.
-/

namespace CloudGateway.Proof

open Services Proto Reactive

/-! ## What a handler has been sent -/

/-- The commands handed to `stream_.Write`, in order. -/
def writtenOn (k : Connection) : List GatewayCommand :=
  k.calls.filterMap (fun op => match op with
    | .write cmd => some cmd
    | .own _ => none)

/-- Those, and the ones queued behind them. -/
def sentTo (k : Connection) : List GatewayCommand :=
  writtenOn k ++ (k.handler.map (·.writeQueue)).getD []

/-- The same for the handler at an address. -/
def sentAt (ks : List Connection) (h : Nat) : List GatewayCommand := (ks[h]?.map sentTo).getD []

/-- A live handler whose stream is not over. -/
def Serving (k : Connection) : Prop := ∃ s, k.handler = some s ∧ s.state ≠ .finish

theorem writtenOn_issue (calls : List StreamOp) (o : Option GatewayCommand) :
    (calls ++ o.toList.map StreamOp.write).filterMap (fun op => match op with
        | .write cmd => some cmd
        | .own _ => none)
      = calls.filterMap (fun op => match op with
        | .write cmd => some cmd
        | .own _ => none) ++ o.toList := by
  cases o <;> simp

theorem sentTo_enqueue {k : Connection} {s : VehicleStreamHandler} (hs : k.handler = some s)
    (cmd : GatewayCommand) : sentTo (k.enqueue cmd) = sentTo k ++ [cmd] := by
  rw [enqueue_live hs]
  simp only [sentTo, writtenOn, issueWrite_calls, issueWrite_handler, Option.map_some,
    Option.getD_some, hs, writtenOn_issue, List.append_assoc, enqueue_queue]

theorem serving_enqueue {k : Connection} (hk : Serving k) (cmd : GatewayCommand) :
    Serving (k.enqueue cmd) := by
  obtain ⟨s, hs, hst⟩ := hk
  rw [enqueue_live hs]
  exact ⟨(s.enqueue cmd).1, by simp, by simpa using hst⟩

theorem sentTo_startReading (k : Connection) : sentTo k.startReading = sentTo k := by
  cases hs : k.handler <;>
    simp [sentTo, writtenOn, hs]

theorem serving_startReading {k : Connection} (hk : Serving k) : Serving k.startReading := by
  obtain ⟨s, hs, _⟩ := hk
  exact ⟨{ s with state := .reading }, by simp [hs], by simp⟩

theorem sentAt_set {ks : List Connection} {i : Nat} {k : Connection} (hk : ks[i]? = some k)
    (k' : Connection) (h : Nat) :
    sentAt (ks.set i k') h = if i = h then sentTo k' else sentAt ks h := by
  unfold sentAt
  split
  · rename_i hi; subst hi; rw [set_at hk]; rfl
  · rename_i hi; rw [List.getElem?_set_ne hi]

/-- A step that sends its handler nothing sends nothing to any handler. -/
theorem sentAt_set_same {ks : List Connection} {i : Nat} {k k' : Connection}
    (hk : ks[i]? = some k) (hsent : sentTo k' = sentTo k) :
    sentAt (ks.set i k') = sentAt ks := by
  funext h
  rw [sentAt_set hk, hsent]
  split
  · rename_i hi; subst hi; simp [sentAt, hk]
  · rfl

/-- Nothing has been sent to a new handler. -/
theorem sentAt_append (ks : List Connection) : sentAt (ks ++ [.construct]) = sentAt ks := by
  funext h
  unfold sentAt
  rcases at_append ks .construct h with heq | ⟨hnone, hnew⟩
  · rw [heq]
  · rw [hnone, hnew]; simp [sentTo, writtenOn]

section Step

variable [JsonText]

/-- A completion that brings no failure keeps the handler serving, and sends it nothing new. -/
theorem serving_step {k k' : Connection} {c : Completion} {flushed : List GatewayCommand}
    (hwf : Wf k) (hk : Serving k) (hc : c ≠ .request true) (hok : c.ok = true)
    (h : k.step (.complete c flushed) = some k') : Serving k' ∧ sentTo k' = sentTo k := by
  obtain ⟨s₀, hs₀, hst₀⟩ := hk
  cases step_effect hwf h with
  | @writeDone s cmd ok _ hs hw =>
      obtain rfl := Option.some.inj (hs₀.symm.trans hs)
      refine ⟨⟨(s₀.onWriteDone ok).1, by simp, by simpa using hst₀⟩, ?_⟩
      simp only [sentTo, writtenOn, issueWrite_calls, issueWrite_handler, Option.map_some,
        Option.getD_some, hs, writtenOn_issue, List.append_assoc, onWriteDone_queue]
  | stray hs hw => rw [hs₀] at hs; exact absurd hs (by simp)
  | refused hs hst => exact absurd hok (by simp [Completion.ok])
  | accepted hs hst hst' hq hw => exact absurd rfl hc
  | readOk hs hst =>
      obtain rfl := Option.some.inj (hs₀.symm.trans hs)
      exact ⟨⟨_, rfl, hst₀⟩, by simp [sentTo, writtenOn, hs]⟩
  | readFailed hs hst => exact absurd hok (by simp [Completion.ok])
  | finished hs hst =>
      obtain rfl := Option.some.inj (hs₀.symm.trans hs)
      exact absurd hst hst₀

end Step

/-! ## The run conditions -/

/-- Of the one handler ever accepted: its commands are written in the order of their pushes. -/
def PushOrderKept (t : Threads) : Prop :=
  ∀ h, t.world.accepted = [h] → ∀ k ∈ t.world.conns[h]?, writtenOn k <+: t.world.pushed

/-- One thread calls `push_command`, and no operation fails. -/
def OneThread (t : Threads) : Threads.Action → Prop
  | .load _ => t.pushing = []
  | .complete _ c => c.ok = true
  | _ => True

/-- A command goes straight to the handler only while none is pending. -/
def WaitsItsTurn (t : Threads) : Threads.Action → Prop
  | .enqueue _ => t.world.pendingCommands = []
  | _ => True

instance (t : Threads) : (a : Threads.Action) → Decidable (OneThread t a)
  | .load _ => inferInstanceAs (Decidable (t.pushing = []))
  | .complete _ c => inferInstanceAs (Decidable (c.ok = true))
  | .append _ | .enqueue _ | .lock | .flushOne | .unlock => isTrue trivial

instance (t : Threads) : (a : Threads.Action) → Decidable (WaitsItsTurn t a)
  | .enqueue _ => inferInstanceAs (Decidable (t.world.pendingCommands = []))
  | .load _ | .append _ | .complete _ _ | .lock | .flushOne | .unlock => isTrue trivial

/-! ## The three queues -/

/-- Everything accepted handlers have been sent. -/
def sent (w : World) : List GatewayCommand := w.accepted.flatMap (sentAt w.conns)

/-- The commands of the calls in progress. -/
def inProgress (t : Threads) : List GatewayCommand := t.pushing.map (·.cmd)

/-- What one pushing thread and no failure make of the two threads. -/
structure InPushOrder (t : Threads) : Prop where
  single : t.pushing.length ≤ 1
  serving : ∀ k ∈ t.world.conns, Serving k
  known : ∀ h ∈ t.world.accepted, h < t.world.conns.length
  /-- Commands go to accepted handlers only: from a call, -/
  active : ∀ h, t.world.active = some h → h ∈ t.world.accepted
  loaded : ∀ p ∈ t.pushing, ∀ h, p.loaded = some h → h ∈ t.world.accepted
  /-- or from the flush. -/
  accepting : ∀ h, t.cq.accepting = some h → h ∈ t.world.accepted
  untouched : ∀ h, h ∉ t.world.accepted → sentAt t.world.conns h = []
  /-- **The three queues hold what was pushed, in order.** -/
  order : t.world.accepted.length ≤ 1 →
    t.world.pushed = sent t.world ++ t.world.pendingCommands ++ inProgress t

theorem inPushOrder_init : InPushOrder (.atRest .start) where
  single := by simp [Threads.atRest]
  serving := by
    intro k hk
    rw [List.mem_singleton.mp hk]
    exact ⟨{ VehicleStreamHandler.new with state := .accepting }, rfl, by simp⟩
  known := by intro h hh; exact absurd hh (by simp [Threads.atRest, World.start])
  active := by intro h hh; exact absurd hh (by simp [Threads.atRest, World.start])
  loaded := by intro p hp; exact absurd hp (by simp [Threads.atRest])
  accepting := by intro h hh; exact absurd hh (by simp [Threads.atRest, CqThread.accepting])
  untouched := by
    intro h _
    show sentAt ([] ++ [.construct]) h = []
    rw [sentAt_append]; rfl
  order := by intro _; rfl

/-- The only call in progress. -/
theorem only_call {ps : List PushCall} {i : Nat} {p : PushCall} (hlen : ps.length ≤ 1)
    (hp : ps[i]? = some p) : ps = [p] ∧ ps.eraseIdx i = [] := by
  obtain ⟨q, hq⟩ := List.length_eq_one_iff.mp
    (Nat.le_antisymm hlen (List.length_pos_of_mem (List.mem_of_getElem? hp)))
  subst hq
  cases i with
  | zero => simpa using hp
  | succ i => exact absurd hp (by simp)

/-- The only handler accepted. -/
theorem only_accepted {hs : List Nat} {h : Nat} (hlen : hs.length ≤ 1) (hmem : h ∈ hs) :
    hs = [h] := by
  obtain ⟨x, rfl⟩ := List.length_eq_one_iff.mp
    (Nat.le_antisymm hlen (List.length_pos_of_mem hmem))
  rw [List.mem_singleton.mp hmem]

/-- Sending a command to an accepted handler. -/
theorem InPushOrder.send {t : Threads} (ho : InPushOrder t) {h : Nat} {k : Connection}
    (hk : t.world.conns[h]? = some k) (hacc : h ∈ t.world.accepted) (cmd : GatewayCommand) :
    (∀ x ∈ t.world.conns.set h (k.enqueue cmd), Serving x)
      ∧ (∀ j, j ∉ t.world.accepted → sentAt (t.world.conns.set h (k.enqueue cmd)) j = [])
      ∧ (t.world.accepted.length ≤ 1 →
          t.world.accepted.flatMap (sentAt (t.world.conns.set h (k.enqueue cmd)))
            = sent t.world ++ [cmd]) := by
  have hserv := ho.serving k (List.mem_of_getElem? hk)
  obtain ⟨s, hs, _⟩ := id hserv
  refine ⟨?_, ?_, ?_⟩
  · exact (forall_set_at ho.serving hk).mpr (serving_enqueue hserv cmd)
  · intro j hj
    have hne : h ≠ j := fun hij => hj (hij ▸ hacc)
    rw [sentAt_set hk, if_neg hne]
    exact ho.untouched j hj
  · intro hlen
    have hat : sentAt t.world.conns h = sentTo k := by simp [sentAt, hk]
    rw [sent, only_accepted hlen hacc, List.flatMap_singleton, List.flatMap_singleton,
      sentAt_set hk, if_pos rfl, sentTo_enqueue hs, hat]

/-- A change that sends its handler nothing and does not end its stream. -/
theorem InPushOrder.replace {t : Threads} (ho : InPushOrder t) {h : Nat} {k k' : Connection}
    (hk : t.world.conns[h]? = some k) (hserv : Serving k') (hsent : sentTo k' = sentTo k) :
    (∀ x ∈ t.world.conns.set h k', Serving x)
      ∧ sentAt (t.world.conns.set h k') = sentAt t.world.conns := by
  exact ⟨(forall_set_at ho.serving hk).mpr hserv, sentAt_set_same hk hsent⟩

/-! ## Every step keeps the order -/

/-- `push_command` begins. -/
theorem InPushOrder.load {t : Threads} (ho : InPushOrder t) (hnone : t.pushing = [])
    (cmd : GatewayCommand) : InPushOrder (t.load cmd) := by
  refine { ho with single := ?_, loaded := ?_, order := ?_ }
  · simp [Threads.load, hnone]
  · intro p hp h hl
    simp only [Threads.load, hnone, List.nil_append, List.mem_singleton] at hp
    subst hp
    exact ho.active h hl
  · intro hlen
    have horder := ho.order hlen
    simp only [inProgress, hnone, List.map_nil, List.append_nil] at horder
    simp only [Threads.load, inProgress, hnone, List.nil_append, List.map_cons, List.map_nil,
      horder]
    rfl

/-- A change of one handler that sends nothing, whatever becomes of `active_` and the accept. -/
theorem InPushOrder.replaced {t : Threads} (ho : InPushOrder t) {h : Nat} {k k' : Connection}
    (hk : t.world.conns[h]? = some k) (hserv : Serving k') (hsent : sentTo k' = sentTo k)
    {act : Option Nat} (hact : ∀ j, act = some j → j ∈ t.world.accepted)
    {cq : CqThread} (hcq : ∀ j, cq.accepting = some j → j ∈ t.world.accepted) (b : Bool) :
    InPushOrder { t with
      world := { t.world with conns := t.world.conns.set h k', active := act, fault := b }
      cq := cq } := by
  obtain ⟨hall, hsame⟩ := ho.replace hk hserv hsent
  constructor
  case single => exact ho.single
  case serving => exact hall
  case known => simpa using ho.known
  case active => exact hact
  case loaded => exact ho.loaded
  case accepting => exact hcq
  case untouched => rw [hsame]; exact ho.untouched
  case order =>
    intro hlen
    simp only [sent, hsame]
    exact ho.order hlen

/-- An accept publishes its handler. -/
theorem InPushOrder.stored {t : Threads} (ho : InPushOrder t) {h : Nat} {k : Connection}
    (hk : t.world.conns[h]? = some k) :
    InPushOrder { t with
      world := { t.world with
        conns := t.world.conns.set h (registered k) ++ [.construct]
        active := some h
        accepted := t.world.accepted ++ [h] }
      cq := .stored h } := by
  have hserv : Serving (registered k) := ho.serving k (List.mem_of_getElem? hk)
  obtain ⟨hall, hsame⟩ := ho.replace hk hserv rfl
  have hnew : sentAt (t.world.conns.set h (registered k) ++ [.construct])
      = sentAt t.world.conns := by rw [sentAt_append, hsame]
  have hlt := address_lt hk
  constructor
  case single => exact ho.single
  case serving =>
    intro x hx
    rcases List.mem_append.mp hx with hx | hx
    · exact hall x hx
    · exact inPushOrder_init.serving x hx
  case known =>
    intro j hj
    simp only [List.length_append, List.length_set]
    rcases List.mem_append.mp hj with hj | hj
    · have := ho.known j hj
      omega
    · rw [List.mem_singleton.mp hj]; omega
  case active => intro j hj; obtain rfl : h = j := Option.some.inj hj; simp
  case loaded => intro p hp j hj; exact List.mem_append_left _ (ho.loaded p hp j hj)
  case accepting => intro j hj; obtain rfl : h = j := Option.some.inj hj; simp
  case untouched =>
    intro j hj
    rw [hnew]
    exact ho.untouched j (fun hacc => hj (List.mem_append_left _ hacc))
  case order =>
    intro hlen
    -- this is the first accept, so nothing has been sent to anyone
    have hnone : t.world.accepted = [] := by simpa using hlen
    have horder := ho.order (by rw [hnone]; simp)
    have hempty := ho.untouched h (by rw [hnone]; simp)
    simp only [sent, hnone, List.nil_append, List.flatMap_singleton, List.flatMap_nil, hnew,
      hempty] at horder ⊢
    exact horder

variable [JsonText]

/-- **Every step of the run keeps the three queues in order.** -/
theorem inPushOrder_step {t t' : Threads} {a : Threads.Action}
    (hr : Threads.machine.Reachable t) (ho : InPushOrder t) (hone : OneThread t a)
    (hturn : WaitsItsTurn t a) (hs : t.step a = some t') : InPushOrder t' := by
  have hwf := threadsWf_reachable hr
  cases threads_step_effect hwf hs with
  | load => exact ho.load hone _
  | @append i p hp hl hcq =>
      obtain ⟨hps, herase⟩ := only_call ho.single hp
      refine { ho with single := by simp [herase], loaded := by simp [herase], order := ?_ }
      intro hlen
      have horder := ho.order hlen
      simp only [inProgress, hps, List.map_cons, List.map_nil] at horder
      simp only [inProgress, herase, List.map_nil, List.append_nil, horder, List.append_assoc]
      rfl
  | @enqueue i h p k s hp hl hk hks =>
      obtain ⟨hps, herase⟩ := only_call ho.single hp
      have hacc := ho.loaded p (List.mem_of_getElem? hp) h hl
      obtain ⟨hserv, huntouched, hsent⟩ := ho.send hk hacc p.cmd
      refine { ho with
        single := by simp [herase]
        loaded := by simp [herase]
        serving := hserv
        known := by simpa using ho.known
        untouched := huntouched
        order := ?_ }
      intro hlen
      -- nothing is pending, so the command's place is behind everything sent
      have hpend : t.world.pendingCommands = [] := hturn
      have horder := ho.order hlen
      simp only [inProgress, hps, hpend, List.map_cons, List.map_nil, List.append_nil] at horder
      simp only [sent, inProgress, herase, hpend, List.map_nil, List.append_nil, horder]
      exact (hsent hlen).symm
  | @dangling i h p hp hl hd =>
      -- accepted handlers live
      have hacc := ho.loaded p (List.mem_of_getElem? hp) h hl
      have hk := List.getElem?_eq_getElem (ho.known h hacc)
      obtain ⟨s, hs, _⟩ := ho.serving _ (List.mem_of_getElem? hk)
      rw [handler_of hk, hs] at hd
      exact absurd hd (by simp)
  | stored hcq hk hks hst => exact ho.stored hk
  | @moved i c k k' b hcq hc hm =>
      have hmem := List.mem_of_getElem? hm.1
      obtain ⟨hserv, hsent⟩ :=
        serving_step (hwf.connsWf hcq k hmem) (ho.serving k hmem) hc hone hm.2
      refine ho.replaced hm.1 hserv hsent ?_ ho.accepting b
      intro j hj
      split at hj
      · exact absurd hj (by simp)
      · exact ho.active j hj
  | @lock i hcq =>
      refine { ho with accepting := ?_ }
      intro j hj
      exact ho.accepting j (by rw [hcq]; exact hj)
  | @flushOne i cmd rest k s hcq hp hk hks =>
      have hacc := ho.accepting i (by rw [hcq]; rfl)
      obtain ⟨hserv, huntouched, hsent⟩ := ho.send hk hacc cmd
      refine { ho with
        serving := hserv
        known := by simpa using ho.known
        untouched := huntouched
        order := ?_ }
      intro hlen
      have horder := ho.order hlen
      rw [hp] at horder
      simp only [sent]
      rw [horder, hsent hlen]
      simp [inProgress]
  | @unlock i k s hcq hp hk hks =>
      have hserv := serving_startReading (ho.serving k (List.mem_of_getElem? hk))
      exact ho.replaced hk hserv (sentTo_startReading k) ho.active
        (fun j hj => absurd hj (by simp [CqThread.accepting])) t.world.fault

/--
**When the order of the pushes is kept.** One thread pushes, no operation fails,
and every `enqueue` by `push_command` comes while nothing is pending. Then what
is written to the one handler accepted is what was pushed, in that order.
-/
theorem push_order_kept {t : Threads}
    (h : Threads.machine.ReachableWhen (fun t a => OneThread t a ∧ WaitsItsTurn t a) t) :
    PushOrderKept t := by
  have ho : InPushOrder t := by
    refine h.invariant (P := InPushOrder) inPushOrder_init ?_
    intro t a t' hr ho hok hs
    exact inPushOrder_step hr.reachable ho hok.1 hok.2 hs
  intro i hacc k hk
  have horder := ho.order (by rw [hacc]; simp)
  rw [horder, sent, hacc, List.flatMap_singleton]
  simp only [sentAt, Option.mem_def.mp hk, Option.map_some, Option.getD_some, sentTo,
    List.append_assoc]
  exact List.prefix_append _ _

omit [JsonText] in
/-- Three commands: one flushed, one appended before the flush, one pushed after it. -/
theorem push_order_kept_flush :
    ∃ (_ : JsonText) (t : Threads),
      Threads.machine.ReachableWhen (fun t a => OneThread t a ∧ WaitsItsTurn t a) t
      ∧ t.world.accepted = [0] ∧ ∃ k, t.world.conns[0]? = some k ∧ (writtenOn k).length = 3
      ∧ writtenOn k <+: t.world.pushed := by
  let _ : JsonText := ⟨fun _ => ""⟩
  obtain ⟨t, hr, hp⟩ := Machine.exists_reachableWhen_of_run (M := Threads.machine)
    (Q := fun t a => OneThread t a ∧ WaitsItsTurn t a)
    (l := [.load (.orderUpdateStatus ⟨"V1"⟩), .append 0, .load (.orderUpdateStatus ⟨"V2"⟩),
      .complete 0 (.request true), .append 0, .lock, .flushOne, .flushOne, .unlock,
      .load (.orderUpdateStatus ⟨"V3"⟩), .enqueue 0,
      .complete 0 (.write (.orderUpdateStatus ⟨"V1"⟩) true),
      .complete 0 (.write (.orderUpdateStatus ⟨"V2"⟩) true)])
    (p := fun t => decide (t.world.accepted = [0]
      ∧ (t.world.conns[0]?).map (fun k => (writtenOn k).length) = some 3)) (by decide)
  obtain ⟨hacc, hwritten⟩ := of_decide_eq_true hp
  obtain ⟨k, hk, hlen⟩ := Option.map_eq_some_iff.mp hwritten
  exact ⟨_, t, hr, hacc, k, hk, hlen, push_order_kept hr 0 hacc k hk⟩

omit [JsonText] in
/--
The first command waits, the handler is published, and the second command goes to
it before the flush has run: it is written first.
-/
theorem not_pushOrderKept :
    ¬ ∀ (_ : JsonText) (t : Threads), Threads.machine.ReachableWhen OneThread t →
      PushOrderKept t := by
  intro h
  let _ : JsonText := ⟨fun _ => ""⟩
  obtain ⟨t, hr, hp⟩ := Machine.exists_reachableWhen_of_run (M := Threads.machine)
    (Q := OneThread)
    (l := [.load (.orderUpdateStatus ⟨"V1"⟩), .append 0, .complete 0 (.request true),
      .load (.orderUpdateLocation ⟨"V1"⟩), .enqueue 0, .lock, .flushOne, .unlock,
      .complete 0 (.write (.orderUpdateLocation ⟨"V1"⟩) true)])
    (p := fun t => decide (t.world.accepted = [0]
      ∧ t.world.pushed = [.orderUpdateStatus ⟨"V1"⟩, .orderUpdateLocation ⟨"V1"⟩]
      ∧ (t.world.conns[0]?).map writtenOn
        = some [.orderUpdateLocation ⟨"V1"⟩, .orderUpdateStatus ⟨"V1"⟩])) (by decide)
  obtain ⟨hacc, hpushed, hwritten⟩ := of_decide_eq_true hp
  obtain ⟨k, hk, hkw⟩ := Option.map_eq_some_iff.mp hwritten
  have hprefix := h _ t hr 0 hacc k hk
  rw [hpushed, hkw] at hprefix
  exact absurd hprefix (by decide)

end CloudGateway.Proof
