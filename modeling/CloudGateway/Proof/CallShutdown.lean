import CloudGateway.Proof.CallLifecycle
import CloudGateway.Services.CallShutdown

/-!
# Registrations that bring no call

`Proceed` of a `CallDataBase` cannot tell a registration that failed from a call
whose request is the one already in `request_`. So a run with refusals looks,
history of requests aside, like a run in which every refusal is a call
(`Unnoticed`), and what `CallLifecycle` shows of such runs says what a refusal
leads to: a `publish_`, a new handler, and a handler that stays.
-/

namespace CloudGateway.Proof

open Services Proto Reactive

variable {ρ : Type}

/-! ## Forgetting which requests were delivered -/

/-- A call object without the history of its requests. -/
def forget (k : Call ρ) : Call ρ := { k with accepted := [] }

/-- The calls of one kind, each without the history of its requests. -/
def forgetAll (w : Calls ρ) : Calls ρ := { w with calls := w.calls.map forget }

theorem forget_process (base : CallDataBase ρ) (k : Call ρ) :
    forget (k.process base) = (forget k).process base := by
  obtain ⟨handler, _⟩ := k
  cases handler <;> rfl

theorem forget_callback (k : Call ρ) (ok : Bool) (err : String) :
    forget (k.callback ok err) = (forget k).callback ok err := by
  obtain ⟨handler, _⟩ := k
  cases handler <;> rfl

theorem forgetAll_at {w : Calls ρ} {i : Nat} {k : Call ρ} (h : w.calls[i]? = some k) :
    (forgetAll w).calls[i]? = some (forget k) := by
  simp only [forgetAll, List.getElem?_map, h, Option.map_some]

theorem forgetAll_handler (w : Calls ρ) (i : Nat) : (forgetAll w).handler i = w.handler i := by
  simp only [Calls.handler, forgetAll, List.getElem?_map]
  cases w.calls[i]? <;> rfl

theorem forgetAll_modify {f : Call ρ → Call ρ} (hf : ∀ k, forget (f k) = f (forget k))
    (w : Calls ρ) (i : Nat) : forgetAll (w.modify i f) = (forgetAll w).modify i f := by
  simp only [forgetAll, Calls.modify, map_modify_at hf]

theorem forgetAll_calls_callback (w : Calls ρ) (i : Nat) (ok : Bool) (err : String) :
    forgetAll (w.callback i ok err) = (forgetAll w).callback i ok err := by
  simp only [Calls.callback, forgetAll_handler]
  cases w.handler i with
  | none => rfl
  | some d => exact forgetAll_modify (fun k => forget_callback k ok err) w i

variable [Inhabited ρ]

theorem forgetAll_spawn (w : Calls ρ) : forgetAll w.spawn = (forgetAll w).spawn := by
  simp only [forgetAll, Calls.spawn, List.map_append]
  rfl

/-- `Proceed` does not read which requests were delivered. -/
theorem forgetAll_proceed (base : CallDataBase ρ) (w : Calls ρ) (i : Nat)
    (inside : Option (Bool × String)) :
    forgetAll (w.proceed base i inside) = (forgetAll w).proceed base i inside := by
  simp only [Calls.proceed, forgetAll_handler]
  cases w.handler i with
  | none => rfl
  | some d =>
      cases hst : d.state with
      | create => simp only [hst]; exact forgetAll_modify (f := Call.register) (fun _ => rfl) w i
      | finish => simp only [hst]; exact forgetAll_modify (f := Call.free) (fun _ => rfl) w i
      | process =>
          have hprocess : forgetAll (w.spawn.modify i (·.process base))
              = (forgetAll w).spawn.modify i (·.process base) := by
            rw [forgetAll_modify (forget_process base), forgetAll_spawn]
          cases inside with
          | none => simp only [hst]; exact hprocess
          | some p =>
              simp only [hst]
              rw [forgetAll_calls_callback, hprocess]

/-! ## Two runs that differ in the history of requests -/

section Lockstep

variable {w t : Calls ρ} {base : CallDataBase ρ}

omit [Inhabited ρ] in
theorem forgetAll_fault (h : forgetAll w = forgetAll t) : t.fault = w.fault :=
  (congrArg Calls.fault h).symm

omit [Inhabited ρ] in
theorem forgetAll_other (h : forgetAll w = forgetAll t) {i : Nat} {k : Call ρ}
    (hk : w.calls[i]? = some k) : ∃ l, t.calls[i]? = some l ∧ forget l = forget k := by
  have hw := forgetAll_at hk
  rw [h] at hw
  simp only [forgetAll, List.getElem?_map] at hw
  exact Option.map_eq_some_iff.mp hw

omit [Inhabited ρ] in
/-- What gRPC takes from an object on one side, it can take on the other. -/
theorem forgetAll_take (h : forgetAll w = forgetAll t) {i : Nat} {f g : Call ρ → Option (Call ρ)}
    (hfg : ∀ k k' l, w.calls[i]? = some k → forget l = forget k → f k = some k' →
      ∃ l', g l = some l' ∧ forget l' = forget k')
    {w₁ : Calls ρ} (hw : w.take i f = some w₁) :
    ∃ t₁, t.take i g = some t₁ ∧ forgetAll t₁ = forgetAll w₁ := by
  obtain ⟨k, k', hk, hk', rfl⟩ := call_take hw
  obtain ⟨l, hl, hlk⟩ := forgetAll_other h hk
  obtain ⟨l', hl', hlk'⟩ := hfg k k' l hk hlk hk'
  refine ⟨{ t with calls := t.calls.set i l' }, ?_, ?_⟩
  · simp only [Calls.take, hl, Option.bind_some, hl', Option.map_some]
  · have hcalls : t.calls.map forget = w.calls.map forget := (congrArg Calls.calls h).symm
    simp only [forgetAll, List.map_set, hlk', hcalls, forgetAll_fault h]

omit [Inhabited ρ] in
theorem forget_takeRequest (r : ρ) {k k' l : Call ρ} (h : forget l = forget k)
    (hk : k.takeRequest r = some k') : ∃ l', l.takeRequest r = some l' ∧ forget l' = forget k' := by
  obtain ⟨hd, ops, _⟩ := k
  obtain ⟨hd', ops', _⟩ := l
  simp only [forget, Call.mk.injEq] at h
  obtain ⟨rfl, rfl, rfl, -, rfl, rfl, rfl, rfl, rfl⟩ := h
  simp only [Call.takeRequest] at hk ⊢
  split at hk
  case isFalse => exact absurd hk (by simp)
  rename_i hmem
  obtain rfl := Option.some.inj hk
  exact ⟨_, if_pos hmem, rfl⟩

omit [Inhabited ρ] in
theorem forget_takeFinish {k k' l : Call ρ} (h : forget l = forget k)
    (hk : k.takeFinish = some k') : ∃ l', l.takeFinish = some l' ∧ forget l' = forget k' := by
  obtain ⟨hd, ops, _⟩ := k
  obtain ⟨hd', ops', _⟩ := l
  simp only [forget, Call.mk.injEq] at h
  obtain ⟨rfl, rfl, rfl, -, rfl, rfl, rfl, rfl, rfl⟩ := h
  simp only [Call.takeFinish] at hk ⊢
  split at hk
  case isFalse => exact absurd hk (by simp)
  rename_i hmem
  obtain rfl := Option.some.inj hk
  exact ⟨_, if_pos hmem, rfl⟩

omit [Inhabited ρ] in
/-- A refusal leaves the object as a call with the request it already has would. -/
theorem forget_takeRefusal {k k' l : Call ρ} {d : CallData ρ} (h : forget l = forget k)
    (hd : k.handler = some d) (hk : k.takeRefusal = some k') :
    ∃ l', l.takeRequest d.request = some l' ∧ forget l' = forget k' := by
  obtain ⟨hd', ops, _⟩ := k
  obtain ⟨hd'', ops', _⟩ := l
  simp only [forget, Call.mk.injEq] at h
  obtain ⟨rfl, rfl, rfl, -, rfl, rfl, rfl, rfl, rfl⟩ := h
  subst hd
  simp only [Call.takeRequest, Call.takeRefusal] at hk ⊢
  split at hk
  case isFalse => exact absurd hk (by simp)
  rename_i hmem
  obtain rfl := Option.some.inj hk
  exact ⟨_, if_pos hmem, rfl⟩

/-- Two sides that differ in the history of requests take the same steps. -/
theorem forgetAll_step (h : forgetAll w = forgetAll t) {a : Calls.Action ρ} {w' : Calls ρ}
    (hs : Calls.step base w a = some w') :
    ∃ t', Calls.step base t a = some t' ∧ forgetAll w' = forgetAll t' := by
  unfold Calls.step at hs ⊢
  rw [forgetAll_fault h]
  split at hs
  · exact absurd hs (by simp)
  rename_i hfault
  rw [if_neg hfault]
  cases a with
  | accept i r inside =>
      obtain ⟨w₁, hw₁, rfl⟩ := Option.map_eq_some_iff.mp hs
      obtain ⟨t₁, ht₁, heq⟩ := forgetAll_take (g := (·.takeRequest r)) h
        (fun k k' l _ => forget_takeRequest r) hw₁
      refine ⟨t₁.proceed base i inside, by simp only [ht₁, Option.map_some], ?_⟩
      rw [forgetAll_proceed, forgetAll_proceed, heq]
  | finish i =>
      obtain ⟨w₁, hw₁, rfl⟩ := Option.map_eq_some_iff.mp hs
      obtain ⟨t₁, ht₁, heq⟩ := forgetAll_take (g := Call.takeFinish) h
        (fun k k' l _ => forget_takeFinish) hw₁
      refine ⟨t₁.proceed base i none, by simp only [ht₁, Option.map_some], ?_⟩
      rw [forgetAll_proceed, forgetAll_proceed, heq]
  | callback i ok err =>
      obtain ⟨k, hk, hs⟩ := Option.bind_eq_some_iff.mp hs
      obtain ⟨l, hl, hlk⟩ := forgetAll_other h hk
      have hcb : l.callbacks = k.callbacks := by
        show (forget l).callbacks = (forget k).callbacks
        rw [hlk]
      split at hs
      case isFalse => exact absurd hs (by simp)
      rename_i hpos
      obtain rfl := Option.some.inj hs
      refine ⟨t.callback i ok err, ?_, ?_⟩
      · simp only [hl, Option.bind_some, hcb, hpos, if_true]
      · rw [forgetAll_calls_callback, forgetAll_calls_callback, h]

end Lockstep

/-! ## Counting arrivals -/

omit [Inhabited ρ] in
/-- Acting on an object without touching its requests. -/
theorem arrivals_modify {f : Call ρ → Call ρ} (hf : ∀ k, (f k).accepted = k.accepted) (w : Calls ρ)
    (i : Nat) : (w.modify i f).arrivals = w.arrivals := by
  have hmap := map_modify_at (v := fun k : Call ρ => k.accepted.length) (f := f) (g := id)
    (fun k => by simp only [hf, id]) w.calls i
  rw [List.modify_id] at hmap
  simp only [Calls.arrivals, Calls.modify, hmap]

omit [Inhabited ρ] in
theorem arrivals_callback (w : Calls ρ) (i : Nat) (ok : Bool) (err : String) :
    (w.callback i ok err).arrivals = w.arrivals := by
  simp only [Calls.callback]
  cases w.handler i with
  | none => rfl
  | some d =>
      refine arrivals_modify (fun k => ?_) w i
      obtain ⟨handler, _⟩ := k
      cases handler <;> rfl

theorem arrivals_proceed (base : CallDataBase ρ) (w : Calls ρ) (i : Nat)
    (inside : Option (Bool × String)) : (w.proceed base i inside).arrivals = w.arrivals := by
  simp only [Calls.proceed]
  cases w.handler i with
  | none => rfl
  | some d =>
      cases hst : d.state with
      | create => simp only [hst]; exact arrivals_modify (f := Call.register) (fun _ => rfl) w i
      | finish => simp only [hst]; exact arrivals_modify (f := Call.free) (fun _ => rfl) w i
      | process =>
          have hspawn : w.spawn.arrivals = w.arrivals := by
            simp only [Calls.arrivals, Calls.spawn, List.map_append, List.sum_append]
            rfl
          have hprocess : (w.spawn.modify i (·.process base)).arrivals = w.arrivals := by
            rw [← hspawn]
            refine arrivals_modify (fun k => ?_) w.spawn i
            obtain ⟨handler, _⟩ := k
            cases handler <;> rfl
          cases inside with
          | none => simp only [hst]; exact hprocess
          | some p => simp only [hst]; rw [arrivals_callback, hprocess]

omit [Inhabited ρ] in
/-- What taking a completion does to the count is what it does to one object. -/
theorem arrivals_take {f : Call ρ → Option (Call ρ)} {n : Nat}
    (hf : ∀ k k', f k = some k' → k'.accepted.length = k.accepted.length + n) {w w₁ : Calls ρ}
    {i : Nat} (h : w.take i f = some w₁) : w₁.arrivals = w.arrivals + n := by
  obtain ⟨k, k', hk, hk', rfl⟩ := call_take h
  have hsum := sum_map_set_at (fun k : Call ρ => k.accepted.length) hk k'
  have hone := hf k k' hk'
  simp only [Calls.arrivals] at hsum ⊢
  omega

/-- One for each call that arrives. -/
def arrivalsOf : Calls.Action ρ → Nat
  | .accept _ _ _ => 1
  | .callback _ _ _ => 0
  | .finish _ => 0

theorem arrivals_step {base : CallDataBase ρ} {w w' : Calls ρ} {a : Calls.Action ρ}
    (h : Calls.step base w a = some w') : w'.arrivals = w.arrivals + arrivalsOf a := by
  unfold Calls.step at h
  split at h
  · exact absurd h (by simp)
  cases a with
  | accept i r inside =>
      obtain ⟨w₁, hw₁, rfl⟩ := Option.map_eq_some_iff.mp h
      rw [arrivals_proceed, arrivalsOf]
      refine arrivals_take (fun k k' hk => ?_) hw₁
      simp only [Call.takeRequest] at hk
      split at hk
      · obtain rfl := Option.some.inj hk; simp
      · exact absurd hk (by simp)
  | finish i =>
      obtain ⟨w₁, hw₁, rfl⟩ := Option.map_eq_some_iff.mp h
      rw [arrivals_proceed, arrivalsOf]
      refine arrivals_take (fun k k' hk => ?_) hw₁
      simp only [Call.takeFinish] at hk
      split at hk
      · obtain rfl := Option.some.inj hk; rfl
      · exact absurd hk (by simp)
  | callback i ok err =>
      obtain ⟨k, _, h⟩ := Option.bind_eq_some_iff.mp h
      split at h
      · obtain rfl := Option.some.inj h; exact arrivals_callback w i ok err
      · exact absurd h (by simp)

/-! ## What a refusal leads to -/

/-- A refused registration is published, replaced, and kept. -/
def noticed : Refusal := { published := 1, registered := 1, freed := false }

/-- What `Proceed` does about a refusal, to an object that is in `PROCESS`. -/
theorem proceedRefused_noticed (base : CallDataBase ρ) (q : CallQueue ρ) {w : Calls ρ} {i : Nat}
    {k : Call ρ} {d : CallData ρ} (hk : w.calls[i]? = some k) (hd : k.handler = some d)
    (hst : d.state = .process) (inside : Option (Bool × String)) :
    (q.proceedRefused base w i inside).refusals = q.refusals ++ [noticed] := by
  obtain ⟨w₂, hw₂, hat, hproc⟩ := call_proceed_process base hk hd hst inside
  -- the object that ends up at the address, called back or not
  obtain ⟨k', hlive, hpub, hw'⟩ : ∃ k' : Call ρ, k'.handler.isSome = true
      ∧ k'.published.length = k.published.length + 1
      ∧ w.proceed base i inside
        = { w with calls := w.calls.set i k' ++ [Call.construct.register] } := by
    have hprocess : (k.process base).handler.isSome = true
        ∧ (k.process base).published.length = k.published.length + 1 := by
      simp [Call.process, hd]
    cases inside with
    | none => exact ⟨k.process base, hprocess.1, hprocess.2, by rw [hproc, hw₂]⟩
    | some p =>
        refine ⟨(k.process base).callback p.1 p.2, ?_, ?_, ?_⟩
        · simp [Call.process, Call.callback, hd]
        · simp [Call.process, Call.callback, hd]
        · rw [hproc]
          show w₂.callback i p.1 p.2 = _
          rw [call_callback hat hprocess.1, hw₂]
          simp only [set_append_at (set_at hk _), List.set_set]
  have hsum := sum_map_set_at (fun k : Call ρ => k.published.length) hk k'
  have hnew : (Call.construct.register : Call ρ).published.length = 0 := rfl
  have hpublished : (w.proceed base i inside).publishes - w.publishes = 1 := by
    simp only [hw', Calls.publishes, List.map_append, List.sum_append, List.map_cons, List.map_nil,
      List.sum_cons, List.sum_nil, hnew]
    omega
  have hregistered : (w.proceed base i inside).calls.length - w.calls.length = 1 := by
    simp only [hw', List.length_append, List.length_set, List.length_singleton]
    omega
  have hfreed : ((w.proceed base i inside).handler i).isNone = false := by
    have hat' : (w.proceed base i inside).calls[i]? = some k' := by
      rw [hw']
      have hlt : i < (w.calls.set i k').length := address_lt (set_at hk k')
      show (w.calls.set i k' ++ _)[i]? = _
      rw [List.getElem?_append_left hlt, set_at hk]
    rw [call_handler_of hat']
    simpa using hlive
  simp only [CallQueue.proceedRefused, hpublished, hregistered, hfreed, noticed]

/-! ## Runs with refusals -/

/-- The queue looks like the calls `t` of a run in which every refusal is a call. -/
structure Unnoticed (base : CallDataBase ρ) (q : CallQueue ρ) (t : Calls ρ) : Prop where
  staged : Staged base t
  same : forgetAll q.calls = forgetAll t
  arrivals : t.arrivals = q.calls.arrivals + q.refusals.length
  refusals : ∀ r ∈ q.refusals, r = noticed

theorem unnoticed_step {base : CallDataBase ρ} {q q' : CallQueue ρ} {t : Calls ρ}
    {a : CallQueue.Action ρ} (hq : Unnoticed base q t) (h : CallQueue.step base q a = some q') :
    ∃ b t', Calls.step base t b = some t' ∧ Unnoticed base q' t' := by
  cases a with
  | call a =>
      obtain ⟨w', hw', rfl⟩ := Option.map_eq_some_iff.mp h
      obtain ⟨t', ht', hsame⟩ := forgetAll_step hq.same hw'
      refine ⟨a, t', ht', staged_step hq.staged ht', hsame, ?_, hq.refusals⟩
      have hcount := hq.arrivals
      have hw := arrivals_step hw'
      have ht := arrivals_step ht'
      simp only
      omega
  | refuse i inside =>
      simp only [CallQueue.step] at h
      split at h
      · exact absurd h (by simp)
      rename_i hfault
      obtain ⟨w₁, hw₁, rfl⟩ := Option.map_eq_some_iff.mp h
      obtain ⟨k, k₁, hk, hk₁, hset⟩ := call_take hw₁
      obtain ⟨l, hl, hlk⟩ := forgetAll_other hq.same hk
      -- a registered object is in `PROCESS`
      have hmem : CallOp.request ∈ k.ops := by
        simp only [Call.takeRefusal] at hk₁
        split at hk₁
        · assumption
        · exact absurd hk₁ (by simp)
      have hlhandler : l.handler = k.handler := by
        show (forget l).handler = (forget k).handler
        rw [hlk]
      have hlops : CallOp.request ∈ l.ops := by
        have : (forget l).ops = (forget k).ops := by rw [hlk]
        exact this ▸ hmem
      obtain ⟨d, hd, hst⟩ : ∃ d, k.handler = some d ∧ d.state = .process := by
        rw [← hlhandler]
        cases hq.staged.stages l (List.mem_of_getElem? hl) with
        | @registered d hst => exact ⟨d, rfl, hst⟩
        | published hst => exact absurd hlops (by simp)
        | answered hst => exact absurd hlops (by simp)
        | deleted => exact absurd hlops (by simp)
      -- so the other side takes a call with the request that is in `request_`
      obtain ⟨t₁, ht₁, heq⟩ := forgetAll_take (g := (·.takeRequest d.request)) hq.same
        (fun x k' l' hx hlx => by
          rw [hk] at hx
          obtain rfl := Option.some.inj hx
          exact forget_takeRefusal hlx hd) hw₁
      have ht : Calls.step base t (.accept i d.request inside)
          = some (t₁.proceed base i inside) := by
        simp only [Calls.step, forgetAll_fault hq.same, hfault, ht₁, Option.map_some]
        rfl
      have hk₁d : k₁.handler = some d := by
        simp only [Call.takeRefusal, if_pos hmem] at hk₁
        obtain rfl := Option.some.inj hk₁
        exact hd
      have hat : w₁.calls[i]? = some k₁ := by rw [hset]; exact set_at hk k₁
      have hrefusals := proceedRefused_noticed base q hat hk₁d hst inside
      refine ⟨.accept i d.request inside, _, ht, staged_step hq.staged ht, ?_, ?_, ?_⟩
      · show forgetAll (w₁.proceed base i inside) = _
        rw [forgetAll_proceed, forgetAll_proceed, heq]
      · have hw₁' : w₁.arrivals = q.calls.arrivals + 0 := by
          refine arrivals_take (fun x x' hx => ?_) hw₁
          simp only [Call.takeRefusal] at hx
          split at hx
          · obtain rfl := Option.some.inj hx; rfl
          · exact absurd hx (by simp)
        have hone := arrivals_step ht
        have hcount := hq.arrivals
        have hproceed := arrivals_proceed base w₁ i inside
        simp only [arrivalsOf] at hone
        rw [hrefusals, List.length_append, List.length_singleton]
        show _ = (w₁.proceed base i inside).arrivals + _
        omega
      · intro r hr
        rw [hrefusals] at hr
        rcases List.mem_append.mp hr with hr | hr
        · exact hq.refusals r hr
        · exact List.mem_singleton.mp hr

/-- **Every run with refusals is matched by one without.** -/
theorem unnoticed_reachable {base : CallDataBase ρ} {q : CallQueue ρ}
    (h : (CallQueue.machine base).Reachable q) : ∃ t, Unnoticed base q t := by
  obtain ⟨t, _, ht⟩ := h.simulate (N := Calls.machine base) (R := Unnoticed base)
    ⟨staged_init, rfl, rfl, fun r hr => absurd hr (by simp [CallQueue.machine])⟩
    (fun q a q' t _ hq _ hs => by
      obtain ⟨b, t', ht', hq'⟩ := unnoticed_step hq hs
      exact ⟨[b], t', by
        show (Calls.step base t b).bind _ = _
        rw [ht']; rfl, hq'⟩)
  exact ⟨t, ht⟩

omit [Inhabited ρ] in
/-- Every call that arrived and every refusal has been published. -/
theorem publishes_of_unnoticed {base : CallDataBase ρ} {q : CallQueue ρ} {t : Calls ρ}
    (h : Unnoticed base q t) : q.calls.publishes = q.calls.arrivals + q.refusals.length := by
  have hsame : q.calls.publishes = t.publishes := by
    have hview : ∀ w : Calls ρ,
        w.publishes = ((forgetAll w).calls.map (·.published.length)).sum := by
      intro w
      simp only [Calls.publishes, forgetAll, List.map_map]
      rfl
    rw [hview q.calls, hview t, h.same]
  have hcalls : t.publishes = t.arrivals := by
    refine congrArg List.sum (List.map_congr_left (fun k hk => ?_))
    rw [(servedOnce_of_stage (h.staged.stages k hk)).published, List.length_map]
  rw [hsame, hcalls, h.arrivals]

/-- What is asked of registrations that bring no call. -/
structure RefusedSilently (q : CallQueue ρ) : Prop where
  /-- Only calls that arrived are published. -/
  arrived : q.calls.publishes ≤ q.calls.arrivals
  /-- A refused registration publishes nothing, registers nothing and frees its handler. -/
  silent : ∀ r ∈ q.refusals, r.published = 0 ∧ r.registered = 0 ∧ r.freed = true

/--
**A call that never arrived is published all the same.** A run treats its refused
registrations as it should exactly if it has none: each one is published, leaves
its handler in place and registers another.
-/
theorem refused_silently_iff [JsonText] (m : Rpc) {q : CallQueue m.Request}
    (h : (CallQueue.machine m.callData).Reachable q) : RefusedSilently q ↔ q.refusals = [] := by
  obtain ⟨t, ht⟩ := unnoticed_reachable h
  have hcount := publishes_of_unnoticed ht
  constructor
  · intro hq
    have hle := hq.arrived
    have hlen : q.refusals.length = 0 := by omega
    exact List.length_eq_zero_iff.mp hlen
  · intro hnone
    refine ⟨?_, ?_⟩
    · rw [hcount, hnone]; simp
    · intro r hr
      rw [hnone] at hr
      exact absurd hr (by simp)

/-- One call is served, and no registration is refused. -/
theorem refused_silently_iff_served :
    ∃ (_ : JsonText) (q : CallQueue StatusRequest),
      (CallQueue.machine (Rpc.callData .sendStatus)).Reachable q
      ∧ q.calls.publishes = 1 ∧ (RefusedSilently q ↔ q.refusals = []) ∧ RefusedSilently q := by
  let _ : JsonText := ⟨fun _ =>
    "\x7b\"status\":\"done\",\"trip_id\":7,\"vinNumber\":\"V1\"\x7d"⟩
  obtain ⟨q, hr, hp⟩ := Machine.exists_reachable_of_run
    (M := CallQueue.machine (Rpc.callData .sendStatus))
    (l := [.call (.accept 0 ⟨"V1", 7, "done"⟩ none), .call (.callback 0 true "ok"),
      .call (.finish 0)])
    (p := fun q => decide (q.calls.publishes = 1 ∧ q.refusals = [])) (by decide)
  obtain ⟨hpub, hnone⟩ := of_decide_eq_true hp
  have hiff := refused_silently_iff .sendStatus hr
  exact ⟨_, q, hr, hpub, hiff, hiff.mpr hnone⟩

/-- The server shuts down while one handler waits: a report of an empty request is published. -/
theorem not_refusedSilently :
    ¬ ∀ (_ : JsonText) (m : Rpc) (q : CallQueue m.Request),
      (CallQueue.machine m.callData).Reachable q → RefusedSilently q := by
  intro h
  let _ : JsonText := ⟨fun _ =>
    "\x7b\"status\":\"\",\"trip_id\":0,\"vinNumber\":\"\"\x7d"⟩
  obtain ⟨q, hr, hp⟩ := Machine.exists_reachable_of_run
    (M := CallQueue.machine (Rpc.callData .sendStatus)) (l := [.refuse 0 none])
    (p := fun q => decide (q.calls.arrivals < q.calls.publishes)) (by decide)
  have hlt : q.calls.arrivals < q.calls.publishes := of_decide_eq_true hp
  have hle := (h _ .sendStatus q hr).arrived
  omega

end CloudGateway.Proof
