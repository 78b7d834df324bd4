import CloudGateway.Lib.Fleet
import CloudGateway.Services.CallData

/-!
# The life cycle of a unary call

A call object passes through four stages, and `Stage` gives for each the whole
record: registered; published, with the callback outstanding; answered, with
`Finish` outstanding; and deleted. A step moves one object on by one stage, or by
two where `publish_` invokes its callback itself, and an object that leaves the
first stage leaves a fresh one in it.
-/

namespace CloudGateway.Proof

open Services Proto Reactive

variable {ρ : Type}

/-- What a call is answered with: the response and the status both say how the publish went. -/
def answer (ok : Bool) (err : String) : Response × Status :=
  let message := if ok then "ok" else "mqtt publish failed: " ++ err
  ({ success := ok, message := message }, if ok then .ok else .internal message)

/-- The object is registered. -/
def isRegistered (k : Call ρ) : Bool := decide (.request ∈ k.ops)

/-- The stages of a call object. -/
inductive Stage (base : CallDataBase ρ) : Call ρ → Prop where
  | registered {d : CallData ρ} (hst : d.state = .process) :
      Stage base
        { handler := some d, ops := [.request], callbacks := 0, accepted := [], published := [],
          reported := [], finished := [], completions := [], deletes := 0 }
  | published {d : CallData ρ} {r : ρ} (hst : d.state = .finish) :
      Stage base
        { handler := some d, ops := [], callbacks := 1, accepted := [r]
          published := [(base.mqttTopic, base.buildPayload r)], reported := [], finished := []
          completions := [.request], deletes := 0 }
  | answered {d : CallData ρ} {r : ρ} {ok : Bool} {err : String} (hst : d.state = .finish) :
      Stage base
        { handler := some d, ops := [.finish], callbacks := 0, accepted := [r]
          published := [(base.mqttTopic, base.buildPayload r)], reported := [(ok, err)]
          finished := [answer ok err], completions := [.request], deletes := 0 }
  | deleted {r : ρ} {ok : Bool} {err : String} :
      Stage base
        { handler := none, ops := [], callbacks := 0, accepted := [r]
          published := [(base.mqttTopic, base.buildPayload r)], reported := [(ok, err)]
          finished := [answer ok err], completions := [.request, .finish], deletes := 1 }

/-! ## One object moves on -/

/-- The callback answers a published call. -/
theorem stage_callback {base : CallDataBase ρ} {k : Call ρ} (h : Stage base k)
    (hcb : 0 < k.callbacks) (ok : Bool) (err : String) :
    k.handler.isSome = true ∧ Stage base (k.callback ok err)
      ∧ isRegistered k = false ∧ isRegistered (k.callback ok err) = false := by
  cases h with
  | registered hst => exact absurd hcb (by simp)
  | answered hst => exact absurd hcb (by simp)
  | deleted => exact absurd hcb (by simp)
  | @published d r hst =>
      refine ⟨rfl, ?_, rfl, by cases ok <;> rfl⟩
      cases ok <;> exact Stage.answered hst

/-- A request that arrives is published. -/
theorem stage_accept {base : CallDataBase ρ} {k k₁ : Call ρ} {r : ρ} (h : Stage base k)
    (ht : k.takeRequest r = some k₁) :
    isRegistered k = true ∧ (∃ d, k₁.handler = some d ∧ d.state = .process)
      ∧ Stage base (k₁.process base) ∧ isRegistered (k₁.process base) = false
      ∧ 0 < (k₁.process base).callbacks := by
  unfold Call.takeRequest at ht
  cases h with
  | @registered d hst =>
      obtain rfl := Option.some.inj ht
      exact ⟨rfl, ⟨_, rfl, hst⟩, Stage.published rfl, rfl, Nat.one_pos⟩
  | published hst => exact absurd ht (by simp)
  | answered hst => exact absurd ht (by simp)
  | deleted => exact absurd ht (by simp)

/-- The completion of `Finish` deletes an answered call. -/
theorem stage_finish {base : CallDataBase ρ} {k k₁ : Call ρ} (h : Stage base k)
    (ht : k.takeFinish = some k₁) :
    isRegistered k = false ∧ (∃ d, k₁.handler = some d ∧ d.state = .finish)
      ∧ Stage base k₁.free ∧ isRegistered k₁.free = false := by
  unfold Call.takeFinish at ht
  cases h with
  | registered hst => exact absurd ht (by simp)
  | published hst => exact absurd ht (by simp)
  | answered hst =>
      obtain rfl := Option.some.inj ht
      exact ⟨rfl, ⟨_, rfl, hst⟩, Stage.deleted, rfl⟩
  | deleted => exact absurd ht (by simp)

/-! ## The shared operations, on an object that still exists -/

section Shared

variable {w : Calls ρ} {i : Nat} {k : Call ρ} {d : CallData ρ}

theorem call_handler_of (hk : w.calls[i]? = some k) : w.handler i = k.handler := by
  simp [Calls.handler, hk]

theorem call_take {f : Call ρ → Option (Call ρ)} {w₁ : Calls ρ} (h : w.take i f = some w₁) :
    ∃ k k₁, w.calls[i]? = some k ∧ f k = some k₁
      ∧ w₁ = { w with calls := w.calls.set i k₁ } := by
  obtain ⟨k, hk, h⟩ := Option.bind_eq_some_iff.mp h
  obtain ⟨k₁, hk₁, rfl⟩ := Option.map_eq_some_iff.mp h
  exact ⟨k, k₁, hk, hk₁, rfl⟩

theorem call_callback (hk : w.calls[i]? = some k) (hlive : k.handler.isSome = true) (ok : Bool)
    (err : String) : w.callback i ok err = { w with calls := w.calls.set i (k.callback ok err) } := by
  obtain ⟨d, hd⟩ := Option.isSome_iff_exists.mp hlive
  simp only [Calls.callback, call_handler_of hk, hd, Calls.modify, modify_at hk]

variable [Inhabited ρ] {base : CallDataBase ρ}

theorem call_proceed_finish (hk : w.calls[i]? = some k) (hd : k.handler = some d)
    (hst : d.state = .finish) (inside : Option (Bool × String)) :
    w.proceed base i inside = { w with calls := w.calls.set i k.free } := by
  simp only [Calls.proceed, call_handler_of hk, hd, hst, Calls.modify, modify_at hk]

variable (base) in
/-- `Proceed` in `PROCESS`, up to the call of `publish_`: the sibling is at a new address. -/
theorem call_proceed_process (hk : w.calls[i]? = some k) (hd : k.handler = some d)
    (hst : d.state = .process) (inside : Option (Bool × String)) :
    ∃ w₂ : Calls ρ, w₂ = { w with
        calls := w.calls.set i (k.process base) ++ [Call.construct.register] }
      ∧ w₂.calls[i]? = some (k.process base)
      ∧ w.proceed base i inside = (match inside with
        | none => w₂
        | some (ok, err) => w₂.callback i ok err) := by
  have hk₁ : w.spawn.calls[i]? = some k := by
    show (w.calls ++ _)[i]? = _
    rw [List.getElem?_append_left (address_lt hk)]; exact hk
  have hw₂ : w.spawn.modify i (·.process base) = { w with
      calls := w.calls.set i (k.process base) ++ [Call.construct.register] } := by
    rw [Calls.modify, modify_at hk₁]
    simp only [Calls.spawn, set_append_at hk]
  refine ⟨_, rfl, ?_, ?_⟩
  · have := set_at hk (k.process base)
    rw [List.getElem?_append_left (address_lt this)]; exact this
  · cases inside <;> simp only [Calls.proceed, call_handler_of hk, hd, hst, hw₂]

end Shared

/-! ## What a step can do -/

variable [Inhabited ρ] {base : CallDataBase ρ}

/--
**Every step moves one object on.** It is then no longer registered, and if it
was, there is a fresh registered object.
-/
theorem calls_step_effect {w w' : Calls ρ} {a : Calls.Action ρ}
    (hall : ∀ k ∈ w.calls, Stage base k) (h : Calls.step base w a = some w') :
    ∃ i k k', w.calls[i]? = some k ∧ Stage base k' ∧ isRegistered k' = false
      ∧ w' = { w with
        calls := w.calls.set i k' ++ if isRegistered k then [Call.construct.register] else [] } := by
  unfold Calls.step at h
  split at h
  · exact absurd h (by simp)
  cases a with
  | callback i ok err =>
      obtain ⟨k, hk, h⟩ := Option.bind_eq_some_iff.mp h
      split at h
      case isFalse => exact absurd h (by simp)
      rename_i hcb
      obtain rfl := Option.some.inj h
      obtain ⟨hlive, hstage, hreg, hreg'⟩ :=
        stage_callback (hall k (List.mem_of_getElem? hk)) hcb ok err
      refine ⟨i, k, _, hk, hstage, hreg', ?_⟩
      rw [call_callback hk hlive, hreg]; simp
  | finish i =>
      obtain ⟨w₁, hw₁, rfl⟩ := Option.map_eq_some_iff.mp h
      obtain ⟨k, k₁, hk, hk₁, rfl⟩ := call_take hw₁
      obtain ⟨hreg, ⟨d, hd, hst⟩, hstage, hreg'⟩ :=
        stage_finish (hall k (List.mem_of_getElem? hk)) hk₁
      refine ⟨i, k, _, hk, hstage, hreg', ?_⟩
      rw [call_proceed_finish (set_at hk k₁) hd hst, hreg, List.set_set]; simp
  | accept i r inside =>
      obtain ⟨w₁, hw₁, rfl⟩ := Option.map_eq_some_iff.mp h
      obtain ⟨k, k₁, hk, hk₁, rfl⟩ := call_take hw₁
      obtain ⟨hreg, ⟨d, hd, hst⟩, hstage, hreg', hcb⟩ :=
        stage_accept (hall k (List.mem_of_getElem? hk)) hk₁
      obtain ⟨w₂, hw₂, hat, hproc⟩ := call_proceed_process base
        (w := { w with calls := w.calls.set i k₁ }) (set_at hk k₁) hd hst inside
      rw [hproc]
      cases inside with
      | none =>
          refine ⟨i, k, _, hk, hstage, hreg', ?_⟩
          rw [hw₂, hreg, List.set_set]; simp
      | some p =>
          -- `publish_` invokes the callback before it returns
          obtain ⟨hlive, hstage', _, hreg''⟩ := stage_callback hstage hcb p.1 p.2
          refine ⟨i, k, _, hk, hstage', hreg'', ?_⟩
          show w₂.callback i p.1 p.2 = _
          rw [call_callback hat hlive, hw₂, hreg]
          simp only [if_true, set_append_at (set_at hk _), List.set_set]

/-! ## All calls of one kind -/

/-- Every object is at some stage, and one of them is registered. -/
structure Staged (base : CallDataBase ρ) (w : Calls ρ) : Prop where
  unharmed : w.fault = false
  stages : ∀ k ∈ w.calls, Stage base k
  registered : w.calls.countP isRegistered = 1

theorem stage_spawned : Stage base (Call.construct.register : Call ρ) :=
  Stage.registered (d := { CallData.new with state := .process }) rfl

theorem staged_init : Staged base (Calls.machine base).init where
  unharmed := rfl
  stages := by
    intro k hk
    rw [List.mem_singleton.mp hk]; exact stage_spawned
  registered := rfl

theorem staged_step {w w' : Calls ρ} {a : Calls.Action ρ} (hw : Staged base w)
    (h : Calls.step base w a = some w') : Staged base w' := by
  obtain ⟨i, k, k', hk, hstage, hreg', rfl⟩ := calls_step_effect hw.stages h
  refine ⟨hw.unharmed, ?_, ?_⟩
  · intro x hx
    rcases List.mem_append.mp hx with hx | hx
    · exact (forall_set_at hw.stages hk).mpr hstage x hx
    · split at hx
      · rw [List.mem_singleton.mp hx]; exact stage_spawned
      · exact absurd hx (by simp)
  · have hcount := countP_set_at isRegistered hk k'
    have hone := hw.registered
    have hnew : isRegistered (Call.construct.register : Call ρ) = true := rfl
    rw [hreg', hone, Bool.toNat_false] at hcount
    rw [List.countP_append]
    cases hreg : isRegistered k with
    | false =>
        rw [hreg, Bool.toNat_false] at hcount
        simpa using hcount
    | true =>
        -- the registered object has moved on, and its successor is registered instead
        rw [hreg, Bool.toNat_true] at hcount
        simp only [if_true, List.countP_singleton, hnew]
        omega

theorem staged_reachable {w : Calls ρ} (h : (Calls.machine base).Reachable w) : Staged base w :=
  h.invariant (P := Staged base) staged_init (fun _ _ _ _ hw _ hs => staged_step hw hs)

/-! ## Exactly once -/

/-- What becomes of one call, at any stage. -/
structure ServedOnce (base : CallDataBase ρ) (k : Call ρ) : Prop where
  /-- It is registered until the one call it takes is accepted. -/
  registered : .request ∈ k.ops ↔ k.accepted = []
  accepted : k.accepted.length ≤ 1
  /-- An accepted call is published, once, under its kind's topic and with its own payload. -/
  published : k.published = k.accepted.map (fun r => (base.mqttTopic, base.buildPayload r))
  /-- The callback of that publish is outstanding or has been invoked. -/
  reported : k.callbacks + k.reported.length = k.accepted.length
  /-- Each invocation makes one `Finish`, whose status and response say what it reported. -/
  finished : k.finished = k.reported.map (fun p => answer p.1 p.2)
  /-- That `Finish` is outstanding or has completed. -/
  completed : k.ops.count .finish + k.completions.count .finish = k.finished.length
  /-- The object is deleted once for each completion of `Finish`, and never before. -/
  deletes : k.deletes = k.completions.count .finish
  deleted : k.handler = none ↔ k.deletes = 1
  /-- Once nothing is outstanding, the call has been finished and the object deleted. -/
  settled : k.ops = [] → k.callbacks = 0 → k.finished.length = 1 ∧ k.deletes = 1

omit [Inhabited ρ] in
theorem servedOnce_of_stage {k : Call ρ} (h : Stage base k) : ServedOnce base k := by
  cases h <;> constructor <;> simp

/--
**Exactly once.** Whatever the order in which calls arrive, callbacks are invoked
and `Finish`es complete: no deleted object is used, one object of the kind is
registered and waits for a call, and each call is published once, finished once
with what its callback reported, and deleted once, after its `Finish` completed.
-/
theorem unary_call_once [JsonText] (m : Rpc) {w : Calls m.Request}
    (h : (Calls.machine m.callData).Reachable w) :
    w.fault = false
      ∧ w.calls.countP (fun k => decide (.request ∈ k.ops)) = 1
      ∧ ∀ k ∈ w.calls, ServedOnce m.callData k := by
  have hw := staged_reachable h
  exact ⟨hw.unharmed, hw.registered, fun k hk => servedOnce_of_stage (hw.stages k hk)⟩

/-- One call published and finished, another refused by `publish_` itself. -/
theorem unary_call_once_two :
    ∃ (_ : JsonText) (w : Calls StatusRequest),
      (Calls.machine (Rpc.callData .sendStatus)).Reachable w
      ∧ w.calls.map (·.deletes) = [1, 0, 0]
      ∧ w.calls.countP (fun k => decide (.request ∈ k.ops)) = 1
      ∧ ∀ k ∈ w.calls, ServedOnce statusCallData k := by
  -- what the library prints for the document of this run
  let _ : JsonText := ⟨fun _ =>
    "\x7b\"status\":\"done\",\"trip_id\":7,\"vinNumber\":\"V1\"\x7d"⟩
  obtain ⟨w, hr, hp⟩ := Machine.exists_reachable_of_run
    (M := Calls.machine (Rpc.callData .sendStatus))
    (l := [.accept 0 ⟨"V1", 7, "done"⟩ none,
      .accept 1 ⟨"V1", 7, "done"⟩ (some (false, "MQTT client not started")),
      .callback 0 true "ok", .finish 0])
    (p := fun w => decide (w.calls.map (·.deletes) = [1, 0, 0])) (by decide)
  obtain ⟨_, hone, honce⟩ := unary_call_once .sendStatus hr
  exact ⟨_, w, hr, of_decide_eq_true hp, hone, honce⟩

end CloudGateway.Proof
