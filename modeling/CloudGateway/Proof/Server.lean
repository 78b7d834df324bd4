import CloudGateway.Proof.CallLifecycle
import CloudGateway.Proof.World
import CloudGateway.Services.GrpcServer

/-!
# The server as it is started

A unary call object serves calls once somebody has called `Proceed` on it; from
then on `unary_call_once` holds. Its constructor does not, unlike that of the
stream handler, and neither does `GrpcServer::start`. So the six objects stay as
they were constructed. The stream side is not affected: it runs as `World` does.
-/

namespace CloudGateway.Proof

open Services Proto Reactive

/-- Of each unary kind, one object is registered and waits for a call. -/
def UnaryServed (s : Server) : Prop := ∀ m, (s.calls m).calls.countP isRegistered = 1

/-- The unary side of the server is as `start` left it. -/
structure Unserved (s : Server) : Prop where
  constructed : ∀ m, s.calls m = .constructed
  waiting : s.waiting = s.called

/-- An object in `CREATE` has nothing outstanding, so gRPC completes nothing for it. -/
theorem take_constructed {ρ : Type} [Inhabited ρ] (i : Nat) (r : ρ) :
    (Calls.constructed : Calls ρ).take i (·.takeRequest r) = none
      ∧ (Calls.constructed : Calls ρ).take i Call.takeFinish = none := by
  cases i <;> simp [Calls.take, Calls.constructed, Call.construct, Call.takeRequest,
    Call.takeFinish]

variable [JsonText]

theorem unserved_step {s s' : Server} {a : Server.Action} (hs : Unserved s)
    (h : s.step a = some s') : Unserved s' := by
  unfold Server.step at h
  split at h
  · exact absurd h (by simp)
  cases a with
  | call c =>
      obtain rfl := Option.some.inj h
      exact ⟨hs.constructed, by simp [hs.waiting]⟩
  | accept i j =>
      -- nobody has registered, so there is nobody to hand the call to
      obtain ⟨c, _, h⟩ := Option.bind_eq_some_iff.mp h
      rw [hs.constructed, (take_constructed i c.request).1] at h
      exact absurd h (by simp)
  | finish m i =>
      -- and nobody has called `Finish`
      simp only at h
      rw [hs.constructed, (take_constructed i default).2] at h
      exact absurd h (by simp)
  | push cmd => obtain rfl := Option.some.inj h; exact ⟨hs.constructed, hs.waiting⟩
  | complete i c =>
      obtain ⟨w, _, rfl⟩ := Option.map_eq_some_iff.mp h
      exact ⟨hs.constructed, hs.waiting⟩

theorem unserved_reachable {s : Server} (h : Server.machine.Reachable s) : Unserved s :=
  h.invariant (P := Unserved) ⟨fun _ => rfl, rfl⟩ (fun _ _ _ _ hs _ => unserved_step hs)

/--
**No unary call is ever served.** In every state the server reaches, no object of
any unary kind is registered, nothing has been published for one, and every
unary call ever made still waits.
-/
theorem unary_never_served {s : Server} (h : Server.machine.Reachable s) :
    ¬ UnaryServed s
      ∧ (∀ m, (s.calls m).calls.countP isRegistered = 0
          ∧ ∀ k ∈ (s.calls m).calls, k.published = [])
      ∧ s.waiting = s.called := by
  have hs := unserved_reachable h
  refine ⟨?_, ?_, hs.waiting⟩
  · intro hserved
    have hone := hserved .sendEta
    rw [hs.constructed] at hone
    exact absurd hone (by simp [Calls.constructed, Call.construct, isRegistered])
  · intro m
    rw [hs.constructed]
    simp [Calls.constructed, Call.construct, isRegistered]

omit [JsonText] in
/-- A client calls `SendStatus` while a vehicle is connected, and the call waits. -/
theorem unary_never_served_status :
    ∃ (_ : JsonText) (s : Server), Server.machine.Reachable s
      ∧ s.streams.active = some 0 ∧ s.waiting.map (·.rpc) = [.sendStatus] ∧ ¬ UnaryServed s := by
  let _ : JsonText := ⟨fun _ => ""⟩
  obtain ⟨s, hr, hp⟩ := Machine.exists_reachable_of_run (M := Server.machine)
    (l := [.complete 0 (.request true), .call ⟨.sendStatus, ⟨"V1", 7, "done"⟩⟩])
    (p := fun s => decide (s.streams.active = some 0 ∧ s.called.map (·.rpc) = [.sendStatus]))
    (by decide)
  obtain ⟨ha, hcalled⟩ := of_decide_eq_true hp
  obtain ⟨hnot, _, hwaiting⟩ := unary_never_served hr
  exact ⟨_, s, hr, ha, hwaiting ▸ hcalled, hnot⟩

omit [JsonText] in
/-- It is so from the start: `start` constructs the six objects and calls `Proceed` on none. -/
theorem not_unaryServed :
    ¬ ∀ (_ : JsonText) (s : Server), Server.machine.Reachable s → UnaryServed s := by
  intro h
  let _ : JsonText := ⟨fun _ => ""⟩
  have hserved := h _ .start (.init (M := Server.machine)) .sendEta
  exact absurd hserved (by decide)

end CloudGateway.Proof
