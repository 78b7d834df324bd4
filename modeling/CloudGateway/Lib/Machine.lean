import Mathlib.Data.List.Basic
import Mathlib.Tactic.TypeStar

/-!
# Machines that react to actions

A machine has one initial state and a partial step function: `step s a` is the
state after `a`, or `none` where `a` is not enabled. Which actions come, and in
which order, is up to the environment, so a statement about every run of a
machine is a statement about every interleaving of its actions.

`ReachableWhen ok` is reachability along runs all of whose steps meet `ok`, a
condition on the state before the step and on the action. Plain reachability is
the case where `ok` asks for nothing.
-/

namespace Reactive

/-- An initial state, and what each action does where it is enabled. -/
structure Machine (σ α : Type*) where
  /-- The initial state. -/
  init : σ
  /-- The state after an action, `none` where the action is not enabled. -/
  step : σ → α → Option σ

namespace Machine

variable {σ τ α β : Type*}

/-- States reached by runs all of whose steps meet `ok`. -/
inductive ReachableWhen (M : Machine σ α) (ok : σ → α → Prop) : σ → Prop where
  | init : ReachableWhen M ok M.init
  | tail {s s' : σ} {a : α} : ReachableWhen M ok s → ok s a → M.step s a = some s' →
      ReachableWhen M ok s'

/-- States reached by any run. -/
abbrev Reachable (M : Machine σ α) (s : σ) : Prop := M.ReachableWhen (fun _ _ => True) s

theorem ReachableWhen.mono {M : Machine σ α} {ok ok' : σ → α → Prop} {s : σ}
    (h : M.ReachableWhen ok s) (himp : ∀ s a, ok s a → ok' s a) : M.ReachableWhen ok' s := by
  induction h with
  | init => exact .init
  | tail _ hok hs ih => exact .tail ih (himp _ _ hok) hs

theorem ReachableWhen.reachable {M : Machine σ α} {ok : σ → α → Prop} {s : σ}
    (h : M.ReachableWhen ok s) : M.Reachable s :=
  h.mono (fun _ _ _ => trivial)

/-- One more step of an unrestricted run. -/
theorem Reachable.step {M : Machine σ α} {s s' : σ} {a : α}
    (h : M.Reachable s) (hs : M.step s a = some s') : M.Reachable s' :=
  .tail h trivial hs

/--
**The invariant rule.** What holds initially and is kept by every step that
meets `ok` holds of every state such runs reach. The step may use that the state
it starts from is itself reached.
-/
theorem ReachableWhen.invariant {M : Machine σ α} {ok : σ → α → Prop} {P : σ → Prop}
    (hinit : P M.init)
    (hstep : ∀ s a s', M.ReachableWhen ok s → P s → ok s a → M.step s a = some s' → P s')
    {s : σ} (h : M.ReachableWhen ok s) : P s := by
  induction h with
  | init => exact hinit
  | tail hr hok hs ih => exact hstep _ _ _ hr ih hok hs

/-! ## Runs -/

/-- Take the actions of a list in order; `none` if one of them is not enabled. -/
def run (M : Machine σ α) : σ → List α → Option σ
  | s, [] => some s
  | s, a :: as => (M.step s a).bind (fun s' => M.run s' as)

@[simp] theorem run_nil (M : Machine σ α) (s : σ) : M.run s [] = some s := rfl

@[simp] theorem run_cons (M : Machine σ α) (s : σ) (a : α) (as : List α) :
    M.run s (a :: as) = (M.step s a).bind (fun s' => M.run s' as) := rfl

theorem run_append (M : Machine σ α) (s : σ) (as bs : List α) :
    M.run s (as ++ bs) = (M.run s as).bind (fun s' => M.run s' bs) := by
  induction as generalizing s with
  | nil => rfl
  | cons a as ih =>
      rw [List.cons_append, run_cons, run_cons]
      cases M.step s a with
      | none => rfl
      | some s' => exact ih s'

theorem Reachable.run {M : Machine σ α} {s s' : σ} {as : List α}
    (h : M.Reachable s) (hr : M.run s as = some s') : M.Reachable s' := by
  induction as generalizing s with
  | nil => exact Option.some.inj hr ▸ h
  | cons a as ih =>
      rw [run_cons] at hr
      obtain ⟨t, ht, hr'⟩ := Option.bind_eq_some_iff.mp hr
      exact ih (h.step ht) hr'

theorem reachable_of_run {M : Machine σ α} {s : σ} {as : List α}
    (h : M.run M.init as = some s) : M.Reachable s :=
  Reachable.run .init h

/--
**The run rule.** What holds of the empty run, and of a run from a reachable
state whenever it holds of that run without its first step, holds of every run
from a reachable state whose actions meet `ok`.
-/
theorem Reachable.run_rule {M : Machine σ α} {ok : α → Prop} {P : σ → List α → σ → Prop}
    (hnil : ∀ s, P s [] s)
    (hcons : ∀ s a s' as t, M.Reachable s → ok a → M.step s a = some s' → P s' as t →
      P s (a :: as) t)
    {s t : σ} {as : List α} (h : M.Reachable s) (hok : ∀ a ∈ as, ok a)
    (hrun : M.run s as = some t) : P s as t := by
  induction as generalizing s with
  | nil => exact Option.some.inj hrun ▸ hnil s
  | cons a as ih =>
      rw [run_cons] at hrun
      obtain ⟨s', hs, hrun'⟩ := Option.bind_eq_some_iff.mp hrun
      refine hcons s a s' as t h (hok a List.mem_cons_self) hs ?_
      exact ih (h.step hs) (fun b hb => hok b (List.mem_cons_of_mem a hb)) hrun'

/--
**The completion rule.** If from every state of `I` that is not done some action
meeting `ok` is enabled, keeps `I` and lowers `f`, then a run of such actions
leads from any state of `I` to one that is done.
-/
theorem exists_run_of_progress {M : Machine σ α} {ok : α → Prop} {I D : σ → Prop} (f : σ → Nat)
    (hprog : ∀ s, I s → ¬ D s → ∃ a s', ok a ∧ M.step s a = some s' ∧ I s' ∧ f s' < f s)
    {s : σ} (h : I s) : ∃ as t, (∀ a ∈ as, ok a) ∧ M.run s as = some t ∧ I t ∧ D t := by
  induction hn : f s using Nat.strongRecOn generalizing s with
  | ind n ih =>
      by_cases hD : D s
      · exact ⟨[], s, by simp, rfl, h, hD⟩
      · obtain ⟨a, s', hok, hs, hI, hlt⟩ := hprog s h hD
        obtain ⟨as, t, hoks, hrun, hIt, hDt⟩ := ih (f s') (hn ▸ hlt) hI rfl
        refine ⟨a :: as, t, ?_, by simp [hs, hrun], hIt, hDt⟩
        intro b hb
        rcases List.mem_cons.mp hb with rfl | hb
        · exact hok
        · exact hoks b hb

/-- A run that ends in a state passing the test `p` reaches such a state. -/
theorem exists_reachable_of_run {M : Machine σ α} {l : List α} {p : σ → Bool}
    (h : (M.run M.init l).any p = true) : ∃ s, M.Reachable s ∧ p s = true := by
  cases hr : M.run M.init l with
  | none => rw [hr] at h; exact absurd h (by simp)
  | some s => rw [hr] at h; exact ⟨s, reachable_of_run hr, h⟩

/-! ## Restriction -/

/-- The machine that refuses the steps that do not meet `ok`. -/
def restrict (M : Machine σ α) (ok : σ → α → Prop) [∀ s a, Decidable (ok s a)] : Machine σ α where
  init := M.init
  step s a := if ok s a then M.step s a else none

/-- What the restricted machine reaches is reached by steps that meet `ok`. -/
theorem reachableWhen_of_restrict {M : Machine σ α} {ok : σ → α → Prop}
    [∀ s a, Decidable (ok s a)] {s : σ} (h : (M.restrict ok).Reachable s) :
    M.ReachableWhen ok s := by
  refine ReachableWhen.invariant (M := M.restrict ok) (P := M.ReachableWhen ok) .init ?_ h
  intro s a s' _ ih _ hs
  simp only [restrict] at hs
  split at hs
  · exact .tail ih (by assumption) hs
  · exact absurd hs (by simp)

/-- A run of the restricted machine that ends in a state passing the test `p`. -/
theorem exists_reachableWhen_of_run {M : Machine σ α} {Q : σ → α → Prop}
    [∀ s a, Decidable (Q s a)] {l : List α} {p : σ → Bool}
    (h : ((M.restrict Q).run M.init l).any p = true) : ∃ s, M.ReachableWhen Q s ∧ p s = true := by
  obtain ⟨s, hs, hp⟩ := exists_reachable_of_run (M := M.restrict Q) h
  exact ⟨s, reachableWhen_of_restrict hs, hp⟩

/-! ## Simulation -/

/--
**The simulation rule.** If `R` relates the initial states, and every step of
`M` that meets `ok` is matched by a run of `N`, possibly empty, then every state
of `M` reached under `ok` is related to a reachable state of `N`.
-/
theorem ReachableWhen.simulate {M : Machine σ α} {N : Machine τ β} {ok : σ → α → Prop}
    {R : σ → τ → Prop} (hinit : R M.init N.init)
    (hstep : ∀ s a s' t, M.ReachableWhen ok s → R s t → ok s a → M.step s a = some s' →
      ∃ bs t', N.run t bs = some t' ∧ R s' t')
    {s : σ} (h : M.ReachableWhen ok s) : ∃ t, N.Reachable t ∧ R s t := by
  induction h with
  | init => exact ⟨N.init, .init, hinit⟩
  | tail hr hok hs ih =>
      obtain ⟨t, ht, hR⟩ := ih
      obtain ⟨bs, t', hrun, hR'⟩ := hstep _ _ _ t hr hR hok hs
      exact ⟨t', ht.run hrun, hR'⟩

end Machine

end Reactive
