import CloudGateway.Lib.Machine
import Mathlib.Algebra.Order.Group.Multiset
import Mathlib.Tactic.Abel

/-!
# Store-and-forward relays

What a relay is for, with nothing said about how it works: a message submitted
to it is held until it is delivered, and is delivered once for each time it was
submitted. A concrete queueing component is lossless exactly as far as it can be
simulated by a relay.

Messages need not be distinct, so the three places are multisets.
-/

namespace Reactive

/-- What has been submitted to a relay, what it still holds, what it has delivered. -/
structure Relay (μ : Type*) where
  /-- Everything ever submitted. -/
  submitted : Multiset μ
  /-- Submitted and not yet delivered. -/
  held : Multiset μ
  /-- Everything ever delivered. -/
  delivered : Multiset μ

/-- A message goes in, or a held message goes out. -/
inductive RelayAction (μ : Type*) where
  | submit (m : μ)
  | deliver (m : μ)

namespace Relay

variable {μ : Type*} [DecidableEq μ]

/-- The relay machine: only what is held can be delivered. -/
def machine (μ : Type*) [DecidableEq μ] : Machine (Relay μ) (RelayAction μ) where
  init := ⟨0, 0, 0⟩
  step r
    | .submit m => some { r with submitted := r.submitted + {m}, held := r.held + {m} }
    | .deliver m =>
        if m ∈ r.held then
          some { r with held := r.held.erase m, delivered := r.delivered + {m} }
        else none

/-- **A relay loses nothing and invents nothing.** -/
theorem conserves {r : Relay μ} (h : (machine μ).Reachable r) :
    r.submitted = r.delivered + r.held := by
  refine Machine.ReachableWhen.invariant (P := fun r => r.submitted = r.delivered + r.held)
    rfl ?_ h
  intro r a r' _ ih _ hs
  cases a with
  | submit m =>
      obtain rfl := Option.some.inj hs
      show r.submitted + {m} = r.delivered + (r.held + {m})
      rw [ih]; abel
  | deliver m =>
      simp only [machine] at hs
      split at hs
      · rename_i hm
        obtain rfl := Option.some.inj hs
        show r.submitted = r.delivered + {m} + r.held.erase m
        rw [ih, add_assoc, Multiset.singleton_add, Multiset.cons_erase hm]
      · exact absurd hs (by simp)

end Relay

end Reactive
