import CloudGateway.Lib.Machine
import Mathlib.Data.List.Forall2

/-!
# Handing a stream of messages from receiver to receiver

What a component with one receiver at a time is for, with nothing said about how
it works. A message goes to the receiver in office; while there is none it waits,
and the next one to take over is given all that has waited. So the messages are
dealt out in blocks, one for each receiver, and the blocks in the order of the
take-overs, followed by what waits, are the messages in the order in which they
were submitted.

A receiver passes its messages on in its own time, and may stop before its end.
What all of them together have passed on is then still in the order of submission.
-/

namespace Reactive

/-- Messages, and whom they have been given to. -/
structure Handoff (μ : Type*) where
  /-- Everything ever submitted, in order. -/
  submitted : List μ
  /-- What each receiver has been given, the latest receiver first. -/
  blocks : List (List μ)
  /-- Given to nobody yet. -/
  waiting : List μ
  /-- The latest receiver is still in office. -/
  serving : Bool

inductive HandoffAction (μ : Type*) where
  | submit (m : μ)
  | takeOver
  | leave

namespace Handoff

variable {μ : Type*}

/-- A message arrives. -/
def submit (r : Handoff μ) (m : μ) : Handoff μ :=
  let r := { r with submitted := r.submitted ++ [m] }
  match r.serving, r.blocks with
  | true, b :: bs => { r with blocks := (b ++ [m]) :: bs }
  | _, _ => { r with waiting := r.waiting ++ [m] }

/-- A new receiver takes over, and with it what has waited. -/
def takeOver (r : Handoff μ) : Handoff μ :=
  { r with blocks := r.waiting :: r.blocks, waiting := [], serving := true }

/-- The receiver leaves. -/
def leave (r : Handoff μ) : Handoff μ := { r with serving := false }

/-- Messages, take-overs and departures in any order. -/
def machine (μ : Type*) : Machine (Handoff μ) (HandoffAction μ) where
  init := { submitted := [], blocks := [], waiting := [], serving := false }
  step r
    | .submit m => some (r.submit m)
    | .takeOver => some r.takeOver
    | .leave => some r.leave

theorem submit_waiting {r : Handoff μ} (h : r.serving = false) (m : μ) :
    r.submit m = { r with
      submitted := r.submitted ++ [m]
      waiting := r.waiting ++ [m] } := by
  simp only [submit, h]

theorem submit_serving {r : Handoff μ} {b : List μ} {bs : List (List μ)}
    (h : r.serving = true) (hb : r.blocks = b :: bs) (m : μ) :
    r.submit m = { r with
      submitted := r.submitted ++ [m]
      blocks := (b ++ [m]) :: bs } := by
  simp only [submit, h, hb]

/-- The messages are where they should be. -/
structure InOrder (r : Handoff μ) : Prop where
  order : r.submitted = r.blocks.reverse.flatten ++ r.waiting
  /-- A receiver in office leaves nothing waiting. -/
  served : r.serving = true → r.waiting = [] ∧ r.blocks ≠ []

theorem InOrder.submit {r : Handoff μ} (h : InOrder r) (m : μ) : InOrder (r.submit m) := by
  cases hs : r.serving with
  | false =>
      rw [submit_waiting hs]
      refine ⟨?_, ?_⟩
      · show r.submitted ++ [m] = r.blocks.reverse.flatten ++ (r.waiting ++ [m])
        rw [h.order, List.append_assoc]
      · intro hserving
        exact absurd (hs.symm.trans hserving) (by simp)
  | true =>
      obtain ⟨hw, hne⟩ := h.served hs
      obtain ⟨b, bs, hb⟩ := List.exists_cons_of_ne_nil hne
      rw [submit_serving hs hb]
      refine ⟨?_, fun _ => ⟨hw, by simp⟩⟩
      show r.submitted ++ [m] = ((b ++ [m]) :: bs).reverse.flatten ++ r.waiting
      rw [h.order, hb, hw]
      simp

/-- **The blocks, one after the other, are what was submitted.** -/
theorem inOrder_reachable {r : Handoff μ} (h : (machine μ).Reachable r) : InOrder r := by
  refine h.invariant (P := InOrder) ⟨rfl, by simp [machine]⟩ ?_
  intro r a r' _ ih _ hs
  cases a with
  | submit m => exact Option.some.inj hs ▸ ih.submit m
  | takeOver =>
      obtain rfl := Option.some.inj hs
      refine ⟨?_, fun _ => ⟨rfl, by simp [takeOver]⟩⟩
      show r.submitted = (r.waiting :: r.blocks).reverse.flatten ++ []
      rw [ih.order]
      simp
  | leave =>
      obtain rfl := Option.some.inj hs
      exact ⟨ih.order, fun hserving => absurd hserving (by simp [leave])⟩

/-- Receivers that have each passed on the beginning of their block have together kept the order. -/
theorem flatten_sublist {passed blocks : List (List μ)}
    (h : List.Forall₂ (fun xs b => xs <+: b) passed blocks) :
    passed.flatten.Sublist blocks.flatten := by
  induction h with
  | nil => exact List.Sublist.refl _
  | cons hx _ ih => exact hx.sublist.append ih

end Handoff

end Reactive
