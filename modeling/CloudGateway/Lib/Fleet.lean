import CloudGateway.Lib.Machine
import Mathlib.Algebra.BigOperators.Group.List.Basic
import Mathlib.Tactic.Abel

/-!
# Fleets: many copies of one machine

Objects of one kind, created at run time and found by address, as a list in
which the position is the address. An object acts alone, so what holds of every
run of one object holds of every member of a fleet; and a component made of such
objects can be related to a fleet by the simulation rule, whatever else it
contains.
-/

namespace Reactive

/-! ## Objects by address -/

section Address

variable {κ : Type*} {ks : List κ} {i : Nat} {k : κ}

theorem address_lt (h : ks[i]? = some k) : i < ks.length :=
  (List.getElem?_eq_some_iff.mp h).1

/-- Acting on the object at an address replaces it. -/
theorem modify_at (h : ks[i]? = some k) (f : κ → κ) : ks.modify i f = ks.set i (f k) := by
  refine List.ext_getElem? (fun j => ?_)
  rw [List.getElem?_modify]
  by_cases hij : i = j
  · subst hij; rw [h, List.getElem?_set_self (address_lt h)]; simp
  · rw [List.getElem?_set_ne hij]; simp [hij]

/-- A view of the objects under which acting with `f` looks like acting with `g`. -/
theorem map_modify_at {ι : Type*} {v : κ → ι} {f : κ → κ} {g : ι → ι} (h : ∀ k, v (f k) = g (v k))
    (ks : List κ) (i : Nat) : (ks.modify i f).map v = (ks.map v).modify i g := by
  refine List.ext_getElem? (fun j => ?_)
  simp only [List.getElem?_map, List.getElem?_modify]
  cases ks[j]? with
  | none => rfl
  | some k => by_cases hij : i = j <;> simp [hij, h]

/-- The object just written is found at its address. -/
theorem set_at (h : ks[i]? = some k) (k' : κ) : (ks.set i k')[i]? = some k' :=
  List.getElem?_set_self (address_lt h)

/-- Writing back what is already there changes nothing. -/
theorem set_at_eq (h : ks[i]? = some k) : ks.set i k = ks := by
  refine List.ext_getElem? (fun j => ?_)
  by_cases hij : i = j
  · subst hij; rw [set_at h, h]
  · rw [List.getElem?_set_ne hij]

/-- Replacing one of several objects that all have a property. -/
theorem forall_set_at {p : κ → Prop} (hall : ∀ x ∈ ks, p x) (h : ks[i]? = some k) {k' : κ} :
    (∀ x ∈ ks.set i k', p x) ↔ p k' := by
  constructor
  · intro hset
    exact hset k' (List.mem_of_getElem? (set_at h k'))
  · intro hk' x hx
    rcases List.mem_or_eq_of_mem_set hx with hx | rfl
    · exact hall x hx
    · exact hk'

/-- Counting after one object has been replaced. -/
theorem countP_set_at (p : κ → Bool) (h : ks[i]? = some k) (k' : κ) :
    (ks.set i k').countP p + (p k).toNat = ks.countP p + (p k').toNat := by
  obtain ⟨hlt, hget⟩ := List.getElem?_eq_some_iff.mp h
  rw [List.countP_set hlt, hget]
  have hle : (if p k = true then 1 else 0) ≤ ks.countP p := by
    split
    · rename_i hp
      exact List.countP_pos_iff.mpr ⟨k, List.mem_of_getElem? h, hp⟩
    · exact Nat.zero_le _
  cases hpk : p k <;> cases hpk' : p k' <;> simp_all

/-- Totals after one object has been replaced. -/
theorem sum_map_set_at {M : Type*} [AddCommMonoid M] (f : κ → M) (h : ks[i]? = some k) (k' : κ) :
    ((ks.set i k').map f).sum + f k = (ks.map f).sum + f k' := by
  induction ks generalizing i with
  | nil => exact absurd h (by simp)
  | cons x ks ih =>
      cases i with
      | zero =>
          obtain rfl : x = k := by simpa using h
          simp only [List.set_cons_zero, List.map_cons, List.sum_cons]
          abel
      | succ i =>
          have := ih (i := i) (by simpa using h)
          simp only [List.set_cons_succ, List.map_cons, List.sum_cons, add_assoc, this]

/-- Objects after the end do not move the ones before. -/
theorem set_append_at (h : ks[i]? = some k) (k' : κ) (ls : List κ) :
    (ks ++ ls).set i k' = ks.set i k' ++ ls :=
  List.set_append_left i k' (address_lt h)

/-- What any address holds once an object has joined. -/
theorem at_append (ks : List κ) (l : κ) (j : Nat) :
    (ks ++ [l])[j]? = ks[j]? ∨ ks[j]? = none ∧ (ks ++ [l])[j]? = some l := by
  rcases Nat.lt_trichotomy j ks.length with hlt | rfl | hgt
  · exact Or.inl (List.getElem?_append_left hlt)
  · exact Or.inr ⟨List.getElem?_eq_none (Nat.le_refl _), by simp⟩
  · left
    rw [List.getElem?_eq_none (by simp; omega), List.getElem?_eq_none (by omega)]

/-- What another address holds once an object has been replaced and one has joined. -/
theorem at_set_append {j : Nat} {k' l x : κ} (hne : i ≠ j)
    (h : (ks.set i k' ++ [l])[j]? = some x) : ks[j]? = some x ∨ x = l := by
  rcases Nat.lt_or_ge j (ks.set i k').length with hlt | hge
  · rw [List.getElem?_append_left hlt, List.getElem?_set_ne hne] at h
    exact Or.inl h
  · rw [List.getElem?_append_right hge] at h
    exact Or.inr (List.mem_singleton.mp (List.mem_of_getElem? h))

end Address

/-! ## The fleet machine -/

namespace Machine

variable {τ β : Type*}

/-- A fleet's action: one member acts, or a fresh member joins. -/
inductive FleetAction (β : Type*) where
  | act (i : Nat) (b : β)
  | spawn

/-- Any number of copies of `O`, acting in any order; fresh copies join at the end. -/
def fleet (O : Machine τ β) : Machine (List τ) (FleetAction β) where
  init := [O.init]
  step ks
    | .act i b => (ks[i]?).bind (fun k => (O.step k b).map (ks.set i))
    | .spawn => some (ks ++ [O.init])

theorem fleet_step_act {O : Machine τ β} {ks : List τ} {i : Nat} {b : β} {k k' : τ}
    (hk : ks[i]? = some k) (hs : O.step k b = some k') :
    O.fleet.step ks (.act i b) = some (ks.set i k') := by
  simp only [fleet, hk, Option.bind_some, hs, Option.map_some]

/-- **Every member of a fleet runs its own machine.** -/
theorem fleet_members {O : Machine τ β} {ks : List τ} (h : O.fleet.Reachable ks) :
    ∀ k ∈ ks, O.Reachable k := by
  refine ReachableWhen.invariant (P := fun ks => ∀ k ∈ ks, O.Reachable k) ?_ ?_ h
  · intro k hk
    rw [List.mem_singleton.mp hk]; exact .init
  · intro ks a ks' _ ih _ hs
    cases a with
    | act i b =>
        obtain ⟨k, hk, hs⟩ := Option.bind_eq_some_iff.mp hs
        obtain ⟨k', hk', rfl⟩ := Option.map_eq_some_iff.mp hs
        intro x hx
        rcases List.mem_or_eq_of_mem_set hx with hx | rfl
        · exact ih x hx
        · exact (ih k (List.mem_of_getElem? hk)).step hk'
    | spawn =>
        obtain rfl := Option.some.inj hs
        intro x hx
        rcases List.mem_append.mp hx with hx | hx
        · exact ih x hx
        · rw [List.mem_singleton.mp hx]; exact .init

end Machine

end Reactive
