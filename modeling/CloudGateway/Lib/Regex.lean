import Mathlib.Data.List.Basic
import Mathlib.Tactic.TypeStar

/-!
# Backtracking regular expressions

A backtracking matcher tries the alternatives of an expression in a fixed order
and gives the rest of the text to a continuation; where the continuation fails it
comes back and tries the next one. Quantifiers are greedy: one more iteration
first, none after that, and an iteration that consumes nothing does not count. So
the first way to match decides what the groups capture.

Two kinds of rules say what a match is. Where the greedy choice is one the
continuation accepts, it is the one that is made. And whatever choice is made, what
has been consumed is a word of the expression (`run_sound`), so a text that has no
word in front is rejected.
-/

/-- Expressions over an alphabet. -/
inductive Regex (α : Type*) where
  | empty
  /-- One character. -/
  | set (p : α → Bool)
  | seq (r q : Regex α)
  /-- `r?` -/
  | opt (r : Regex α)
  /-- `r*` -/
  | star (r : Regex α)
  /-- The `n`-th capturing group. -/
  | group (n : Nat) (r : Regex α)

namespace Regex

variable {α β : Type*}

/-- What the groups have captured, the latest first. -/
abbrev Captures (α : Type*) := List (Nat × List α)

/-- The text of a group, empty if the group has taken no part. -/
def Captures.text (c : Captures α) (n : Nat) : List α := (c.lookup n).getD []

/-! ## Derived expressions -/

/-- One after the other. -/
def cat : List (Regex α) → Regex α
  | [] => empty
  | r :: rs => seq r (cat rs)

/-- A fixed text. -/
def lit [BEq α] (t : List α) : Regex α := cat (t.map (fun x => set (· == x)))

/-- `r+` -/
def plus (r : Regex α) : Regex α := seq r (star r)

/-! ## The matcher -/

/-- What is done with the rest of the text. -/
abbrev Continuation (α β : Type*) := List α → Captures α → Option β

/-- Go on only if something of `s` has been consumed. -/
def onProgress (s : List α) (k : Continuation α β) : Continuation α β :=
  fun s' c => if s'.length < s.length then k s' c else none

/-- At most `n` iterations, as many as possible first. -/
def iterate (body : List α → Captures α → Continuation α β → Option β) :
    Nat → List α → Captures α → Continuation α β → Option β
  | 0, s, c, k => k s c
  | n + 1, s, c, k =>
      (body s c (onProgress s (fun s' c' => iterate body n s' c' k))).orElse (fun _ => k s c)

/-- Match the front of `s`, and give the rest to `k`. -/
def run : Regex α → List α → Captures α → Continuation α β → Option β
  | empty, s, c, k => k s c
  | set _, [], _, _ => none
  | set p, x :: s, c, k => if p x then k s c else none
  | seq r q, s, c, k => r.run s c (fun s' c' => q.run s' c' k)
  | opt r, s, c, k => (r.run s c (onProgress s k)).orElse (fun _ => k s c)
  | star r, s, c, k => iterate r.run s.length s c k
  | group n r, s, c, k =>
      r.run s c (fun s' c' => k s' ((n, s.take (s.length - s'.length)) :: c'))

/-- The end of a match of the whole text. -/
def finish : Continuation α (Captures α)
  | [], c => some c
  | _ :: _, _ => none

/-- The captures of the first match of the whole text. -/
def fullMatch (r : Regex α) (s : List α) : Option (Captures α) := r.run s [] finish

/-! ## Rules for what is matched -/

section Rules

variable {p : α → Bool} {r q : Regex α} {s t : List α} {c : Captures α} {k : Continuation α β}
  {b : β}

@[simp] theorem run_empty : (empty : Regex α).run s c k = k s c := rfl

@[simp] theorem run_seq : (seq r q).run s c k = r.run s c (fun s' c' => q.run s' c' k) := rfl

@[simp] theorem run_cat_nil : (cat [] : Regex α).run s c k = k s c := rfl

@[simp] theorem run_cat_cons {rs : List (Regex α)} :
    (cat (r :: rs)).run s c k = r.run s c (fun s' c' => (cat rs).run s' c' k) := rfl

/-- A text in front is consumed. -/
@[simp] theorem run_lit_append [BEq α] [ReflBEq α] (t : List α) :
    (lit t).run (t ++ s) c k = k s c := by
  induction t with
  | nil => rfl
  | cons x t ih =>
      simp only [lit, List.map_cons, List.cons_append, run_cat_cons, run, beq_self_eq_true, if_true]
      exact ih

/-- A text that is not in front is not matched. -/
theorem run_lit_of_not_prefix [BEq α] [LawfulBEq α] (t : List α) (h : ¬ t <+: s) :
    (lit t).run s c k = none := by
  induction t generalizing s with
  | nil => exact absurd List.nil_prefix h
  | cons x t ih =>
      cases s with
      | nil => rfl
      | cons y s =>
          simp only [lit, List.map_cons, run_cat_cons, run]
          split
          · rename_i hyx
            refine ih (fun ht => h ?_)
            rw [eq_of_beq hyx]
            exact List.cons_prefix_cons.mpr ⟨rfl, ht⟩
          · rfl

/-- What has been consumed, once everything in `p` has. -/
theorem take_dropWhile (p : α → Bool) (s : List α) :
    s.take (s.length - (s.dropWhile p).length) = s.takeWhile p := by
  have hsplit := List.takeWhile_append_dropWhile (p := p) (l := s)
  have hlen := congrArg List.length hsplit
  rw [List.length_append] at hlen
  have htake : s.length - (s.dropWhile p).length = (s.takeWhile p).length := by omega
  rw [htake]
  exact List.prefix_iff_eq_take.mp (List.takeWhile_prefix p) |>.symm

/-- The longest run of `p` is tried first. -/
theorem iterate_set_greedy (h : k (s.dropWhile p) c = some b) {n : Nat} (hn : s.length ≤ n) :
    iterate (set p).run n s c k = some b := by
  induction n generalizing s with
  | zero =>
      obtain rfl := List.length_eq_zero_iff.mp (Nat.le_zero.mp hn)
      exact h
  | succ n ih =>
      cases s with
      | nil => exact h
      | cons x s =>
          simp only [iterate, run]
          by_cases hx : p x
          · have hlt : s.length < (x :: s).length := Nat.lt_succ_self _
            rw [List.dropWhile_cons_of_pos hx] at h
            simp only [hx, if_true, onProgress, hlt]
            rw [ih h (by simpa using hn)]
            rfl
          · rw [List.dropWhile_cons_of_neg hx] at h
            simp only [hx, Bool.false_eq_true, if_false]
            exact h

/-- `p*` takes all it can, if what is left is accepted. -/
theorem run_star_set (h : k (s.dropWhile p) c = some b) : (star (set p)).run s c k = some b :=
  iterate_set_greedy h (Nat.le_refl _)

/-- `p+` takes all it can, if that is something and what is left is accepted. -/
theorem run_plus_set (hne : s.takeWhile p ≠ []) (h : k (s.dropWhile p) c = some b) :
    (plus (set p)).run s c k = some b := by
  cases s with
  | nil => exact absurd rfl hne
  | cons x s =>
      by_cases hx : p x
      · rw [List.dropWhile_cons_of_pos hx] at h
        simp only [plus, run_seq, run, hx, if_true]
        exact run_star_set h
      · rw [List.takeWhile_cons_of_neg hx] at hne
        exact absurd rfl hne

theorem not_of_takeWhile_nil {x : α} (hnil : (x :: s).takeWhile p = []) : ¬ p x := by
  intro hx
  rw [List.takeWhile_cons_of_pos hx] at hnil
  exact List.cons_ne_nil _ _ hnil

/-- `p+` needs something in `p`. -/
theorem run_plus_set_of_nil (hnil : s.takeWhile p = []) : (plus (set p)).run s c k = none := by
  cases s with
  | nil => rfl
  | cons x s =>
      have hx := not_of_takeWhile_nil hnil
      simp only [plus, run_seq, run, hx, Bool.false_eq_true, if_false]

/-- A group remembers what its expression has consumed. -/
theorem run_group {n : Nat} : (group n r).run s c k
    = r.run s c (fun s' c' => k s' ((n, s.take (s.length - s'.length)) :: c')) := rfl

/-- `r?` takes `r` where that is accepted. -/
theorem run_opt_of_some (h : r.run s c (onProgress s k) = some b) :
    (opt r).run s c k = some b := by
  simp only [run, h, Option.orElse]

/-- `r?` takes nothing where `r` cannot be taken. -/
theorem run_opt_of_none (h : r.run s c (onProgress s k) = none) : (opt r).run s c k = k s c := by
  simp only [run, h, Option.orElse]

/-- `p*` takes nothing where `p` does not begin. -/
theorem run_star_set_of_nil (hnil : s.takeWhile p = []) : (star (set p)).run s c k = k s c := by
  cases s with
  | nil => rfl
  | cons x s =>
      have hx := not_of_takeWhile_nil hnil
      simp only [run, List.length_cons, iterate, hx, Bool.false_eq_true, if_false]
      rfl

/-- `(p*)?` takes all it can. Where that is nothing, the group takes no part. -/
theorem run_opt_group_star {n : Nat}
    (h : k (s.dropWhile p) (if s.takeWhile p = [] then c else (n, s.takeWhile p) :: c) = some b) :
    (opt (group n (star (set p)))).run s c k = some b := by
  by_cases hnil : s.takeWhile p = []
  · have hdrop : s.dropWhile p = s := by
      have hsplit := List.takeWhile_append_dropWhile (p := p) (l := s)
      rwa [hnil, List.nil_append] at hsplit
    rw [if_pos hnil, hdrop] at h
    rw [run_opt_of_none, h]
    rw [run_group, run_star_set_of_nil hnil, onProgress, if_neg (Nat.lt_irrefl _)]
  · rw [if_neg hnil] at h
    refine run_opt_of_some ?_
    rw [run_group]
    refine run_star_set ?_
    have hlt : (s.dropWhile p).length < s.length := by
      have hlen := congrArg List.length (List.takeWhile_append_dropWhile (p := p) (l := s))
      have hpos := List.length_pos_iff.mpr hnil
      rw [List.length_append] at hlen
      omega
    rw [onProgress, if_pos hlt, take_dropWhile, h]

end Rules

/-! ## What is consumed is a word -/

/-- The words of an expression. -/
inductive Word : Regex α → List α → Prop where
  | empty : Word empty []
  | set {p : α → Bool} {x : α} (hx : p x = true) : Word (set p) [x]
  | seq {r q : Regex α} {u v : List α} (hr : Word r u) (hq : Word q v) : Word (seq r q) (u ++ v)
  | skip {r : Regex α} : Word (opt r) []
  | take {r : Regex α} {u : List α} (hr : Word r u) : Word (opt r) u
  | done {r : Regex α} : Word (star r) []
  | more {r : Regex α} {u v : List α} (hr : Word r u) (hs : Word (star r) v) :
      Word (star r) (u ++ v)
  | group {n : Nat} {r : Regex α} {u : List α} (hr : Word r u) : Word (group n r) u

/-- A word has been consumed, and the rest has been accepted. -/
def Consumed (r : Regex α) (s : List α) (k : Continuation α β) (b : β) : Prop :=
  ∃ u t c, s = u ++ t ∧ Word r u ∧ k t c = some b

theorem onProgress_some {s t : List α} {c : Captures α} {k : Continuation α β} {b : β}
    (h : onProgress s k t c = some b) : k t c = some b := by
  simp only [onProgress] at h
  split at h
  · exact h
  · exact absurd h (by simp)

/-- One of two attempts has succeeded. -/
theorem orElse_some {o o' : Option β} {b : β} (h : o.orElse (fun _ => o') = some b) :
    o = some b ∨ o' = some b := by
  cases o with
  | none => exact .inr h
  | some x => exact .inl h

/-- **Whatever the matcher accepts, it has consumed a word and its continuation the rest.** -/
theorem run_sound {r : Regex α} {s : List α} {c : Captures α} {k : Continuation α β} {b : β}
    (h : r.run s c k = some b) : Consumed r s k b := by
  induction r generalizing s c k with
  | empty => exact ⟨[], s, c, rfl, .empty, h⟩
  | set p =>
      cases s with
      | nil => exact absurd h (by simp [run])
      | cons x s =>
          simp only [run] at h
          split at h
          · rename_i hx
            exact ⟨[x], s, c, rfl, .set hx, h⟩
          · exact absurd h (by simp)
  | seq r q ihr ihq =>
      obtain ⟨u, t, c', rfl, hu, h⟩ := ihr h
      obtain ⟨v, t, c'', rfl, hv, h⟩ := ihq h
      exact ⟨u ++ v, t, c'', (List.append_assoc _ _ _).symm, .seq hu hv, h⟩
  | opt r ih =>
      rcases orElse_some h with h | h
      · obtain ⟨u, t, c', rfl, hu, h⟩ := ih h
        exact ⟨u, t, c', rfl, .take hu, onProgress_some h⟩
      · exact ⟨[], s, c, rfl, .skip, h⟩
  | star r ih =>
      have hloop : ∀ (n : Nat) {s : List α} {c : Captures α},
          iterate r.run n s c k = some b → Consumed (star r) s k b := by
        intro n
        induction n with
        | zero => exact fun {s c} h => ⟨[], s, c, rfl, .done, h⟩
        | succ n ihn =>
            intro s c h
            rcases orElse_some h with h | h
            · obtain ⟨u, t, c', rfl, hu, h⟩ := ih h
              obtain ⟨v, t, c'', rfl, hv, h⟩ := ihn (onProgress_some h)
              exact ⟨u ++ v, t, c'', (List.append_assoc _ _ _).symm, .more hu hv, h⟩
            · exact ⟨[], s, c, rfl, .done, h⟩
      exact hloop _ h
  | group n r ih =>
      obtain ⟨u, t, c', rfl, hu, h⟩ := ih h
      exact ⟨u, t, _, rfl, .group hu, h⟩

/-- **A text that is matched as a whole is a word.** -/
theorem word_of_fullMatch {r : Regex α} {s : List α} {c : Captures α}
    (h : r.fullMatch s = some c) : Word r s := by
  obtain ⟨u, t, c', rfl, hu, h⟩ := run_sound h
  cases t with
  | nil => rw [List.append_nil]; exact hu
  | cons x t => exact absurd h (by simp [finish])

/-! ### Words of the derived expressions -/

theorem word_cat_nil {s : List α} (h : Word (cat []) s) : s = [] := by
  cases h with
  | empty => rfl

theorem word_cat_cons {r : Regex α} {rs : List (Regex α)} {s : List α}
    (h : Word (cat (r :: rs)) s) : ∃ u v, s = u ++ v ∧ Word r u ∧ Word (cat rs) v := by
  cases h with
  | seq hr hq => exact ⟨_, _, rfl, hr, hq⟩

theorem word_lit [BEq α] [LawfulBEq α] {t s : List α} (h : Word (lit t) s) : s = t := by
  induction t generalizing s with
  | nil => exact word_cat_nil h
  | cons x t ih =>
      obtain ⟨u, v, rfl, hu, hv⟩ := word_cat_cons h
      cases hu with
      | set hx => rw [eq_of_beq hx, ih hv]; rfl

theorem word_group {n : Nat} {r : Regex α} {s : List α} (h : Word (group n r) s) : Word r s := by
  cases h with
  | group hr => exact hr

theorem word_opt {r : Regex α} {s : List α} (h : Word (opt r) s) : s = [] ∨ Word r s := by
  cases h with
  | skip => exact .inl rfl
  | take hr => exact .inr hr

/-- An optional group behind a mark: nothing, or the mark and what the group consumes. -/
theorem word_opt_marked [BEq α] [LawfulBEq α] {n : Nat} {t s : List α} {r : Regex α}
    (h : Word (opt (cat [lit t, group n r])) s) : s = [] ∨ ∃ u, s = t ++ u ∧ Word r u := by
  rcases word_opt h with rfl | h
  · exact .inl rfl
  · obtain ⟨v, s, rfl, hv, h⟩ := word_cat_cons h
    obtain ⟨u, s, rfl, hu, h⟩ := word_cat_cons h
    obtain rfl := word_cat_nil h
    rw [word_lit hv, List.append_nil]
    exact .inr ⟨u, rfl, word_group hu⟩

/-- What a repeated set consumes lies in the set. -/
theorem word_star_set {p : α → Bool} {s : List α} (h : Word (star (set p)) s) :
    ∀ x ∈ s, p x = true := by
  generalize hr : star (set p) = r at h
  induction h with
  | done => exact fun x hx => absurd hx List.not_mem_nil
  | more hu _ _ ih =>
      obtain rfl : set p = _ := Regex.star.inj hr
      cases hu with
      | set hx =>
          intro y hy
          rcases List.mem_cons.mp hy with rfl | hy
          · exact hx
          · exact ih hr y hy
  | _ => exact nomatch hr

theorem word_plus_set {p : α → Bool} {s : List α} (h : Word (plus (set p)) s) :
    s ≠ [] ∧ ∀ x ∈ s, p x = true := by
  cases h with
  | seq hu hv =>
      cases hu with
      | set hx =>
          refine ⟨List.cons_ne_nil _ _, fun y hy => ?_⟩
          rcases List.mem_cons.mp hy with rfl | hy
          · exact hx
          · exact word_star_set hv y hy

end Regex
