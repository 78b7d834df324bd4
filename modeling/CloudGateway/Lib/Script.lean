import Mathlib.Data.List.Induction

/-!
# Scripts of calls

What a procedure does that makes one call after the other and gives up at the first
one that goes wrong, with nothing said about what the calls are. Whether a call goes
well may depend on every call before it, so it is asked of the calls so far, with
the one in question as the last of them.

A procedure that runs one script after the other leaves a list of calls in which each
call stands at its place: whatever its script has before it has been made right
before it, and has gone well.
-/

namespace Reactive

namespace Script

variable {κ : Type*} {good : List κ → Bool}

/-- What is made of `script` when `past` has been made before. -/
def made (good : List κ → Bool) : List κ → List κ → List κ
  | [], _ => []
  | c :: script, past =>
      c :: if good (past ++ [c]) then made good script (past ++ [c]) else []

/-- All of `script` goes well. -/
def passes (good : List κ → Bool) : List κ → List κ → Bool
  | [], _ => true
  | c :: script, past => good (past ++ [c]) && passes good script (past ++ [c])

/-- One script after the other. -/
def play (good : List κ → Bool) (past : List κ) (scripts : List (List κ)) : List κ :=
  scripts.foldl (fun past script => past ++ made good script past) past

/-! ## One script -/

@[simp] theorem made_nil (past : List κ) : made good [] past = [] := rfl

@[simp] theorem passes_nil (past : List κ) : passes good [] past = true := rfl

theorem made_cons (c : κ) (script past : List κ) :
    made good (c :: script) past =
      c :: if good (past ++ [c]) then made good script (past ++ [c]) else [] := rfl

theorem passes_cons (c : κ) (script past : List κ) :
    passes good (c :: script) past =
      (good (past ++ [c]) && passes good script (past ++ [c])) := rfl

theorem passes_append (s t past : List κ) :
    passes good (s ++ t) past = (passes good s past && passes good t (past ++ s)) := by
  induction s generalizing past with
  | nil => simp
  | cons c s ih =>
      rw [List.cons_append, passes_cons, passes_cons, ih, Bool.and_assoc, List.append_assoc,
        List.singleton_append]

/-- A script that goes through is made to its end. -/
theorem made_of_passes {script past : List κ} (h : passes good script past = true) :
    made good script past = script := by
  induction script generalizing past with
  | nil => rfl
  | cons c script ih =>
      rw [passes_cons, Bool.and_eq_true] at h
      rw [made_cons, if_pos h.1, ih h.2]

/-- Every call of a script that goes through goes well. -/
theorem good_of_passes {before after past : List κ} {c : κ}
    (h : passes good (before ++ c :: after) past = true) : good (past ++ before ++ [c]) = true := by
  rw [passes_append, passes_cons, Bool.and_eq_true, Bool.and_eq_true] at h
  exact h.2.1

/-- A call that is made stands where its script has it, and all before it has gone well. -/
theorem passes_before {script past before after : List κ} {c : κ}
    (h : made good script past = before ++ c :: after) :
    passes good before past = true ∧ ∃ rest, script = before ++ c :: rest := by
  induction script generalizing past before with
  | nil => exact absurd h (by simp)
  | cons d script ih =>
      rw [made_cons] at h
      cases before with
      | nil =>
          rw [List.nil_append] at h
          have hd := (List.cons.inj h).1
          exact ⟨rfl, script, by rw [hd, List.nil_append]⟩
      | cons b before =>
          obtain ⟨rfl, hrest⟩ := List.cons.inj h
          by_cases hgood : good (past ++ [d]) = true
          · rw [if_pos hgood] at hrest
            obtain ⟨hpasses, rest, hscript⟩ := ih hrest
            refine ⟨?_, rest, ?_⟩
            · rw [passes_cons, hgood, hpasses, Bool.and_self]
            · rw [hscript, List.cons_append]
          · rw [if_neg hgood] at hrest
            exact absurd hrest (by simp)

/-! ## One script after the other -/

@[simp] theorem play_nil (past : List κ) : play good past [] = past := rfl

theorem play_concat (past : List κ) (scripts : List (List κ)) (script : List κ) :
    play good past (scripts ++ [script]) =
      play good past scripts ++ made good script (play good past scripts) := by
  simp [play, List.foldl_append]

theorem play_append (past : List κ) (scripts scripts' : List (List κ)) :
    play good past (scripts ++ scripts') = play good (play good past scripts) scripts' :=
  List.foldl_append

/-- **Every call stands at its place in a script.** -/
theorem play_place {scripts : List (List κ)} {before after : List κ} {c : κ}
    (h : play good [] scripts = before ++ c :: after) :
    ∃ earlier script later start rest, scripts = earlier ++ script :: later ∧
      script = start ++ c :: rest ∧ before = play good [] earlier ++ start ∧
      passes good start (play good [] earlier) = true := by
  induction scripts using List.reverseRecOn generalizing after with
  | nil => exact absurd h (by simp)
  | append_singleton scripts script ih =>
      rw [play_concat] at h
      rcases List.append_eq_append_iff.mp h with ⟨start, hbefore, hmade⟩ | ⟨tail, hplay, hafter⟩
      · obtain ⟨hpasses, rest, hscript⟩ := passes_before hmade
        exact ⟨scripts, script, [], start, rest, rfl, hscript, hbefore, hpasses⟩
      · cases tail with
        | nil =>
            rw [List.nil_append] at hafter
            have hmade : made good script (play good [] scripts) = [] ++ c :: after := hafter.symm
            obtain ⟨hpasses, rest, hscript⟩ := passes_before hmade
            refine ⟨scripts, script, [], [], rest, rfl, hscript, ?_, hpasses⟩
            rw [hplay, List.append_nil, List.append_nil]
        | cons d tail =>
            obtain ⟨rfl, -⟩ := List.cons.inj hafter
            obtain ⟨earlier, s, later, start, rest, hscripts, hs, hbefore, hpasses⟩ := ih hplay
            refine ⟨earlier, s, later ++ [script], start, rest, ?_, hs, hbefore, hpasses⟩
            rw [hscripts, List.append_assoc, List.cons_append]

end Script

end Reactive
