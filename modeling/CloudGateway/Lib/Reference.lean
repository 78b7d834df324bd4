import Mathlib.Data.List.TakeWhile

/-!
# References, and what they are resolved to

A relative reference is resolved against the URI it stands in as the URI standard
says: into an authority, a path without dot segments, and a query. Texts are lists
of bytes. Paths that begin with a slash are taken apart at their slashes.
-/

namespace Reference

/-! ## Dot segments -/

/-- A segment, with the segments before it that are still there, the last one first. -/
def push (out : List (List UInt8)) (segment : List UInt8) : List (List UInt8) :=
  if segment = ['.'.toUInt8] then out
  else if segment = ['.'.toUInt8, '.'.toUInt8] then out.tail
  else segment :: out

/-- It is `.` or `..`. -/
def IsDots (segment : List UInt8) : Prop :=
  segment = ['.'.toUInt8] ∨ segment = ['.'.toUInt8, '.'.toUInt8]

instance (segment : List UInt8) : Decidable (IsDots segment) := inferInstanceAs (Decidable (_ ∨ _))

/-- What is left after the last segment: a dot segment there leaves a slash. -/
def close (out : List (List UInt8)) (segment : List UInt8) : List (List UInt8) :=
  if IsDots segment then [] :: push out segment else push out segment

/-- Dot segments are removed one by one. -/
def removeDots (out : List (List UInt8)) : List (List UInt8) → List (List UInt8)
  | [] => out.reverse
  | [segment] => (close out segment).reverse
  | segment :: rest => removeDots (push out segment) rest

/-- The segments of a path; none where there is no path. -/
def segments : List UInt8 → List (List UInt8)
  | [] => []
  | _ :: path => path.splitOn '/'.toUInt8

/-- `remove_dot_segments`, for a path that is empty or begins with a slash. -/
def removeDotSegments : List UInt8 → List UInt8
  | [] => []
  | slash :: path => slash :: ['/'.toUInt8].intercalate (removeDots [] (path.splitOn '/'.toUInt8))

/-- The segments lead up over so many others that stand before them. -/
def climbs : Nat → List (List UInt8) → Bool
  | 0, _ => true
  | _ + 1, [] => false
  | height + 1, segment :: rest =>
      if segment = ['.'.toUInt8] then climbs (height + 1) rest
      else if segment = ['.'.toUInt8, '.'.toUInt8] then climbs height rest
      else climbs (height + 2) rest

/-! ## Reading a reference -/

/-- What a reference has, and what it is resolved to. The fragment does not matter. -/
structure Parts where
  authority : Option (List UInt8)
  path : List UInt8
  query : Option (List UInt8)
deriving DecidableEq, Repr

def inAuthority (b : UInt8) : Bool :=
  b != '/'.toUInt8 && b != '?'.toUInt8 && b != '#'.toUInt8

def inPath (b : UInt8) : Bool := b != '?'.toUInt8 && b != '#'.toUInt8

def inQuery (b : UInt8) : Bool := b != '#'.toUInt8

/-- The query of what follows an authority. -/
def readQuery (text : List UInt8) : Option (List UInt8) :=
  if (text.dropWhile inPath).head? = some '?'.toUInt8 then
    some ((text.dropWhile inPath).tail.takeWhile inQuery)
  else none

/-- A relative reference, taken apart. -/
def read (text : List UInt8) : Parts :=
  if ['/'.toUInt8, '/'.toUInt8].isPrefixOf text then
    { authority := some ((text.drop 2).takeWhile inAuthority)
      path := ((text.drop 2).dropWhile inAuthority).takeWhile inPath
      query := readQuery ((text.drop 2).dropWhile inAuthority) }
  else { authority := none, path := text.takeWhile inPath, query := readQuery text }

/--
A relative reference that is not a fragment only: what comes before its first
slash, question mark or hash has no colon, which would end a scheme.
-/
structure IsRelative (text : List UInt8) : Prop where
  begins : ∀ b ∈ text.head?, b ≠ '#'.toUInt8
  nonempty : text ≠ []
  no_scheme : ':'.toUInt8 ∉ text.takeWhile inAuthority
  line_free : ∀ b ∈ text, b ≠ '\n'.toUInt8 ∧ b ≠ '\r'.toUInt8

/-! ## Resolution -/

/-- A path goes in the place of the last segment of the base's. -/
def merge (base path : List UInt8) : List UInt8 :=
  if base = [] then '/'.toUInt8 :: path
  else (base.reverse.dropWhile (· != '/'.toUInt8)).reverse ++ path

/-- Resolution against a base that has an authority. -/
def resolve (base reference : Parts) : Parts :=
  if reference.authority ≠ none then
    { reference with path := removeDotSegments reference.path }
  else if reference.path = [] then
    { base with query := if reference.query = none then base.query else reference.query }
  else if reference.path.head? = some '/'.toUInt8 then
    { authority := base.authority
      path := removeDotSegments reference.path
      query := reference.query }
  else
    { authority := base.authority
      path := removeDotSegments (merge base.path reference.path)
      query := reference.query }

/-! ## What is left when dot segments are removed -/

section removeDots

variable {out x : List (List UInt8)} {segment : List UInt8} {rest : List (List UInt8)}

theorem removeDots_singleton : removeDots out [segment] = (close out segment).reverse := rfl

theorem removeDots_cons (h : rest ≠ []) :
    removeDots out (segment :: rest) = removeDots (push out segment) rest := by
  cases rest with
  | nil => exact absurd rfl h
  | cons _ _ => rfl

theorem push_of_not_isDots (h : ¬ IsDots segment) : push out segment = segment :: out := by
  rw [push, if_neg (fun hd => h (.inl hd)), if_neg (fun hd => h (.inr hd))]

theorem mem_push {s : List UInt8} (h : s ∈ push out segment) :
    s ∈ out ∨ (s = segment ∧ ¬ IsDots segment) := by
  unfold push at h
  split at h
  · exact .inl h
  · split at h
    · exact .inl (List.mem_of_mem_tail h)
    · rename_i hdot hdots
      rcases List.mem_cons.mp h with h | h
      · exact .inr ⟨h, fun hd => hd.elim hdot hdots⟩
      · exact .inl h

/-- Nothing is left but the segments that are no dots, and an empty one at the end. -/
theorem mem_removeDots {s : List UInt8} :
    s ∈ removeDots out rest → s ∈ out ∨ s = [] ∨ (s ∈ rest ∧ ¬ IsDots s) := by
  induction rest generalizing out with
  | nil => exact fun h => .inl (List.mem_reverse.mp h)
  | cons segment rest ih =>
      intro h
      by_cases hrest : rest = []
      · subst hrest
        have hclose : s = [] ∨ s ∈ push out segment := by
          have hmem := List.mem_reverse.mp h
          unfold close at hmem
          split at hmem
          · exact List.mem_cons.mp hmem
          · exact .inr hmem
        rcases hclose with h | h
        · exact .inr (.inl h)
        · rcases mem_push h with h | ⟨rfl, h⟩
          · exact .inl h
          · exact .inr (.inr ⟨List.mem_cons_self, h⟩)
      · rw [removeDots_cons hrest] at h
        rcases ih h with h | h | h
        · rcases mem_push h with h | ⟨rfl, h⟩
          · exact .inl h
          · exact .inr (.inr ⟨List.mem_cons_self, h⟩)
        · exact .inr (.inl h)
        · exact .inr (.inr ⟨List.mem_cons_of_mem _ h.1, h.2⟩)

/-- Where there are no dots, nothing is removed. -/
theorem removeDots_of_not_isDots (h : ∀ s ∈ rest, ¬ IsDots s) :
    removeDots out rest = out.reverse ++ rest := by
  induction rest generalizing out with
  | nil => exact (List.append_nil _).symm
  | cons segment rest ih =>
      have hsegment := h segment List.mem_cons_self
      by_cases hrest : rest = []
      · subst hrest
        rw [removeDots_singleton, close, if_neg hsegment, push_of_not_isDots hsegment,
          List.reverse_cons]
      · rw [removeDots_cons hrest, push_of_not_isDots hsegment,
          ih (fun s hs => h s (List.mem_cons_of_mem _ hs)), List.reverse_cons, List.append_assoc]
        rfl

theorem removeDots_ne_nil (h : rest ≠ []) : removeDots out rest ≠ [] := by
  induction rest generalizing out with
  | nil => exact absurd rfl h
  | cons segment rest ih =>
      by_cases hrest : rest = []
      · subst hrest
        rw [removeDots_singleton, Ne, List.reverse_eq_nil_iff, close]
        split
        · exact List.cons_ne_nil _ _
        · rename_i hdots
          rw [push_of_not_isDots hdots]
          exact List.cons_ne_nil _ _
      · rw [removeDots_cons hrest]
        exact ih hrest

/-! ### More in front -/

/-- A segment takes something from what stands further in front only if nothing is between. -/
theorem push_append (x out : List (List UInt8)) (segment : List UInt8) :
    ∃ left, push (x ++ out) segment = push x segment ++ left
      ∧ (left = [] ↔ out = [] ∨ push (x ++ out) segment = []) := by
  by_cases hdot : segment = ['.'.toUInt8]
  · have hpush : ∀ o : List (List UInt8), push o segment = o := fun o => if_pos hdot
    refine ⟨out, by rw [hpush, hpush], ?_⟩
    rw [hpush, List.append_eq_nil_iff]
    exact ⟨.inl, fun h => h.elim id (·.2)⟩
  · by_cases hdots : segment = ['.'.toUInt8, '.'.toUInt8]
    · have hpush : ∀ o : List (List UInt8), push o segment = o.tail := fun o =>
        (if_neg hdot).trans (if_pos hdots)
      cases x with
      | nil =>
          refine ⟨out.tail, by rw [hpush, hpush]; rfl, ?_⟩
          rw [hpush, List.nil_append]
          exact ⟨.inr, fun h => h.elim (fun h => by rw [h]; rfl) id⟩
      | cons s x =>
          refine ⟨out, by rw [hpush, hpush]; rfl, ?_⟩
          rw [hpush, List.cons_append, List.tail_cons, List.append_eq_nil_iff]
          exact ⟨.inl, fun h => h.elim id (·.2)⟩
    · have hpush : ∀ o : List (List UInt8), push o segment = segment :: o := fun _ =>
        push_of_not_isDots (fun h => h.elim hdot hdots)
      refine ⟨out, by rw [hpush, hpush]; rfl, ?_⟩
      rw [hpush]
      exact ⟨.inl, fun h => h.elim id (fun h => absurd h (List.cons_ne_nil _ _))⟩

theorem close_append {left : List (List UInt8)}
    (h : push (x ++ out) segment = push x segment ++ left) :
    close (x ++ out) segment = close x segment ++ left := by
  unfold close
  split
  · exact congrArg ([] :: ·) h
  · exact h

@[simp] theorem climbs_zero : climbs 0 rest = true := by cases rest <;> rfl

theorem climbs_nil {height : Nat} : climbs height [] = true ↔ height = 0 := by
  cases height with
  | zero => exact ⟨fun _ => rfl, fun _ => rfl⟩
  | succ n => exact ⟨fun h => absurd h (by simp [climbs]), fun h => absurd h (by simp)⟩

/-- Climbing follows the segments that are there. -/
theorem climbs_cons (h : out ≠ []) :
    climbs out.length (segment :: rest) = climbs (push out segment).length rest := by
  cases out with
  | nil => exact absurd rfl h
  | cons s out =>
      simp only [List.length_cons, climbs, push]
      split
      · rfl
      · split <;> rfl

/--
With more in front, more is left in front, except where the segments lead up over
all of it.
-/
theorem removeDots_append (x out rest : List (List UInt8)) :
    ∃ left, removeDots (x ++ out) rest = left.reverse ++ removeDots x rest
      ∧ (left = [] ↔ out = [] ∨ climbs (x ++ out).length rest = true) := by
  induction rest generalizing x out with
  | nil =>
      refine ⟨out, List.reverse_append, ?_⟩
      rw [climbs_nil, List.length_eq_zero_iff, List.append_eq_nil_iff]
      exact ⟨.inl, fun h => h.elim id (·.2)⟩
  | cons segment rest ih =>
      obtain ⟨between, hpush, hbetween⟩ := push_append x out segment
      have hclimbs : (between = [] ∨ climbs (push (x ++ out) segment).length rest = true)
          ↔ (out = [] ∨ climbs (x ++ out).length (segment :: rest) = true) := by
        by_cases hout : out = []
        · exact ⟨fun _ => .inl hout, fun _ => .inl (hbetween.mpr (.inl hout))⟩
        · rw [climbs_cons (List.append_ne_nil_of_right_ne_nil x hout)]
          refine ⟨fun h => .inr (h.elim (fun h => ?_) id), fun h => .inr (h.resolve_left hout)⟩
          rw [(hbetween.mp h).resolve_left hout]
          exact climbs_zero
      by_cases hrest : rest = []
      · subst hrest
        refine ⟨between, ?_, ?_⟩
        · rw [removeDots_singleton, close_append hpush, List.reverse_append]
          rfl
        · rw [← hclimbs, climbs_nil, List.length_eq_zero_iff]
          exact ⟨.inl, fun h => h.elim id (fun h => hbetween.mpr (.inr h))⟩
      · obtain ⟨left, hleft, hiff⟩ := ih (push x segment) between
        refine ⟨left, ?_, ?_⟩
        · rw [removeDots_cons hrest, removeDots_cons hrest, hpush, hleft]
        · rw [hiff, ← hpush, hclimbs]

/-- What is in front does not matter exactly if the segments lead up over it. -/
theorem removeDots_eq_iff : removeDots out rest = removeDots [] rest
    ↔ climbs out.length rest = true := by
  obtain ⟨left, hleft, hiff⟩ := removeDots_append [] out rest
  rw [List.nil_append] at hleft hiff
  have hout : (out = [] ∨ climbs out.length rest = true) ↔ climbs out.length rest = true :=
    ⟨fun h => h.elim (fun h => by rw [h]; exact climbs_zero) id, .inr⟩
  rw [hleft, ← hout, ← hiff, List.append_left_eq_self, List.reverse_eq_nil_iff]

end removeDots

/-! ## Paths without dot segments -/

theorem not_mem_of_mem_splitOn {c : UInt8} {s text : List UInt8} (h : s ∈ text.splitOn c) :
    c ∉ s ∧ ∀ b ∈ s, b ∈ text := by
  induction text generalizing s with
  | nil =>
      rw [List.splitOn_nil, List.mem_singleton] at h
      rw [h]
      exact ⟨List.not_mem_nil, fun b hb => hb⟩
  | cons a text ih =>
      rw [List.splitOn_cons_eq_if_modifyHead] at h
      split at h
      · rcases List.mem_cons.mp h with rfl | h
        · exact ⟨List.not_mem_nil, fun b hb => absurd hb List.not_mem_nil⟩
        · exact ⟨(ih h).1, fun b hb => List.mem_cons_of_mem _ ((ih h).2 b hb)⟩
      · rename_i ha
        have hne : c ≠ a := fun hc => ha (beq_iff_eq.mpr hc.symm)
        cases hsplit : text.splitOn c with
        | nil => exact absurd hsplit (List.splitOn_ne_nil c text)
        | cons first others =>
            rw [hsplit] at h ih
            rcases List.mem_cons.mp h with rfl | h
            · obtain ⟨hc, hb⟩ := ih (List.mem_cons_self (l := others))
              refine ⟨fun hmem => (List.mem_cons.mp hmem).elim hne hc, fun b hmem => ?_⟩
              rcases List.mem_cons.mp hmem with rfl | hmem
              · exact List.mem_cons_self
              · exact List.mem_cons_of_mem _ (hb b hmem)
            · obtain ⟨hc, hb⟩ := ih (List.mem_cons_of_mem first h)
              exact ⟨hc, fun b hmem => List.mem_cons_of_mem _ (hb b hmem)⟩

theorem mem_intercalate {c b : UInt8} {l : List (List UInt8)} (h : b ∈ [c].intercalate l) :
    b = c ∨ ∃ s ∈ l, b ∈ s := by
  induction l with
  | nil => exact absurd h (by simp [List.intercalate])
  | cons s l ih =>
      cases l with
      | nil =>
          rw [List.intercalate_singleton] at h
          exact .inr ⟨s, List.mem_cons_self, h⟩
      | cons s' l =>
          rw [List.intercalate_cons_cons] at h
          simp only [List.mem_append, List.mem_singleton] at h
          rcases h with (h | h) | h
          · exact .inr ⟨s, List.mem_cons_self, h⟩
          · exact .inl h
          · rcases ih h with h | ⟨t, ht, h⟩
            · exact .inl h
            · exact .inr ⟨t, List.mem_cons_of_mem _ ht, h⟩

/-- What is left has no slashes and no dots in its segments. -/
theorem removeDots_splitOn {s path : List UInt8}
    (h : s ∈ removeDots [] (path.splitOn '/'.toUInt8)) :
    '/'.toUInt8 ∉ s ∧ ¬ IsDots s ∧ ∀ b ∈ s, b ∈ path := by
  rcases mem_removeDots h with h | rfl | ⟨h, hdots⟩
  · exact absurd h List.not_mem_nil
  · exact ⟨List.not_mem_nil, by decide, fun b hb => absurd hb List.not_mem_nil⟩
  · obtain ⟨hslash, hchars⟩ := not_mem_of_mem_splitOn h
    exact ⟨hslash, hdots, hchars⟩

/-- What is left can be taken apart again. -/
theorem splitOn_removeDots (path : List UInt8) :
    (['/'.toUInt8].intercalate (removeDots [] (path.splitOn '/'.toUInt8))).splitOn '/'.toUInt8
      = removeDots [] (path.splitOn '/'.toUInt8) :=
  List.splitOn_intercalate '/'.toUInt8 (fun _ hs => (removeDots_splitOn hs).1)
    (removeDots_ne_nil (List.splitOn_ne_nil '/'.toUInt8 path))

/-- Paths are the same if their segments are. -/
theorem removeDotSegments_cons_inj {slash : UInt8} {path path' : List UInt8} :
    removeDotSegments (slash :: path) = removeDotSegments (slash :: path')
      ↔ removeDots [] (path.splitOn '/'.toUInt8) = removeDots [] (path'.splitOn '/'.toUInt8) := by
  constructor
  · intro h
    rw [← splitOn_removeDots path, (List.cons.inj h).2, splitOn_removeDots path']
  · intro h
    simp only [removeDotSegments, h]

theorem removeDotSegments_idem (path : List UInt8) :
    removeDotSegments (removeDotSegments path) = removeDotSegments path := by
  cases path with
  | nil => rfl
  | cons slash path =>
      show slash :: ['/'.toUInt8].intercalate (removeDots [] (List.splitOn _ _)) = _
      rw [splitOn_removeDots, removeDots_of_not_isDots (fun s hs => (removeDots_splitOn hs).2.1)]
      rfl

theorem mem_removeDotSegments {b : UInt8} {path : List UInt8} (h : b ∈ removeDotSegments path) :
    b = '/'.toUInt8 ∨ b ∈ path := by
  cases path with
  | nil => exact absurd h List.not_mem_nil
  | cons slash path =>
      rcases List.mem_cons.mp h with rfl | h
      · exact .inr List.mem_cons_self
      · rcases mem_intercalate h with h | ⟨s, hs, h⟩
        · exact .inl h
        · exact .inr (List.mem_cons_of_mem _ ((removeDots_splitOn hs).2.2 b h))

/--
A path below what could have been an authority is the path itself exactly if it
leads up over that.
-/
theorem removeDotSegments_below_iff {authority path : List UInt8}
    (hslash : '/'.toUInt8 ∉ authority) (hpath : path = [] ∨ path.head? = some '/'.toUInt8) :
    removeDotSegments ('/'.toUInt8 :: '/'.toUInt8 :: (authority ++ path))
        = removeDotSegments (if path = [] then ['/'.toUInt8] else path)
      ↔ climbs (push [[]] authority).length (segments path) = true := by
  rcases hpath with rfl | hpath
  · have hsplit : List.splitOn '/'.toUInt8 ('/'.toUInt8 :: (authority ++ []))
        = [[], authority] := by
      rw [List.append_nil]
      refine (List.splitOn_append_cons_self_of_not_mem List.not_mem_nil authority).trans ?_
      rw [List.splitOn_eq_singleton hslash]
    have hroot : removeDots [] (List.splitOn '/'.toUInt8 []) = [[]] := by
      rw [List.splitOn_nil]
      rfl
    have hdots : removeDots [] [[], authority] = (close [[]] authority).reverse := rfl
    rw [if_pos rfl, removeDotSegments_cons_inj, hsplit, hroot, hdots, segments, climbs_nil,
      List.length_eq_zero_iff, close]
    split
    · rw [List.reverse_cons]
      exact ⟨fun h => by simpa using h, fun h => by rw [h]; rfl⟩
    · rename_i hauthority
      rw [push_of_not_isDots hauthority]
      exact ⟨fun h => absurd h (by simp), fun h => absurd h (by simp)⟩
  · cases path with
    | nil => exact absurd hpath (by simp)
    | cons slash path =>
        obtain rfl := Option.some.inj hpath
        have hsplit : List.splitOn '/'.toUInt8 ('/'.toUInt8 :: (authority ++ '/'.toUInt8 :: path))
            = [] :: authority :: path.splitOn '/'.toUInt8 := by
          refine (List.splitOn_append_cons_self_of_not_mem List.not_mem_nil _).trans ?_
          rw [List.splitOn_append_cons_self_of_not_mem hslash]
        have hdots : removeDots [] ([] :: authority :: path.splitOn '/'.toUInt8)
            = removeDots (push [[]] authority) (path.splitOn '/'.toUInt8) := by
          rw [removeDots_cons (List.cons_ne_nil _ _),
            removeDots_cons (List.splitOn_ne_nil '/'.toUInt8 path)]
          rfl
        rw [if_neg (List.cons_ne_nil _ _), removeDotSegments_cons_inj, hsplit, hdots, segments]
        exact removeDots_eq_iff

end Reference
