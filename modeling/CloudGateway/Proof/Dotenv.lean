import CloudGateway.Infra.Config

/-!
# The `.env` file

What a file says is in its lines, and a file is written from them. Loading it reads
each line back as what it was written from, so that in the end every variable is
what it was before, or else what the first line that assigns it says.
-/

namespace CloudGateway.Proof

open ConfigDetail

/-! ## Files -/

/-- Spaces and tabs. -/
structure Blanks where
  text : Bytes
  blank : ∀ b ∈ text, isBlank b = true

/-- A key that can stand in a line as it is. -/
structure PlainKey where
  text : Bytes
  nonempty : text ≠ []
  chars : ∀ b ∈ text, b ≠ '='.toUInt8 ∧ b ≠ 0 ∧ b ≠ '\n'.toUInt8 ∧ b ≠ '\r'.toUInt8
  begins : ∀ b ∈ text.head?, b ≠ '#'.toUInt8 ∧ isBlank b = false
  ends : ∀ b ∈ text.getLast?, isBlank b = false

/-- A value that fits in a line; quotes, blanks and `=` are no matter. -/
structure Value where
  text : Bytes
  chars : ∀ b ∈ text, b ≠ 0 ∧ b ≠ '\n'.toUInt8 ∧ b ≠ '\r'.toUInt8

/-- What a line says. -/
inductive Entry where
  | blank (blanks : Blanks)
  | comment (blanks : Blanks) (text : Bytes) (single : '\n'.toUInt8 ∉ text)
  | assign (before : Blanks) (key : PlainKey) (between : Blanks) (value : Value) (after : Blanks)

/-- The line without its end. -/
def Entry.text : Entry → Bytes
  | blank blanks => blanks.text
  | comment blanks text _ => blanks.text ++ '#'.toUInt8 :: text
  | assign before key between value after =>
      before.text ++ (key.text ++ (between.text
        ++ ('='.toUInt8 :: '"'.toUInt8 :: (value.text ++ '"'.toUInt8 :: after.text))))

/-- A line, and whether it ends with CRLF or LF. -/
structure Line where
  entry : Entry
  crlf : Bool

/-- What is left of the line end when the line is read. -/
def Line.carriage (l : Line) : Bytes := if l.crlf then ['\r'.toUInt8] else []

/-- The text of a file. -/
def fileText (ls : List Line) : Bytes :=
  ls.flatMap (fun l => l.entry.text ++ l.carriage ++ ['\n'.toUInt8])

/-- The value that an entry assigns to a key. -/
def Entry.valueFor (key : Bytes) : Entry → Option Bytes
  | blank _ => none
  | comment _ _ _ => none
  | assign _ k _ value _ => if key = k.text then some value.text else none

/-- The value of the first assignment to a key. -/
def firstValue (key : Bytes) (ls : List Line) : Option Bytes :=
  ls.findSome? (fun l => l.entry.valueFor key)

/-! ## A line -/

section Line

variable {p : UInt8 → Bool}

theorem isBlank_cases {b : UInt8} (h : isBlank b = true) : b = ' '.toUInt8 ∨ b = '\t'.toUInt8 := by
  simpa [isBlank] using h

theorem isTrailing_of_isBlank {b : UInt8} (h : isBlank b = true) : isTrailing b = true := by
  rw [isTrailing, h, Bool.or_true]

theorem Blanks.not_mem (blanks : Blanks) {b : UInt8} (h : isBlank b = false) : b ∉ blanks.text := by
  intro hb
  rw [blanks.blank b hb] at h
  exact absurd h (by decide)

/-- Blanks in front are passed over. -/
theorem Blanks.skip (blanks : Blanks) (text : Bytes) :
    (blanks.text ++ text).dropWhile isBlank = text.dropWhile isBlank :=
  List.dropWhile_append_of_pos blanks.blank

/-- What is taken from an end is taken from behind what stays. -/
theorem rdropWhile_append {kept dropped : Bytes} (hkept : ∀ b ∈ kept.getLast?, p b = false)
    (hdropped : ∀ b ∈ dropped, p b = true) : (kept ++ dropped).rdropWhile p = kept := by
  have hreverse : ∀ b ∈ dropped.reverse, p b = true := fun b hb =>
    hdropped b (List.mem_reverse.mp hb)
  have hself : kept.rdropWhile p = kept := by
    rw [List.rdropWhile_eq_self_iff]
    intro hne
    have hlast := hkept _ (List.getLast?_eq_some_getLast hne)
    simp [hlast]
  rw [List.rdropWhile, List.reverse_append, List.dropWhile_append_of_pos hreverse]
  exact hself

/-- A value between quotes of one kind is the value. -/
theorem unquote_quoted {q : UInt8} (hq : q = '"'.toUInt8 ∨ q = '\''.toUInt8) (value : Bytes) :
    unquote (q :: (value ++ [q])) = value := by
  have hlast : (q :: (value ++ [q])).getLast? = some q := by
    rw [← List.cons_append, List.getLast?_append]
    rfl
  have hpair : (some q = some '"'.toUInt8 ∧ (q :: (value ++ [q])).getLast? = some '"'.toUInt8)
      ∨ some q = some '\''.toUInt8 ∧ (q :: (value ++ [q])).getLast? = some '\''.toUInt8 := by
    rw [hlast]
    exact hq.imp (fun h => ⟨congrArg some h, congrArg some h⟩)
      (fun h => ⟨congrArg some h, congrArg some h⟩)
  rw [unquote, if_pos ⟨by simp, hpair⟩]
  simp

/-- A key is where the first line has it. -/
theorem PlainKey.begins_text (key : PlainKey) (text : Bytes) :
    (key.text ++ text).dropWhile isBlank = key.text ++ text
      ∧ (key.text ++ text).head? ≠ some '#'.toUInt8 := by
  cases hkey : key.text with
  | nil => exact absurd hkey key.nonempty
  | cons b rest =>
      obtain ⟨hhash, hblank⟩ := key.begins b (by rw [hkey]; rfl)
      refine ⟨List.dropWhile_cons_of_neg (by simp [hblank]), fun h => ?_⟩
      exact hhash (Option.some.inj h)

theorem Entry.text_single (e : Entry) : '\n'.toUInt8 ∉ e.text := by
  cases e with
  | blank blanks => exact blanks.not_mem (by decide)
  | comment blanks remark single =>
      simp only [text, List.mem_append, List.mem_cons, not_or]
      exact ⟨blanks.not_mem (by decide), by decide, single⟩
  | assign before key between value after =>
      simp only [text, List.mem_append, List.mem_cons, not_or]
      exact ⟨before.not_mem (by decide), fun h => (key.chars _ h).2.2.1 rfl,
        between.not_mem (by decide), by decide, by decide, fun h => (value.chars _ h).2.1 rfl,
        by decide, after.not_mem (by decide)⟩

theorem Line.carriage_trailing (l : Line) : ∀ b ∈ l.carriage, isTrailing b = true := by
  intro b hb
  unfold carriage at hb
  split at hb
  · rw [List.mem_singleton.mp hb]; decide
  · exact absurd hb List.not_mem_nil

/-- A blank line assigns nothing, with a carriage return at its end neither. -/
theorem assignment_blank (blanks : Blanks) (l : Line) :
    assignment (blanks.text ++ l.carriage) = none := by
  rw [assignment, blanks.skip]
  unfold Line.carriage
  split <;> decide

theorem assignment_comment (blanks : Blanks) (text : Bytes) :
    assignment (blanks.text ++ '#'.toUInt8 :: text) = none := by
  have hskip : ('#'.toUInt8 :: text).dropWhile isBlank = '#'.toUInt8 :: text :=
    List.dropWhile_cons_of_neg (by decide)
  simp only [assignment, blanks.skip, hskip, if_neg (List.cons_ne_nil _ _), List.head?_cons,
    if_true]

/-- **A line is read as its key and what follows the `=`, cut at the end and unquoted.** -/
theorem assignment_line (before : Blanks) (key : PlainKey) (between : Blanks) (val : Bytes) :
    assignment (before.text ++ (key.text ++ (between.text ++ '='.toUInt8 :: val)))
      = some (key.text, unquote (val.rdropWhile isTrailing)) := by
  obtain ⟨name, hname⟩ : ∃ name, name = key.text ++ between.text := ⟨_, rfl⟩
  have hskip : (before.text ++ (key.text ++ (between.text ++ '='.toUInt8 :: val))).dropWhile isBlank
      = name ++ '='.toUInt8 :: val := by
    rw [before.skip, hname, List.append_assoc]
    exact (key.begins_text _).1
  have hhash : (name ++ '='.toUInt8 :: val).head? ≠ some '#'.toUInt8 := by
    rw [hname, List.append_assoc]
    exact (key.begins_text _).2
  have hchars : ∀ b ∈ name, (b != '='.toUInt8) = true := by
    intro b hb
    rw [bne_iff_ne]
    rcases List.mem_append.mp (hname ▸ hb) with hb | hb
    · exact (key.chars b hb).1
    · rintro rfl
      exact between.not_mem (by decide) hb
  have hkey : ((name ++ '='.toUInt8 :: val).takeWhile (· != '='.toUInt8)).rdropWhile isBlank
      = key.text := by
    rw [List.takeWhile_append_of_pos hchars, List.takeWhile_cons_of_neg (by decide),
      List.append_nil, hname]
    exact rdropWhile_append key.ends between.blank
  have hval : ((name ++ '='.toUInt8 :: val).dropWhile (· != '='.toUInt8)).tail = val := by
    rw [List.dropWhile_append_of_pos hchars, List.dropWhile_cons_of_neg (by decide), List.tail_cons]
  have hne : name ++ '='.toUInt8 :: val ≠ [] := by simp
  have hmem : '='.toUInt8 ∈ name ++ '='.toUInt8 :: val :=
    List.mem_append_right _ List.mem_cons_self
  rw [assignment, hskip, if_neg hne, if_neg hhash, if_neg (fun h => h hmem), hkey, hval,
    if_neg key.nonempty]

/-- **An assignment is read as the key and the value it was written from.** -/
theorem assignment_assign (before : Blanks) (key : PlainKey) (between : Blanks) (value : Value)
    (after : Blanks) (l : Line) :
    assignment ((Entry.assign before key between value after).text ++ l.carriage)
      = some (key.text, value.text) := by
  obtain ⟨quoted, hquoted⟩ : ∃ quoted, quoted = '"'.toUInt8 :: (value.text ++ ['"'.toUInt8]) :=
    ⟨_, rfl⟩
  have hline : (Entry.assign before key between value after).text ++ l.carriage
      = before.text ++ (key.text ++ (between.text
        ++ '='.toUInt8 :: (quoted ++ (after.text ++ l.carriage)))) := by
    simp [Entry.text, hquoted]
  have hval : (quoted ++ (after.text ++ l.carriage)).rdropWhile isTrailing = quoted := by
    refine rdropWhile_append (fun b hb => ?_) (fun b hb => ?_)
    · rw [hquoted, ← List.cons_append, List.getLast?_append] at hb
      rw [← Option.some.inj hb]
      decide
    · rcases List.mem_append.mp hb with hb | hb
      · exact isTrailing_of_isBlank (after.blank b hb)
      · exact l.carriage_trailing b hb
  rw [hline, assignment_line, hval, hquoted, unquote_quoted (.inl rfl)]

end Line

/-! ## The file -/

theorem lines_cons {line : Bytes} (h : '\n'.toUInt8 ∉ line) (text : Bytes) :
    lines (line ++ '\n'.toUInt8 :: text) = line :: lines text := by
  induction line with
  | nil => rw [List.nil_append, lines, if_pos rfl]
  | cons b line ih =>
      rw [List.mem_cons, not_or] at h
      obtain ⟨hb, hline⟩ := h
      rw [List.cons_append, lines, if_neg (Ne.symm hb), ih hline]

/-- The lines of a file are those it was written from. -/
theorem lines_fileText (ls : List Line) :
    lines (fileText ls) = ls.map (fun l => l.entry.text ++ l.carriage) := by
  induction ls with
  | nil => rfl
  | cons l ls ih =>
      have hsingle : '\n'.toUInt8 ∉ l.entry.text ++ l.carriage := by
        intro h
        rcases List.mem_append.mp h with h | h
        · exact l.entry.text_single h
        · unfold Line.carriage at h
          split at h
          · exact absurd (List.mem_singleton.mp h) (by decide)
          · exact absurd h List.not_mem_nil
      have htext : fileText (l :: ls)
          = (l.entry.text ++ l.carriage) ++ '\n'.toUInt8 :: fileText ls := by
        simp [fileText]
      rw [htext, lines_cons hsingle, ih, List.map_cons]

/-! ## The environment -/

theorem cStr_of_not_mem {s : Bytes} (h : ∀ b ∈ s, b ≠ 0) : cStr s = s := by
  refine List.takeWhile_eq_self_iff.mpr (fun b hb => ?_)
  rw [bne_iff_ne]
  exact h b hb

theorem getenv_append (env : Environment) (name value key : Bytes) :
    getenv (env ++ [(name, value)]) key
      = (getenv env key).or (if key = name then some value else none) := by
  rw [getenv, List.lookup_append]
  congr 1
  by_cases h : key = name
  · rw [if_pos h, List.lookup_cons, beq_iff_eq.mpr h]
  · rw [if_neg h, List.lookup_cons, beq_eq_false_iff_ne.mpr h]
    rfl

/-- A variable that is set is left as it is, and no other one changes. -/
theorem getenv_setenv {name : Bytes} (hne : name ≠ []) (heq : '='.toUInt8 ∉ name)
    (value : Bytes) (env : Environment) (key : Bytes) :
    getenv (setenv name value env) key
      = (getenv env key).or (if key = name then some value else none) := by
  by_cases hset : (getenv env name).isSome = true
  · rw [setenv, if_pos (.inr (.inr hset))]
    by_cases hkey : key = name
    · obtain ⟨v, hv⟩ := Option.isSome_iff_exists.mp hset
      rw [hkey, hv, Option.some_or]
    · rw [if_neg hkey, Option.or_none]
  · rw [setenv, if_neg (fun h => h.elim hne (fun h => h.elim heq hset)), getenv_append]

/-- A line that assigns a key sets that variable, as far as C reads the value. -/
theorem getenv_loadLine_some {line val : Bytes} {name : PlainKey}
    (h : assignment line = some (name.text, val)) (env : Environment) (key : Bytes) :
    getenv (loadLine env line) key
      = (getenv env key).or (if key = name.text then some (cStr val) else none) := by
  have hname : cStr name.text = name.text :=
    cStr_of_not_mem (fun b hb => (name.chars b hb).2.1)
  rw [loadLine, h]
  show getenv (setenv (cStr name.text) (cStr val) env) key = _
  rw [hname, getenv_setenv name.nonempty (fun h => (name.chars _ h).1 rfl)]

/-- **One line sets the variable it assigns, if that is not set.** -/
theorem getenv_loadLine (l : Line) (env : Environment) (key : Bytes) :
    getenv (loadLine env (l.entry.text ++ l.carriage)) key
      = (getenv env key).or (l.entry.valueFor key) := by
  cases he : l.entry with
  | blank blanks =>
      rw [loadLine, Entry.text, assignment_blank]
      exact (Option.or_none).symm
  | comment blanks remark single =>
      rw [loadLine, Entry.text, List.append_assoc, List.cons_append, assignment_comment]
      exact (Option.or_none).symm
  | assign before name between value after =>
      have hvalue : cStr value.text = value.text :=
        cStr_of_not_mem (fun b hb => (value.chars b hb).1)
      rw [getenv_loadLine_some (assignment_assign before name between value after l), hvalue]
      rfl

/--
**Loading a file leaves every variable that is set, gives every other one the value
of its first assignment in the file, and sets no further one.**
-/
theorem loadDotenv_fileText (env : Environment) (ls : List Line) (key : Bytes) :
    getenv (loadDotenv (some (fileText ls)) env) key
      = (getenv env key).or (firstValue key ls) := by
  rw [loadDotenv, lines_fileText]
  induction ls generalizing env with
  | nil => exact (Option.or_none).symm
  | cons l ls ih =>
      have hfirst : firstValue key (l :: ls) = (l.entry.valueFor key).or (firstValue key ls) := by
        rw [firstValue, List.findSome?_cons]
        cases l.entry.valueFor key with
        | none => rfl
        | some v => rfl
      rw [List.map_cons, List.foldl_cons, ih, getenv_loadLine, Option.or_assoc, hfirst]

/-- A comment, and a quoted value in a line that ends with CRLF. -/
example :
    let comment : Entry := .comment ⟨[], by simp⟩ (utf8 " the car") (by decide +kernel)
    let key : PlainKey := ⟨utf8 "MODEL", by decide, by decide +kernel, by decide +kernel,
      by decide +kernel⟩
    let model : Entry := .assign ⟨[], by simp⟩ key ⟨utf8 " ", by decide +kernel⟩
      ⟨utf8 "A # 'B'", by decide +kernel⟩ ⟨utf8 "  ", by decide +kernel⟩
    let file := fileText [⟨comment, false⟩, ⟨model, true⟩]
    file = utf8 "# the car\nMODEL =\"A # 'B'\"  \r\n"
      ∧ getenv (loadDotenv (some file) []) (utf8 "MODEL") = some (utf8 "A # 'B'") := by
  decide

end CloudGateway.Proof
