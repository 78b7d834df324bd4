import CloudGateway.Proof.Dotenv

/-!
# Blanks in a `.env` assignment

Blanks in front of a key and behind it are taken away, and so are blanks at the
end of a line. Those between the `=` and the value stay: they become part of the
value, and keep its quotes from being the first character.
-/

namespace CloudGateway.Proof

open ConfigDetail

/-! ## One assignment -/

/-- A value that can be written bare: no blank at an end, and no quotes around it. -/
structure PlainValue where
  text : Bytes
  nonempty : text ≠ []
  chars : ∀ b ∈ text, b ≠ 0 ∧ b ≠ '\n'.toUInt8 ∧ b ≠ '\r'.toUInt8
  begins : ∀ b ∈ text.head?, isBlank b = false
  ends : ∀ b ∈ text.getLast?, isBlank b = false
  unquoted : ∀ q, q = '"'.toUInt8 ∨ q = '\''.toUInt8 → ∀ inner, text ≠ q :: (inner ++ [q])

/-- How a value is written. -/
inductive Quoting where
  | bare
  | double
  | single
deriving DecidableEq, Repr

def Quoting.wrap : Quoting → Bytes → Bytes
  | bare, value => value
  | double, value => '"'.toUInt8 :: (value ++ ['"'.toUInt8])
  | single, value => '\''.toUInt8 :: (value ++ ['\''.toUInt8])

/-- How the only line of a file ends. -/
inductive LineEnd where
  | none
  | lf
  | crlf
deriving DecidableEq, Repr

def LineEnd.text : LineEnd → Bytes
  | none => []
  | lf => ['\n'.toUInt8]
  | crlf => ['\r'.toUInt8, '\n'.toUInt8]

/-- A file of one assignment, with blanks before and behind the key and behind the `=`. -/
def assignmentText (before : Blanks) (key : PlainKey) (between after : Blanks) (q : Quoting)
    (value : PlainValue) : Bytes :=
  before.text ++ (key.text ++ (between.text ++ '='.toUInt8 :: (after.text ++ q.wrap value.text)))

/-! ## Reading it -/

theorem isTrailing_eq_false {b : UInt8} (hblank : isBlank b = false) (hlf : b ≠ '\n'.toUInt8)
    (hcr : b ≠ '\r'.toUInt8) : isTrailing b = false := by
  simp [isTrailing, hblank, hlf, hcr]

/-- Without quotes around it a text is not unquoted. -/
theorem unquote_of_not_quoted {text : Bytes}
    (h : ∀ q, q = '"'.toUInt8 ∨ q = '\''.toUInt8 → ∀ inner, text ≠ q :: (inner ++ [q])) :
    unquote text = text := by
  have hpair : ∀ q, q = '"'.toUInt8 ∨ q = '\''.toUInt8 → 2 ≤ text.length →
      ¬ (text.head? = some q ∧ text.getLast? = some q) := by
    rintro q hq hlen ⟨hhead, hlast⟩
    cases text with
    | nil => exact nomatch hhead
    | cons b rest =>
        obtain rfl := Option.some.inj hhead
        have hne : rest ≠ [] := by rintro rfl; exact absurd hlen (by simp)
        rw [List.getLast?_cons_of_ne_nil hne] at hlast
        obtain ⟨inner, hinner⟩ := List.getLast?_eq_some_iff.mp hlast
        exact h _ hq inner (by rw [hinner])
  rw [unquote, if_neg]
  rintro ⟨hlen, hdouble | hsingle⟩
  · exact hpair _ (.inl rfl) hlen hdouble
  · exact hpair _ (.inr rfl) hlen hsingle

/-- However a value is written, it is read back. -/
theorem unquote_wrap (q : Quoting) (value : PlainValue) :
    unquote (q.wrap value.text) = value.text := by
  cases q with
  | bare => exact unquote_of_not_quoted value.unquoted
  | double => exact unquote_quoted (.inl rfl) _
  | single => exact unquote_quoted (.inr rfl) _

/-- A value as it is written ends neither with a blank nor with a line break. -/
theorem wrap_ends (q : Quoting) (value : PlainValue) :
    ∀ b ∈ (q.wrap value.text).getLast?, isTrailing b = false := by
  have hquoted : ∀ c : UInt8, isTrailing c = false →
      ∀ b ∈ (c :: (value.text ++ [c])).getLast?, isTrailing b = false := by
    intro c hc b hb
    rw [← List.cons_append, List.getLast?_append] at hb
    obtain rfl := Option.some.inj hb
    exact hc
  cases q with
  | bare =>
      intro b hb
      obtain ⟨_, hlf, hcr⟩ := value.chars b (List.mem_of_getLast? hb)
      exact isTrailing_eq_false (value.ends b hb) hlf hcr
  | double => exact hquoted _ (by decide)
  | single => exact hquoted _ (by decide)

/-- Behind a blank no quote is the first character. -/
theorem unquote_blank {b : UInt8} (hb : isBlank b = true) (text : Bytes) :
    unquote (b :: text) = b :: text := by
  refine unquote_of_not_quoted (fun q hq inner heq => ?_)
  obtain rfl := (List.cons.inj heq).1
  rcases hq with rfl | rfl
  · exact absurd hb (by decide)
  · exact absurd hb (by decide)

/-- The value that is read. -/
theorem assignment_text (before : Blanks) (key : PlainKey) (between after : Blanks) (q : Quoting)
    (value : PlainValue) {tail : Bytes} (htail : ∀ b ∈ tail, isTrailing b = true) :
    assignment (assignmentText before key between after q value ++ tail)
      = some (key.text, unquote (after.text ++ q.wrap value.text)) := by
  have hline : assignmentText before key between after q value ++ tail
      = before.text ++ (key.text ++ (between.text
        ++ '='.toUInt8 :: ((after.text ++ q.wrap value.text) ++ tail))) := by
    simp [assignmentText]
  have hne : q.wrap value.text ≠ [] := by
    cases q with
    | bare => exact value.nonempty
    | double => simp [Quoting.wrap]
    | single => simp [Quoting.wrap]
  have hval : ((after.text ++ q.wrap value.text) ++ tail).rdropWhile isTrailing
      = after.text ++ q.wrap value.text := by
    refine rdropWhile_append (fun b hb => wrap_ends q value b ?_) htail
    rwa [List.getLast?_append_of_ne_nil _ hne] at hb
  rw [hline, assignment_line, hval]

/-! ## Loading it -/

/-- A text without a line break is a line. -/
theorem lines_single {line : Bytes} (h : '\n'.toUInt8 ∉ line) (hne : line ≠ []) :
    lines line = [line] := by
  induction line with
  | nil => exact absurd rfl hne
  | cons b line ih =>
      rw [List.mem_cons, not_or] at h
      obtain ⟨hb, hline⟩ := h
      rw [lines, if_neg (Ne.symm hb)]
      cases line with
      | nil => rfl
      | cons c rest => rw [ih hline (List.cons_ne_nil c rest)]

/-- What is left of the line end when the line is read. -/
def LineEnd.rest : LineEnd → Bytes
  | none => []
  | lf => []
  | crlf => ['\r'.toUInt8]

/-- The line, with or without an end, is the only one. -/
theorem lines_lineEnd {line : Bytes} (h : '\n'.toUInt8 ∉ line) (hne : line ≠ []) (e : LineEnd) :
    lines (line ++ e.text) = [line ++ e.rest] := by
  cases e with
  | none =>
      rw [LineEnd.text, LineEnd.rest, List.append_nil]
      exact lines_single h hne
  | lf =>
      rw [LineEnd.text, LineEnd.rest, List.append_nil]
      exact lines_cons h []
  | crlf =>
      have hsingle : '\n'.toUInt8 ∉ line ++ ['\r'.toUInt8] := by
        intro hmem
        rcases List.mem_append.mp hmem with hmem | hmem
        · exact h hmem
        · exact absurd (List.mem_singleton.mp hmem) (by decide)
      have hsplit : line ++ LineEnd.crlf.text
          = (line ++ ['\r'.toUInt8]) ++ '\n'.toUInt8 :: [] := by
        simp [LineEnd.text]
      rw [hsplit, lines_cons hsingle]
      rfl

/-- A value as it is written has no line break. -/
theorem wrap_single (q : Quoting) (value : PlainValue) : '\n'.toUInt8 ∉ q.wrap value.text := by
  have hbare : '\n'.toUInt8 ∉ value.text := fun h => (value.chars _ h).2.1 rfl
  cases q with
  | bare => exact hbare
  | double =>
      simp only [Quoting.wrap, List.mem_cons, List.mem_append, List.not_mem_nil, or_false, not_or]
      exact ⟨by decide, hbare, by decide⟩
  | single =>
      simp only [Quoting.wrap, List.mem_cons, List.mem_append, List.not_mem_nil, or_false, not_or]
      exact ⟨by decide, hbare, by decide⟩

/-- An assignment stands in one line. -/
theorem assignmentText_single (before : Blanks) (key : PlainKey) (between after : Blanks)
    (q : Quoting) (value : PlainValue) :
    '\n'.toUInt8 ∉ assignmentText before key between after q value := by
  simp only [assignmentText, List.mem_append, List.mem_cons, not_or]
  exact ⟨before.not_mem (by decide), fun h => (key.chars _ h).2.2.1 rfl,
    between.not_mem (by decide), by decide, after.not_mem (by decide),
    wrap_single q value⟩

/-- **The value of the key is what stands behind the `=`, blanks and all.** -/
theorem getenv_assignmentText (before : Blanks) (key : PlainKey) (between after : Blanks)
    (q : Quoting) (value : PlainValue) (e : LineEnd) {env : Environment}
    (hunset : getenv env key.text = none) :
    getenv (loadDotenv (some (assignmentText before key between after q value ++ e.text)) env)
        key.text
      = some (cStr (unquote (after.text ++ q.wrap value.text))) := by
  have hrest : ∀ b ∈ e.rest, isTrailing b = true := by
    cases e with
    | none => exact fun b hb => absurd hb List.not_mem_nil
    | lf => exact fun b hb => absurd hb List.not_mem_nil
    | crlf =>
        intro b hb
        rw [List.mem_singleton.mp hb]
        decide
  have hne : assignmentText before key between after q value ≠ [] := by
    simp [assignmentText]
  rw [loadDotenv, lines_lineEnd (assignmentText_single before key between after q value) hne]
  show getenv (loadLine env _) key.text = _
  rw [getenv_loadLine_some (assignment_text before key between after q value hrest), hunset,
    Option.none_or, if_pos rfl]

/--
**A `.env` assignment is read as it was written exactly if no blank stands between
the `=` and the value.** Blanks before the key and behind it make no difference, and
neither do the quotes and the line end.
-/
theorem assignment_blanks_iff (before : Blanks) (key : PlainKey) (between after : Blanks)
    (q : Quoting) (value : PlainValue) (e : LineEnd) (env : Environment)
    (hunset : getenv env key.text = none) :
    getenv (loadDotenv (some (assignmentText before key between after q value ++ e.text)) env)
        key.text = some value.text
      ↔ after.text = [] := by
  have hread := getenv_assignmentText before key between after q value e hunset
  rw [hread, Option.some_inj]
  cases hafter : after.text with
  | nil =>
      have hvalue : cStr value.text = value.text :=
        cStr_of_not_mem (fun b hb => (value.chars b hb).1)
      rw [List.nil_append, unquote_wrap, hvalue]
      exact iff_of_true rfl rfl
  | cons b blanks =>
      have hb : isBlank b = true := after.blank b (by rw [hafter]; exact List.mem_cons_self)
      -- the blank is the first character of the value, and the value has no such one
      have hfirst : cStr (b :: (blanks ++ q.wrap value.text)) ≠ value.text := by
        intro heq
        have hnul : b ≠ 0 := by
          rcases isBlank_cases hb with rfl | rfl <;> decide
        rw [cStr, List.takeWhile_cons, if_pos (bne_iff_ne.mpr hnul)] at heq
        have hnot := value.begins b (by rw [← heq]; rfl)
        rw [hb] at hnot
        exact Bool.noConfusion hnot
      rw [List.cons_append, unquote_blank hb]
      exact iff_of_false hfirst (List.cons_ne_nil b blanks)

/-- The key `K`. -/
def keyK : PlainKey where
  text := ['K'.toUInt8]
  nonempty := List.cons_ne_nil _ _
  chars := fun b hb => by rw [List.mem_singleton.mp hb]; decide
  begins := fun b hb => by rw [← Option.some.inj hb]; decide
  ends := fun b hb => by rw [← Option.some.inj hb]; decide

/-- The value `v`. -/
def valueV : PlainValue where
  text := ['v'.toUInt8]
  nonempty := List.cons_ne_nil _ _
  chars := fun b hb => by rw [List.mem_singleton.mp hb]; decide
  begins := fun b hb => by rw [← Option.some.inj hb]; decide
  ends := fun b hb => by rw [← Option.some.inj hb]; decide
  unquoted := fun q _ inner h => by
    have hlen := congrArg List.length h
    simp at hlen

def Blanks.nil : Blanks := ⟨[], fun _ hb => absurd hb List.not_mem_nil⟩

def Blanks.single (b : UInt8) (h : isBlank b = true) : Blanks :=
  ⟨[b], fun c hc => by rw [List.mem_singleton.mp hc]; exact h⟩

/-- Blanks before the key and behind it, quotes and CRLF: `␠K␉="v"`. -/
theorem assignment_blanks_iff_quoted :
    getenv (loadDotenv (some (utf8 " K\t=\"v\"\r\n")) []) (utf8 "K") = some (utf8 "v") :=
  (assignment_blanks_iff (.single ' '.toUInt8 rfl) keyK (.single '\t'.toUInt8 rfl) .nil .double
    valueV .crlf [] rfl).mpr rfl

/-- The blank in `K= v` becomes part of the value. -/
theorem not_assignment_blanks :
    ¬ ∀ before key between after q value e env, getenv env (PlainKey.text key) = none →
      getenv (loadDotenv (some (assignmentText before key between after q value
        ++ LineEnd.text e)) env) key.text = some value.text := by
  intro h
  have hread := h .nil keyK .nil (.single ' '.toUInt8 rfl) .bare valueV .none [] rfl
  exact absurd hread (by decide)

end CloudGateway.Proof
