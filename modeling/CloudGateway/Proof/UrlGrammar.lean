import CloudGateway.Proof.Url

/-!
# `parse_url` against the form of its comment

The comment promises `protocol://host:port/path?query#fragment`. `UrlForm` is a
URL of that form. Every one is read as it should be, and so is every other text,
unless a colon after the host is not the beginning of a port: the expression then
takes what follows the host, or the digits, for a path.
-/

namespace CloudGateway.Proof

open Transport

/-! ## The documented form -/

/-- `protocol://host[:port][path][?query][#fragment]`. -/
structure UrlForm where
  https : Bool
  host : Bytes
  port : Option Bytes
  path : Bytes
  query : Option Bytes
  fragment : Option Bytes
  host_ne : host ≠ []
  host_ok : ∀ b ∈ host, b ≠ ':'.toUInt8 ∧ b ≠ '/'.toUInt8 ∧ b ≠ '?'.toUInt8 ∧ b ≠ '#'.toUInt8
  port_ok : ∀ ds ∈ port, ds ≠ [] ∧ ∀ b ∈ ds, '0'.toUInt8 ≤ b ∧ b ≤ '9'.toUInt8
  path_begins : path = [] ∨ path.head? = some '/'.toUInt8
  path_ok : ∀ b ∈ path, b ≠ '?'.toUInt8 ∧ b ≠ '#'.toUInt8
  query_ok : ∀ q ∈ query, ∀ b ∈ q, b ≠ '#'.toUInt8

/-- A part that may be missing, with its separator. -/
def partText (separator : UInt8) : Option Bytes → Bytes
  | none => []
  | some part => separator :: part

namespace UrlForm

/-- What follows the authority. -/
def rest (f : UrlForm) : Bytes :=
  f.path ++ (partText '?'.toUInt8 f.query ++ partText '#'.toUInt8 f.fragment)

/-- The URL itself. -/
def text (f : UrlForm) : Bytes :=
  protocolOf f.https ++ (utf8 "://" ++ (f.host ++ (partText ':'.toUInt8 f.port ++ f.rest)))

/-- What it stands for. -/
def url (f : UrlForm) : Url :=
  { protocol := protocolOf f.https
    host := f.host
    port := f.port.getD (defaultPort (protocolOf f.https))
    path := requestPath f.path (f.query.getD []) }

end UrlForm

/-- There is no line break. -/
def LineFree (s : Bytes) : Prop := ∀ b ∈ s, isAny b = true

/-- `parse_url` accepts a text if and only if it is of the form, and then reads it as such. -/
structure ReadAsDocumented (s : Bytes) : Prop where
  accepted : (parseUrl s).isSome = true ↔ ∃ f : UrlForm, f.text = s
  parts : ∀ f : UrlForm, f.text = s → parseUrl s = some f.url

/-- What follows a host: a colon in front begins a port, and the port ends where it should. -/
def PortEnds (after : Bytes) : Prop :=
  after.head? = some ':'.toUInt8 →
    portDigits after ≠ []
      ∧ ∀ b ∈ (after.tail.dropWhile isDigit).head?,
          b = '/'.toUInt8 ∨ b = '?'.toUInt8 ∨ b = '#'.toUInt8

/--
A colon directly after the host of a URL is followed by digits, and these by a
slash, a question mark, a hash or the end.
-/
def ColonBeginsPort (s : Bytes) : Prop :=
  ∀ https x, s = protocolOf https ++ (utf8 "://" ++ x) → x.takeWhile isHostChar ≠ [] →
    PortEnds (x.dropWhile isHostChar)

/-! ## URLs of the form are accepted -/

theorem portText_eq (port : Option Bytes) : portText port = partText ':'.toUInt8 port := by
  cases port <;> rfl

theorem UrlForm.host_chars (f : UrlForm) : ∀ b ∈ f.host, isHostChar b = true := by
  intro b hb
  obtain ⟨h₁, h₂, h₃, h₄⟩ := f.host_ok b hb
  simp only [isHostChar, Bool.and_eq_true, bne_iff_ne]
  exact ⟨⟨⟨h₁, h₂⟩, h₃⟩, h₄⟩

theorem UrlForm.port_digits (f : UrlForm) :
    ∀ ds ∈ f.port, ds ≠ [] ∧ ∀ b ∈ ds, isDigit b = true := by
  intro ds hds
  refine ⟨(f.port_ok ds hds).1, fun b hb => ?_⟩
  obtain ⟨hlow, hhigh⟩ := (f.port_ok ds hds).2 b hb
  simp only [isDigit, Bool.and_eq_true, decide_eq_true_eq]
  exact ⟨hlow, hhigh⟩

theorem UrlForm.path_chars (f : UrlForm) : ∀ b ∈ f.path, isPathChar b = true := by
  intro b hb
  obtain ⟨h₁, h₂⟩ := f.path_ok b hb
  simp only [isPathChar, Bool.and_eq_true, bne_iff_ne]
  exact ⟨h₁, h₂⟩

/-- The path, the query or the fragment begins what follows the authority. -/
theorem UrlForm.rest_begins (f : UrlForm) :
    ∀ b ∈ f.rest.head?, b = '/'.toUInt8 ∨ b = '?'.toUInt8 ∨ b = '#'.toUInt8 := by
  intro b hb
  rw [rest] at hb
  rcases f.path_begins with hpath | hpath
  · rw [hpath, List.nil_append] at hb
    cases hq : f.query with
    | some q =>
        rw [hq] at hb
        exact .inr (.inl (Option.some.inj hb).symm)
    | none =>
        rw [hq] at hb
        cases hf : f.fragment with
        | some u =>
            rw [hf] at hb
            exact .inr (.inr (Option.some.inj hb).symm)
        | none =>
            rw [hf] at hb
            exact absurd hb (by simp [partText])
  · rw [List.head?_append, hpath] at hb
    exact .inl (Option.some.inj hb).symm

/-- A set that contains none of the three separators takes nothing from there. -/
theorem UrlForm.rest_stops (f : UrlForm) {p : UInt8 → Bool} (h₁ : p '/'.toUInt8 = false)
    (h₂ : p '?'.toUInt8 = false) (h₃ : p '#'.toUInt8 = false) : f.rest.takeWhile p = [] := by
  have hbegins := f.rest_begins
  cases h : f.rest with
  | nil => rfl
  | cons b u =>
      rw [h] at hbegins
      refine List.takeWhile_cons_of_neg ?_
      rcases hbegins b rfl with rfl | rfl | rfl
      · simp [h₁]
      · simp [h₂]
      · simp [h₃]

/-- What follows the authority ends the port, if there is one, and begins none. -/
theorem UrlForm.delimited (f : UrlForm) : Delimited f.port f.rest := by
  cases f.port with
  | some ds => exact f.rest_stops (by decide) (by decide) (by decide)
  | none =>
      refine ⟨f.rest_stops (by decide) (by decide) (by decide), if_neg (fun hcolon => ?_)⟩
      rcases f.rest_begins _ hcolon with h | h | h <;> exact absurd h (by decide)

/-- After the path there is nothing that belongs to a path. -/
theorem partText_stops (f : UrlForm) :
    (partText '?'.toUInt8 f.query ++ partText '#'.toUInt8 f.fragment).takeWhile isPathChar = [] := by
  cases f.query with
  | some q => exact List.takeWhile_cons_of_neg (by decide)
  | none =>
      cases f.fragment with
      | some u => exact List.takeWhile_cons_of_neg (by decide)
      | none => rfl

/-- The query is read as it stands. -/
theorem UrlForm.query_read (f : UrlForm) : queryOf f.rest = f.query.getD [] := by
  have hfragment : (partText '#'.toUInt8 f.fragment).takeWhile isQueryChar = [] := by
    cases f.fragment with
    | some u => exact List.takeWhile_cons_of_neg (by decide)
    | none => rfl
  rw [queryOf, rest, (span_append f.path_chars (partText_stops f)).2]
  have hquery := f.query_ok
  cases hq : f.query with
  | none => rw [partText, List.nil_append, hfragment]; rfl
  | some q =>
      rw [hq] at hquery
      have hchars : ∀ b ∈ '?'.toUInt8 :: q, isQueryChar b = true := by
        intro b hb
        rcases List.mem_cons.mp hb with rfl | hb
        · decide
        · simp only [isQueryChar, bne_iff_ne]
          exact hquery q rfl b hb
      rw [partText, (span_append hchars hfragment).1]
      rfl

/-- A URL of the form is one of the texts that are accepted. -/
def UrlForm.toText (f : UrlForm) (hok : FragmentOk f.rest) : UrlText where
  https := f.https
  host := f.host
  port := f.port
  rest := f.rest
  host_ne := f.host_ne
  host_ok := f.host_chars
  port_ok := f.port_digits
  delimited := f.delimited
  fragment_ok := hok

theorem UrlForm.toText_text (f : UrlForm) (hok : FragmentOk f.rest) :
    (f.toText hok).text = f.text := by
  rw [UrlText.text, portText_eq]
  rfl

theorem UrlForm.toText_url (f : UrlForm) (hok : FragmentOk f.rest) :
    (f.toText hok).url = f.url := by
  have hpath : f.rest.takeWhile isPathChar = f.path :=
    (span_append f.path_chars (partText_stops f)).1
  show Url.mk _ _ _ (requestPath (f.rest.takeWhile isPathChar) (queryOf f.rest)) = _
  rw [hpath, f.query_read]
  rfl

/-- **A URL of the form is read as it stands.** -/
theorem parseUrl_form (f : UrlForm) (hline : LineFree f.text) : parseUrl f.text = some f.url := by
  have hok : FragmentOk f.rest := by
    intro b hb
    refine hline b ?_
    have hrest : b ∈ f.rest := (List.dropWhile_suffix _).mem hb
    simp only [UrlForm.text, List.mem_append]
    exact .inr (.inr (.inr (.inr hrest)))
  rw [← f.toText_text hok, parseUrl_text, f.toText_url]

/-! ## Texts that are not of the form -/

/-- In a URL of the form a colon after the host begins a port. -/
theorem UrlForm.colonBeginsPort (f : UrlForm) : ColonBeginsPort f.text := by
  intro https x hx _ hcolon
  obtain ⟨_, rfl⟩ := protocolOf_cancel hx
  have hstop : (partText ':'.toUInt8 f.port ++ f.rest).takeWhile isHostChar = [] := by
    cases f.port with
    | some ds => exact List.takeWhile_cons_of_neg (by decide)
    | none => exact f.rest_stops (by decide) (by decide) (by decide)
  rw [(span_append f.host_chars hstop).2] at hcolon ⊢
  have hdigits := f.port_digits
  cases hport : f.port with
  | none =>
      -- then the rest begins with the colon
      rw [hport] at hcolon
      rcases f.rest_begins _ hcolon with h | h | h <;> exact absurd h (by decide)
  | some ds =>
      rw [hport] at hdigits
      obtain ⟨hne, hds⟩ := hdigits ds rfl
      have hend : f.rest.takeWhile isDigit = [] :=
        f.rest_stops (by decide) (by decide) (by decide)
      obtain ⟨htake, hdrop⟩ := span_append hds hend
      refine ⟨?_, ?_⟩
      · rw [portDigits, if_pos (by rfl)]
        exact htake.symm ▸ hne
      · show ∀ b ∈ ((ds ++ f.rest).dropWhile isDigit).head?, _
        rw [hdrop]
        exact f.rest_begins

/-- What follows a path is a query and a fragment, where there are any. -/
theorem exists_parts (rest : Bytes) :
    ∃ query fragment, rest = rest.takeWhile isPathChar
        ++ (partText '?'.toUInt8 query ++ partText '#'.toUInt8 fragment)
      ∧ ∀ q ∈ query, ∀ b ∈ q, b ≠ '#'.toUInt8 := by
  have hsplit := List.takeWhile_append_dropWhile (p := isPathChar) (l := rest)
  rcases path_end (takeWhile_dropWhile isPathChar rest) with h | ⟨t, h⟩ | ⟨t, h⟩
  · refine ⟨none, none, ?_, fun q hq => absurd hq (by simp)⟩
    rw [h] at hsplit
    exact hsplit.symm
  · have hquery := List.takeWhile_append_dropWhile (p := isQueryChar) (l := t)
    have hfragment : ∃ fragment, t.dropWhile isQueryChar = partText '#'.toUInt8 fragment := by
      cases hf : t.dropWhile isQueryChar with
      | nil => exact ⟨none, rfl⟩
      | cons b u =>
          have hb := head?_dropWhile (congrArg List.head? hf)
          simp only [isQueryChar, bne_eq_false_iff_eq] at hb
          exact ⟨some u, by rw [hb]; rfl⟩
    obtain ⟨fragment, hfragment⟩ := hfragment
    refine ⟨some (t.takeWhile isQueryChar), fragment, ?_, ?_⟩
    · rw [← hfragment, partText, List.cons_append, hquery, ← h, hsplit]
    · intro q hq b hb
      obtain rfl := Option.some.inj hq
      simpa [isQueryChar] using List.mem_takeWhile_imp hb
  · refine ⟨none, some t, ?_, fun q hq => absurd hq (by simp)⟩
    rw [h] at hsplit
    exact hsplit.symm

/-- What an accepted text has after its authority, once a colon there begins a port. -/
theorem UrlText.rest_begins {t : UrlText} (h : ColonBeginsPort t.text) :
    ∀ b ∈ t.rest.head?, b = '/'.toUInt8 ∨ b = '?'.toUInt8 ∨ b = '#'.toUInt8 := by
  obtain ⟨htake, hdrop⟩ := span_append t.host_ok t.host_end
  have hends := h t.https _ rfl (htake.symm ▸ t.host_ne)
  rw [hdrop] at hends
  have hdel := t.delimited
  have hdigits := t.port_ok
  cases hport : t.port with
  | some ds =>
      rw [hport] at hends hdel hdigits
      have hrest := (hends rfl).2
      have hspan := (span_append (hdigits ds rfl).2 hdel).2
      show ∀ b ∈ t.rest.head?, _
      rwa [← hspan]
  | none =>
      rw [hport] at hends hdel
      intro b hb
      have hne : b ≠ ':'.toUInt8 := fun hcolon => (hends (hcolon ▸ hb)).1 hdel.2
      have hnot : isHostChar b = false := by
        cases hrest : t.rest with
        | nil => rw [hrest] at hb; exact absurd hb (by simp)
        | cons b' u =>
            rw [hrest] at hb
            obtain rfl : b' = b := Option.some.inj hb
            by_contra hchar
            have htaken := hdel.1
            rw [hrest, List.takeWhile_cons_of_pos (by simpa using hchar)] at htaken
            exact List.cons_ne_nil _ _ htaken
      simp only [isHostChar, Bool.and_eq_false_iff, bne_eq_false_iff_eq] at hnot
      rcases hnot with ((h | h) | h) | h
      · exact absurd h hne
      · exact .inl h
      · exact .inr (.inl h)
      · exact .inr (.inr h)

/-- An accepted text in which a colon begins a port is of the form. -/
theorem exists_form {t : UrlText} (h : ColonBeginsPort t.text) :
    ∃ f : UrlForm, f.text = t.text := by
  obtain ⟨query, fragment, hparts, hquery⟩ := exists_parts t.rest
  have hbegins := UrlText.rest_begins h
  refine ⟨{ https := t.https, host := t.host, port := t.port
            path := t.rest.takeWhile isPathChar, query := query, fragment := fragment
            host_ne := t.host_ne, host_ok := ?_, port_ok := ?_, path_begins := ?_, path_ok := ?_
            query_ok := hquery }, ?_⟩
  · intro b hb
    have hchar := t.host_ok b hb
    simp only [isHostChar, Bool.and_eq_true, bne_iff_ne] at hchar
    exact ⟨hchar.1.1.1, hchar.1.1.2, hchar.1.2, hchar.2⟩
  · intro ds hds
    refine ⟨(t.port_ok ds hds).1, fun b hb => ?_⟩
    have hdigit := (t.port_ok ds hds).2 b hb
    simp only [isDigit, Bool.and_eq_true, decide_eq_true_eq] at hdigit
    exact hdigit
  · cases hrest : t.rest with
    | nil => exact .inl rfl
    | cons b u =>
        rw [hrest] at hbegins
        rcases hbegins b rfl with rfl | rfl | rfl
        · exact .inr rfl
        · exact .inl rfl
        · exact .inl rfl
  · intro b hb
    simpa [isPathChar] using List.mem_takeWhile_imp hb
  · rw [UrlText.text, portText_eq]
    show protocolOf t.https ++ (utf8 "://" ++ (t.host ++ (partText ':'.toUInt8 t.port ++ _))) = _
    rw [UrlForm.rest, ← hparts]

/--
**`parse_url` reads a text as documented exactly if a colon after its host begins a
port.** Otherwise it accepts a text that is not of the form.
-/
theorem read_as_documented_iff {s : Bytes} (hline : LineFree s) :
    ReadAsDocumented s ↔ ColonBeginsPort s := by
  have hparts : ∀ f : UrlForm, f.text = s → parseUrl s = some f.url := by
    rintro f rfl
    exact parseUrl_form f hline
  constructor
  · intro hread https x hx hhost
    have hok : FragmentOk x := by
      intro b hb
      refine hline b ?_
      rw [hx]
      simp only [List.mem_append]
      exact .inr (.inr ((List.dropWhile_suffix _).mem hb))
    obtain ⟨f, hf⟩ := hread.accepted.mp (by rw [hx, parseUrl_split https hhost hok]; rfl)
    exact (hf ▸ f.colonBeginsPort) https x hx hhost
  · intro hcolon
    refine ⟨⟨?_, fun ⟨f, hf⟩ => by rw [hparts f hf]; rfl⟩, hparts⟩
    intro h
    obtain ⟨u, hu⟩ := Option.isSome_iff_exists.mp h
    obtain ⟨t, rfl, _⟩ := parseUrl_eq_some_iff.mp hu
    exact exists_form hcolon

/-- What holds of the bytes of a text is looked up in the text, not among all bytes. -/
instance (s : Bytes) (p : UInt8 → Prop) [DecidablePred p] : Decidable (∀ b ∈ s, p b) :=
  List.decidableBAll p s

instance (s : Bytes) : Decidable (LineFree s) := List.decidableBAll (isAny · = true) s

/-- A URL with everything in it, slashes in the query included. -/
theorem read_as_documented_iff_full :
    LineFree (utf8 "https://example.org:8443/a/b?c=/d#e")
      ∧ ReadAsDocumented (utf8 "https://example.org:8443/a/b?c=/d#e") := by
  let f : UrlForm :=
    { https := true, host := utf8 "example.org", port := some (utf8 "8443"), path := utf8 "/a/b"
      query := some (utf8 "c=/d"), fragment := some (utf8 "e"), host_ne := by decide
      host_ok := by decide, port_ok := by decide, path_begins := by decide, path_ok := by decide
      query_ok := by decide }
  have hline : LineFree (utf8 "https://example.org:8443/a/b?c=/d#e") := by decide
  have hcolon : ColonBeginsPort (utf8 "https://example.org:8443/a/b?c=/d#e") := f.colonBeginsPort
  exact ⟨hline, (read_as_documented_iff hline).mpr hcolon⟩

/-- An address in brackets is cut at its first colon, and accepted. -/
theorem not_readAsDocumented : ¬ ∀ s, LineFree s → ReadAsDocumented s := by
  intro h
  have hread := h (utf8 "http://[::1]:8080/login") (by decide)
  obtain ⟨f, hf⟩ := hread.accepted.mp (by decide)
  have hcolon : ColonBeginsPort (utf8 "http://[::1]:8080/login") := hf ▸ f.colonBeginsPort
  exact (hcolon false (utf8 "[::1]:8080/login") (by decide) (by decide) (by decide)).1 (by decide)

end CloudGateway.Proof
