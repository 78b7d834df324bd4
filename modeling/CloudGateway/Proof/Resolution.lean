import CloudGateway.Lib.Reference
import CloudGateway.Proof.Origin

/-!
# `resolve_redirect` against the resolution of the URI standard

`resolve_redirect` has one rule for what begins with a slash and one for the rest,
and looks for the directory in the path and the query together. So a `Location`
that begins with two slashes stays on the host of the base, one that is only a query
loses the last segment of the base's path, and a slash in the query of the base is
taken for the end of a directory. Everything else is resolved as the standard says.
-/

namespace CloudGateway.Proof

open Transport Reference

/-! ## What the standard says -/

/-- The base, as the standard takes it apart. -/
def UrlForm.parts (f : UrlForm) : Parts :=
  { authority := some (f.host ++ partText ':'.toUInt8 f.port), path := f.path, query := f.query }

/--
An authority names the host and the port; with no port or an empty one, the default.
User information in an authority is taken as part of the host, as the code takes it.
-/
def Names (u : Url) (authority : Bytes) : Prop :=
  ∃ port : Option Bytes, authority = u.host ++ partText ':'.toUInt8 port
    ∧ (∀ b ∈ port.getD [], isDigit b = true)
    ∧ u.port = if port.getD [] = [] then defaultPort u.protocol else port.getD []

/-- What is requested, without dot segments in its path. -/
def cleaned (path : Bytes) : Bytes :=
  removeDotSegments (path.takeWhile isPathChar) ++ path.dropWhile isPathChar

/-- A URL is what the standard resolves to, up to the removal of dot segments. -/
structure Denotes (protocol : Bytes) (u : Url) (target : Parts) : Prop where
  protocol : u.protocol = protocol
  authority : ∃ a, target.authority = some a ∧ Names u a
  path : cleaned u.path = cleaned (requestPath target.path (target.query.getD []))

/-- `resolve_redirect` leads where the standard does. -/
def ResolvesAsStandard (f : UrlForm) (location : Bytes) : Prop :=
  ∃ url v, resolveRedirect f.text location = some url ∧ parseUrl url = some v
    ∧ Denotes (protocolOf f.https) v (resolve f.parts (read location))

/-- The path that is requested where there is none. -/
def orRoot (path : Bytes) : Bytes := if path = [] then utf8 "/" else path

/--
Where the rules of `resolve_redirect` are those of the standard. What begins with
two slashes names the origin of the base, and its path leads up over the authority
that is left in front of it. Anything else begins with a slash, or there is none in
the query of the base, and there is a path to go on with or the base's path is,
without dot segments, its own directory.
-/
def FollowsStandard (f : UrlForm) (location : Bytes) : Prop :=
  match (read location).authority with
  | some a =>
      Names f.url a
        ∧ climbs (push [[]] a).length (segments (read location).path) = true
  | none =>
      location.head? = some '/'.toUInt8
        ∨ ('/'.toUInt8 ∉ f.query.getD []
          ∧ ((read location).path ≠ []
            ∨ removeDotSegments (merge f.path []) = removeDotSegments (orRoot f.path)))

/-! ## Paths with a query -/

theorem cleaned_requestPath {path : Bytes} (hpath : ∀ b ∈ path, isPathChar b = true)
    (query : Bytes) :
    (requestPath path query).takeWhile isPathChar = orRoot path
      ∧ (requestPath path query).dropWhile isPathChar
        = if query = [] then [] else utf8 "?" ++ query := by
  have hchars : ∀ b ∈ orRoot path, isPathChar b = true := by
    intro b hb
    unfold orRoot at hb
    split at hb
    · rw [List.mem_singleton.mp hb]; decide
    · exact hpath b hb
  refine span_append hchars ?_
  split
  · rfl
  · exact List.takeWhile_cons_of_neg (by decide)

theorem removeDotSegments_chars {path : Bytes} (hpath : ∀ b ∈ path, isPathChar b = true) :
    ∀ b ∈ removeDotSegments path, isPathChar b = true := by
  intro b hb
  rcases mem_removeDotSegments hb with rfl | hb
  · decide
  · exact hpath b hb

/-- Two are cleaned to the same if their paths are, and their queries are the same. -/
theorem cleaned_eq_iff {path path' query query' : Bytes} (hpath : ∀ b ∈ path, isPathChar b = true)
    (hpath' : ∀ b ∈ path', isPathChar b = true) :
    cleaned (requestPath path query) = cleaned (requestPath path' query')
      ↔ removeDotSegments (orRoot path) = removeDotSegments (orRoot path') ∧ query = query' := by
  have hspan : ∀ {p q : Bytes}, (∀ b ∈ p, isPathChar b = true) →
      (cleaned (requestPath p q)).takeWhile isPathChar = removeDotSegments (orRoot p)
        ∧ (cleaned (requestPath p q)).dropWhile isPathChar
          = if q = [] then [] else utf8 "?" ++ q := by
    intro p q hp
    obtain ⟨htake, hdrop⟩ := cleaned_requestPath hp q
    have hchars : ∀ b ∈ orRoot p, isPathChar b = true := by
      rw [← htake]
      exact fun b hb => List.mem_takeWhile_imp hb
    rw [cleaned, htake, hdrop]
    refine span_append (removeDotSegments_chars hchars) ?_
    split
    · rfl
    · exact List.takeWhile_cons_of_neg (by decide)
  obtain ⟨htake, hdrop⟩ := hspan (q := query) hpath
  obtain ⟨htake', hdrop'⟩ := hspan (q := query') hpath'
  constructor
  · intro h
    refine ⟨by rw [← htake, ← htake', h], ?_⟩
    have hquery : (if query = [] then [] else utf8 "?" ++ query)
        = if query' = [] then [] else utf8 "?" ++ query' := by rw [← hdrop, ← hdrop', h]
    by_cases hq : query = [] <;> by_cases hq' : query' = []
    · rw [hq, hq']
    · rw [if_pos hq, if_neg hq'] at hquery
      exact absurd hquery.symm (List.cons_ne_nil _ _)
    · rw [if_neg hq, if_pos hq'] at hquery
      exact absurd hquery (List.cons_ne_nil _ _)
    · rw [if_neg hq, if_neg hq'] at hquery
      exact List.append_cancel_left hquery
  · rintro ⟨hsegments, rfl⟩
    rw [cleaned, cleaned, (cleaned_requestPath hpath _).1, (cleaned_requestPath hpath _).2,
      (cleaned_requestPath hpath' _).1, (cleaned_requestPath hpath' _).2, hsegments]

/-- Removing dot segments once is enough. -/
theorem removeDotSegments_orRoot (path : Bytes) :
    removeDotSegments (orRoot (removeDotSegments path)) = removeDotSegments (orRoot path) := by
  cases path with
  | nil => rfl
  | cons b path =>
      have hne : removeDotSegments (b :: path) ≠ [] := List.cons_ne_nil _ _
      rw [orRoot, if_neg hne, orRoot, if_neg (List.cons_ne_nil _ _), removeDotSegments_idem]

/-- The query as the standard reads it, and as `parse_url` does. -/
theorem readQuery_getD (text : Bytes) : (readQuery text).getD [] = queryOf text := by
  have hpath : inPath = isPathChar := rfl
  rw [readQuery, queryOf, hpath]
  rcases path_end (takeWhile_dropWhile isPathChar text) with h | ⟨t, h⟩ | ⟨t, h⟩
  · rw [h]; rfl
  · have hmark : ('?'.toUInt8 :: t).head? = some '?'.toUInt8 := rfl
    rw [h, if_pos hmark, List.takeWhile_cons_of_pos (by decide)]
    rfl
  · have hhash : ¬ ('#'.toUInt8 :: t).head? = some '?'.toUInt8 := by
      intro hh
      exact absurd (Option.some.inj hh) (by decide)
    rw [h, if_neg hhash, List.takeWhile_cons_of_neg (by decide)]
    rfl

/-! ## The directory of the base -/

/-- The base's path and query. -/
theorem UrlForm.url_path (f : UrlForm) :
    f.url.path = orRoot f.path
      ++ if f.query.getD [] = [] then [] else utf8 "?" ++ f.query.getD [] := rfl

theorem UrlForm.orRoot_begins (f : UrlForm) : ∃ p, orRoot f.path = '/'.toUInt8 :: p := by
  rcases f.path_begins with hpath | hpath
  · exact ⟨[], if_pos hpath⟩
  · cases hp : f.path with
    | nil => exact ⟨[], if_pos rfl⟩
    | cons b p =>
        rw [hp] at hpath
        exact ⟨p, by rw [orRoot, if_neg (List.cons_ne_nil _ _), Option.some.inj hpath]⟩

theorem directory_append_of_not_mem {path t : Bytes} (hpath : '/'.toUInt8 ∈ path)
    (ht : '/'.toUInt8 ∉ t) : directory (path ++ t) = directory path := by
  obtain ⟨d, t', rfl, ht'⟩ := exists_last_slash hpath
  have hmem : '/'.toUInt8 ∉ t' ++ t := fun h => (List.mem_append.mp h).elim ht' ht
  rw [directory_append d ht', List.append_assoc, List.cons_append, directory_append d hmem]

/-- Without a slash in the query, it is what the standard merges with. -/
theorem UrlForm.directory_merge (f : UrlForm) (h : '/'.toUInt8 ∉ f.query.getD []) (l : Bytes) :
    directory f.url.path ++ l = merge f.path l := by
  obtain ⟨p, hp⟩ := f.orRoot_begins
  have hslash : '/'.toUInt8 ∈ orRoot f.path := by rw [hp]; exact List.mem_cons_self
  have hquery : '/'.toUInt8 ∉
      (if f.query.getD [] = [] then [] else utf8 "?" ++ f.query.getD []) := by
    split
    · exact List.not_mem_nil
    · intro hmem
      rcases List.mem_append.mp hmem with hmem | hmem
      · exact absurd hmem (by decide)
      · exact h hmem
  rw [f.url_path, directory_append_of_not_mem hslash hquery, merge]
  by_cases hpath : f.path = []
  · rw [if_pos hpath, orRoot, if_pos hpath]
    rfl
  · rw [if_neg hpath, orRoot, if_neg hpath, directory, if_pos]
    rwa [orRoot, if_neg hpath] at hslash

/-- With a slash in the query, it has the beginning of the query in it. -/
theorem UrlForm.directory_query (f : UrlForm) (h : '/'.toUInt8 ∈ f.query.getD []) :
    ∃ q, directory f.url.path = orRoot f.path ++ '?'.toUInt8 :: (q ++ ['/'.toUInt8])
      ∧ ∀ b ∈ q, b ≠ '#'.toUInt8 := by
  obtain ⟨q, t, hq, ht⟩ := exists_last_slash h
  have hne : f.query.getD [] ≠ [] := List.ne_nil_of_mem h
  refine ⟨q, ?_, fun b hb => ?_⟩
  · have hpath : f.url.path = (orRoot f.path ++ '?'.toUInt8 :: q) ++ '/'.toUInt8 :: t := by
      rw [f.url_path, if_neg hne, hq, List.append_assoc]
      rfl
    rw [hpath, directory_append _ ht, List.append_assoc]
    rfl
  · cases hquery : f.query with
    | none => rw [hquery] at hne; exact absurd rfl hne
    | some s =>
        rw [hquery] at hq
        refine f.query_ok s hquery b ?_
        rw [show s = q ++ '/'.toUInt8 :: t from hq]
        exact List.mem_append_left _ hb

/-! ## What `resolve_redirect` leads to -/

section Read

variable {f : UrlForm} {location : Bytes}

theorem UrlForm.fragmentOk (hf : f.fragment = none) : FragmentOk f.rest := by
  have hquery : ∀ b ∈ partText '?'.toUInt8 f.query, isQueryChar b = true := by
    intro b hb
    cases hq : f.query with
    | none => rw [hq] at hb; exact absurd hb List.not_mem_nil
    | some q =>
        rw [hq] at hb
        rcases List.mem_cons.mp hb with rfl | hb
        · decide
        · simp only [isQueryChar, bne_iff_ne]
          exact f.query_ok q hq b hb
  rw [UrlForm.rest, hf, fragmentOk_append (fun b hb => isQueryChar_of_path (f.path_chars b hb)),
    fragmentOk_append hquery]
  exact fun b hb => absurd hb List.not_mem_nil

/-- What is put after the origin begins with a slash. -/
theorem UrlForm.follow_begins (f : UrlForm) (location : Bytes) :
    ∃ l, follow f.url location = '/'.toUInt8 :: l := by
  rcases follow_cases f.url location with ⟨_, l, h⟩ | ⟨_, h⟩
  · exact ⟨l, h⟩
  · obtain ⟨p, hp⟩ := f.orRoot_begins
    obtain ⟨d, hd, hpath⟩ := directory_spec f.url.path
    rw [h, hd]
    rcases hpath with rfl | ⟨t, ht⟩
    · exact ⟨location, rfl⟩
    · cases d with
      | nil => exact ⟨location, rfl⟩
      | cons b d =>
          rw [f.url_path, hp] at ht
          exact ⟨d ++ ['/'.toUInt8] ++ location, by rw [(List.cons.inj ht).1]; rfl⟩

/-- The port `resolve_redirect` writes, or leaves out, is read as the port of the base. -/
theorem UrlForm.rootPort_read (hf : f.fragment = none) :
    (rootPort f.url).getD (defaultPort (protocolOf f.https)) = f.url.port := by
  have hurl := f.toText_url (f.fragmentOk hf)
  rcases rootPort_cases (f.toText (f.fragmentOk hf)) with ⟨hdefault, hnone⟩ | ⟨ds, _, _, hds, hsome⟩
  · rw [hurl] at hdefault hnone
    rw [hnone]
    exact hdefault.symm
  · rw [hurl] at hds hsome
    rw [hsome]
    exact hds.symm

/-- And it is a port the base has. -/
theorem UrlForm.rootPort_ok (hf : f.fragment = none) :
    ∀ ds ∈ rootPort f.url, ds ≠ [] ∧ ∀ b ∈ ds, isDigit b = true := by
  intro ds hds
  have hurl := f.toText_url (f.fragmentOk hf)
  rcases rootPort_cases (f.toText (f.fragmentOk hf)) with ⟨_, hnone⟩ | ⟨ds', _, hds', _, hsome⟩
  · rw [hurl] at hnone
    rw [hnone] at hds
    exact absurd hds (by simp)
  · rw [hurl] at hsome
    rw [hsome] at hds
    obtain rfl := Option.some.inj hds
    exact f.port_digits ds' hds'

/-- **The new URL is accepted, with the origin of the base.** -/
theorem relative_read (hf : f.fragment = none) (hline : LineFree location)
    (habs : isAbsolute location = false) :
    ∃ url, resolveRedirect f.text location = some url
      ∧ parseUrl url = some { f.url with
          path := requestPath ((follow f.url location).takeWhile isPathChar)
            (queryOf (follow f.url location)) } := by
  have hok := f.fragmentOk hf
  have hurl := f.toText_url hok
  obtain ⟨l, hbegins⟩ := f.follow_begins location
  have hstops : ∀ p : UInt8 → Bool, p '/'.toUInt8 = false →
      (follow f.url location).takeWhile p = [] := by
    intro p hp
    rw [hbegins]
    exact List.takeWhile_cons_of_neg (by simp [hp])
  let t : UrlText :=
    { https := f.https
      host := f.host
      port := rootPort f.url
      rest := follow f.url location
      host_ne := f.host_ne
      host_ok := f.host_chars
      port_ok := f.rootPort_ok hf
      delimited := by
        cases rootPort f.url with
        | some ds => exact hstops isDigit (by decide)
        | none =>
            refine ⟨hstops isHostChar (by decide), ?_⟩
            have hcolon : ¬ ('/'.toUInt8 :: l).head? = some ':'.toUInt8 := by
              intro h
              exact absurd (Option.some.inj h) (by decide)
            rw [portDigits, hbegins, if_neg hcolon]
      fragment_ok := hurl ▸ follow_fragmentOk (f.toText hok) hline }
  refine ⟨t.text, ?_, ?_⟩
  · have hnew := resolveRedirect_relative (f.toText hok) habs
    rw [f.toText_text, hurl] at hnew
    exact hnew
  · rw [parseUrl_text]
    show some (Url.mk _ _ ((rootPort f.url).getD _) _) = _
    rw [f.rootPort_read hf]
    rfl

/-- A relative reference is not taken for a URL. -/
theorem isAbsolute_of_isRelative (h : IsRelative location) : isAbsolute location = false := by
  rw [isAbsolute, Bool.or_eq_false_iff]
  have hscheme : ∀ p q : Bytes, (∀ b ∈ p, inAuthority b = true) → ':'.toUInt8 ∈ p →
      location ≠ p ++ q := by
    rintro p q hp hcolon rfl
    refine h.no_scheme ?_
    rw [List.takeWhile_append_of_pos hp]
    exact List.mem_append_left _ hcolon
  constructor
  · rw [Bool.eq_false_iff]
    intro hpre
    obtain ⟨q, rfl⟩ := List.isPrefixOf_iff_prefix.mp hpre
    exact hscheme (utf8 "http:") (utf8 "//" ++ q) (by decide) (by decide) rfl
  · rw [Bool.eq_false_iff]
    intro hpre
    obtain ⟨q, rfl⟩ := List.isPrefixOf_iff_prefix.mp hpre
    exact hscheme (utf8 "https:") (utf8 "//" ++ q) (by decide) (by decide) rfl

end Read

/-! ## The kinds of references -/

section Resolves

variable {f : UrlForm} {location : Bytes}

/-- The authority of the base names its own origin. -/
theorem UrlForm.names (f : UrlForm) : Names f.url (f.host ++ partText ':'.toUInt8 f.port) := by
  have hport : f.url.port = f.port.getD (defaultPort f.url.protocol) := rfl
  refine ⟨f.port, rfl, ?_, ?_⟩
  · intro b hb
    cases hp : f.port with
    | none => rw [hp] at hb; exact absurd hb List.not_mem_nil
    | some ds =>
        rw [hp] at hb
        exact (f.port_digits ds hp).2 b hb
  · rw [hport]
    cases hp : f.port with
    | none => rfl
    | some ds => exact (if_neg (f.port_digits ds hp).1).symm

/-- What `resolve_redirect` leads to, next to what the standard resolves to. -/
def Agrees (f : UrlForm) (location : Bytes) : Prop :=
  Denotes (protocolOf f.https)
    { f.url with
      path := requestPath ((follow f.url location).takeWhile isPathChar)
        (queryOf (follow f.url location)) }
    (resolve f.parts (read location))

theorem resolves_iff_agrees (hf : f.fragment = none) (hrel : IsRelative location) :
    ResolvesAsStandard f location ↔ Agrees f location := by
  have hline : LineFree location := by
    intro b hb
    simp only [isAny, Bool.and_eq_true, bne_iff_ne]
    exact hrel.line_free b hb
  obtain ⟨url, hurl, hv⟩ := relative_read hf hline (isAbsolute_of_isRelative hrel)
  constructor
  · rintro ⟨url', v', hurl', hv', hdenotes⟩
    obtain rfl := Option.some.inj (hurl.symm.trans hurl')
    obtain rfl := Option.some.inj (hv.symm.trans hv')
    exact hdenotes
  · exact fun h => ⟨url, _, hurl, hv, h⟩

theorem queryOf_append {u : Bytes} (hu : ∀ b ∈ u, isPathChar b = true) (v : Bytes) :
    queryOf (u ++ v) = queryOf v := by
  rw [queryOf, queryOf, List.dropWhile_append_of_pos hu]

/-- What begins with a slash is put after the origin as it stands. -/
theorem follow_slash (u : Url) (l : Bytes) : follow u ('/'.toUInt8 :: l) = '/'.toUInt8 :: l :=
  if_pos rfl

theorem takeWhile_path_chars (text : Bytes) :
    ∀ b ∈ text.takeWhile isPathChar, isPathChar b = true :=
  fun _ hb => List.mem_takeWhile_imp hb

/-- An authority is made of characters of a path other than the slash. -/
theorem authority_chars {b : UInt8} (h : inAuthority b = true) :
    b ≠ '/'.toUInt8 ∧ isPathChar b = true := by
  simp only [inAuthority, Bool.and_eq_true, bne_iff_ne] at h
  simp only [isPathChar, Bool.and_eq_true, bne_iff_ne]
  exact ⟨h.1.1, h.1.2, h.2⟩

/-- The path behind an authority is empty or begins with a slash. -/
theorem path_after_authority (x : Bytes) :
    (x.dropWhile inAuthority).takeWhile isPathChar = []
      ∨ ((x.dropWhile inAuthority).takeWhile isPathChar).head? = some '/'.toUInt8 := by
  cases h : x.dropWhile inAuthority with
  | nil => exact .inl rfl
  | cons b rest =>
      have hb := head?_dropWhile (congrArg List.head? h)
      simp only [inAuthority, Bool.and_eq_false_iff, bne_eq_false_iff_eq] at hb
      rcases hb with (rfl | rfl) | rfl
      · exact .inr rfl
      · exact .inl rfl
      · exact .inl rfl

/-- It begins with two slashes, and an authority follows. -/
theorem network_agrees_iff (f : UrlForm) (x : Bytes) :
    Agrees f ('/'.toUInt8 :: '/'.toUInt8 :: x)
      ↔ FollowsStandard f ('/'.toUInt8 :: '/'.toUInt8 :: x) := by
  let a := x.takeWhile inAuthority
  let after := x.dropWhile inAuthority
  have hread : read ('/'.toUInt8 :: '/'.toUInt8 :: x)
      = ⟨some a, after.takeWhile isPathChar, readQuery after⟩ := rfl
  have hsplit : '/'.toUInt8 :: '/'.toUInt8 :: x = ('/'.toUInt8 :: '/'.toUInt8 :: a) ++ after := by
    show _ = '/'.toUInt8 :: '/'.toUInt8 :: (a ++ after)
    rw [List.takeWhile_append_dropWhile]
  have ha : ∀ b ∈ a, b ≠ '/'.toUInt8 ∧ isPathChar b = true :=
    fun b hb => authority_chars (List.mem_takeWhile_imp hb)
  have hchars : ∀ b ∈ '/'.toUInt8 :: '/'.toUInt8 :: a, isPathChar b = true := by
    intro b hb
    rcases List.mem_cons.mp hb with rfl | hb
    · decide
    · rcases List.mem_cons.mp hb with rfl | hb
      · decide
      · exact (ha b hb).2
  have hpath : (follow f.url ('/'.toUInt8 :: '/'.toUInt8 :: x)).takeWhile isPathChar
      = '/'.toUInt8 :: '/'.toUInt8 :: (a ++ after.takeWhile isPathChar) := by
    rw [follow_slash, hsplit, List.takeWhile_append_of_pos hchars]
    rfl
  have hquery : queryOf (follow f.url ('/'.toUInt8 :: '/'.toUInt8 :: x))
      = (readQuery after).getD [] := by
    rw [follow_slash, hsplit, queryOf_append hchars, readQuery_getD]
  have hcleaned : cleaned (requestPath
        ((follow f.url ('/'.toUInt8 :: '/'.toUInt8 :: x)).takeWhile isPathChar)
        (queryOf (follow f.url ('/'.toUInt8 :: '/'.toUInt8 :: x))))
      = cleaned (requestPath (removeDotSegments (after.takeWhile isPathChar))
          ((readQuery after).getD []))
      ↔ climbs (push [[]] a).length (segments (after.takeWhile isPathChar)) = true := by
    rw [cleaned_eq_iff (takeWhile_path_chars _)
      (removeDotSegments_chars (takeWhile_path_chars after)), removeDotSegments_orRoot, hpath,
      orRoot, if_neg (List.cons_ne_nil _ _),
      ← removeDotSegments_below_iff (fun h => (ha _ h).1 rfl) (path_after_authority x)]
    exact ⟨fun h => h.1, fun h => ⟨h, hquery⟩⟩
  rw [Agrees, FollowsStandard, hread]
  constructor
  · rintro ⟨_, ⟨a', ha', hnames⟩, hpath⟩
    obtain rfl := Option.some.inj ha'
    exact ⟨hnames, hcleaned.mp hpath⟩
  · rintro ⟨hnames, hclimbs⟩
    exact ⟨rfl, ⟨a, rfl, hnames⟩, hcleaned.mpr hclimbs⟩

theorem read_of_not_network (h : ['/'.toUInt8, '/'.toUInt8].isPrefixOf location = false) :
    read location = ⟨none, location.takeWhile isPathChar, readQuery location⟩ := by
  rw [Reference.read, h]
  rfl

/-- Any other absolute path is what the standard takes it for. -/
theorem absolute_agrees {l : Bytes}
    (h : ['/'.toUInt8, '/'.toUInt8].isPrefixOf ('/'.toUInt8 :: l) = false) :
    Agrees f ('/'.toUInt8 :: l) := by
  have hpath : ('/'.toUInt8 :: l).takeWhile isPathChar
      = '/'.toUInt8 :: l.takeWhile isPathChar := List.takeWhile_cons_of_pos (by decide)
  have hresolve : resolve f.parts (read ('/'.toUInt8 :: l))
      = ⟨f.parts.authority, removeDotSegments (('/'.toUInt8 :: l).takeWhile isPathChar),
          readQuery ('/'.toUInt8 :: l)⟩ := by
    rw [read_of_not_network h, hpath]
    rfl
  rw [Agrees, hresolve, follow_slash]
  refine ⟨rfl, ⟨_, rfl, f.names⟩, ?_⟩
  rw [cleaned_eq_iff (takeWhile_path_chars _)
    (removeDotSegments_chars (takeWhile_path_chars _)), removeDotSegments_orRoot]
  exact ⟨rfl, (readQuery_getD _).symm⟩

theorem merge_append (path l : Bytes) : merge path l = merge path [] ++ l := by
  rw [merge, merge]
  split
  · rfl
  · rw [List.append_nil]

theorem merge_chars {path : Bytes} (hpath : ∀ b ∈ path, isPathChar b = true) :
    ∀ b ∈ merge path [], isPathChar b = true := by
  intro b hb
  unfold merge at hb
  split at hb
  · rw [List.mem_singleton.mp hb]; decide
  · rw [List.append_nil] at hb
    exact hpath b (List.mem_reverse.mp ((List.dropWhile_suffix _).mem (List.mem_reverse.mp hb)))

theorem merge_ne_nil (hquery : '/'.toUInt8 ∉ f.query.getD []) (l : Bytes) :
    merge f.path l ≠ [] := by
  obtain ⟨d, hd, _⟩ := directory_spec f.url.path
  rw [← f.directory_merge hquery, hd]
  simp

/-- What the standard resolves a reference to that does not begin with a slash. -/
theorem resolve_relative (h : ['/'.toUInt8, '/'.toUInt8].isPrefixOf location = false)
    (hslash : location.head? ≠ some '/'.toUInt8) (hrel : IsRelative location) :
    ∃ path query, resolve f.parts (read location) = ⟨f.parts.authority, path, query⟩
      ∧ query.getD [] = queryOf location
      ∧ path = if location.takeWhile isPathChar = [] then f.path
          else removeDotSegments (merge f.path (location.takeWhile isPathChar)) := by
  rw [read_of_not_network h]
  by_cases hpath : location.takeWhile isPathChar = []
  · -- then a query follows
    have hmark : readQuery location ≠ none := by
      rcases path_end hpath with rfl | ⟨t, rfl⟩ | ⟨t, rfl⟩
      · exact absurd rfl hrel.nonempty
      · have hdrop : ('?'.toUInt8 :: t).dropWhile inPath = '?'.toUInt8 :: t :=
          List.dropWhile_cons_of_neg (by decide)
        rw [readQuery, hdrop]
        exact Option.some_ne_none _
      · exact absurd rfl (hrel.begins _ rfl)
    refine ⟨f.path, readQuery location, ?_, readQuery_getD location, (if_pos hpath).symm⟩
    rw [resolve, if_neg (by simp), if_pos hpath, if_neg hmark]
    rfl
  · have hhead : (location.takeWhile isPathChar).head? ≠ some '/'.toUInt8 := by
      intro hhead
      refine hslash ?_
      rw [← List.takeWhile_append_dropWhile (p := isPathChar) (l := location), List.head?_append,
        hhead]
      rfl
    refine ⟨_, readQuery location, ?_, readQuery_getD location, (if_neg hpath).symm⟩
    rw [resolve, if_neg (by simp), if_neg hpath, if_neg hhead]
    rfl

/-- A query is part of what comes before the fragment. -/
theorem queryOf_length_le (text : Bytes) :
    (queryOf text).length ≤ (text.takeWhile isQueryChar).length := by
  have hlong : text.takeWhile isQueryChar = text.takeWhile isPathChar
      ++ (text.dropWhile isPathChar).takeWhile isQueryChar := by
    conv_lhs => rw [← List.takeWhile_append_dropWhile (p := isPathChar) (l := text)]
    exact List.takeWhile_append_of_pos
      (fun b hb => isQueryChar_of_path (List.mem_takeWhile_imp hb))
  rw [hlong, queryOf, List.length_tail, List.length_append]
  omega

/-- A slash in the query of the base leaves more in the query than there should be. -/
theorem not_agrees_of_query (h : ['/'.toUInt8, '/'.toUInt8].isPrefixOf location = false)
    (hslash : location.head? ≠ some '/'.toUInt8) (hrel : IsRelative location)
    (hquery : '/'.toUInt8 ∈ f.query.getD []) : ¬ Agrees f location := by
  obtain ⟨path, query, hresolve, hread, hpath⟩ := resolve_relative (f := f) h hslash hrel
  obtain ⟨q, hdirectory, hq⟩ := f.directory_query hquery
  have hroot : ∀ b ∈ orRoot f.path, isPathChar b = true := by
    rw [← (cleaned_requestPath f.path_chars []).1]
    exact takeWhile_path_chars _
  have hfollow : follow f.url location
      = orRoot f.path ++ ('?'.toUInt8 :: (q ++ ['/'.toUInt8] ++ location)) := by
    rw [follow, if_neg hslash, hdirectory, List.append_assoc]
    rfl
  have htaken : queryOf (follow f.url location)
      = q ++ ['/'.toUInt8] ++ location.takeWhile isQueryChar := by
    have hmark : ∀ b ∈ '?'.toUInt8 :: (q ++ ['/'.toUInt8]), isQueryChar b = true := by
      intro b hb
      simp only [List.mem_cons, List.mem_append, List.not_mem_nil, or_false] at hb
      rcases hb with rfl | hb | rfl
      · decide
      · simp only [isQueryChar, bne_iff_ne]
        exact hq b hb
      · decide
    have hcons : '?'.toUInt8 :: (q ++ ['/'.toUInt8] ++ location)
        = ('?'.toUInt8 :: (q ++ ['/'.toUInt8])) ++ location := rfl
    rw [hfollow, queryOf_append hroot, queryOf, List.dropWhile_cons_of_neg (by decide), hcons,
      List.takeWhile_append_of_pos hmark]
    rfl
  have hshort := queryOf_length_le location
  have hchars : ∀ b ∈ path, isPathChar b = true := by
    rw [hpath]
    split
    · exact f.path_chars
    · rw [merge_append]
      refine removeDotSegments_chars (fun b hb => ?_)
      exact (List.mem_append.mp hb).elim (merge_chars f.path_chars b) (List.mem_takeWhile_imp ·)
  rw [Agrees, hresolve]
  rintro ⟨_, _, hcleaned⟩
  rw [cleaned_eq_iff (takeWhile_path_chars _) hchars, htaken, hread] at hcleaned
  have hlength := congrArg List.length hcleaned.2
  simp only [List.length_append, List.length_singleton] at hlength
  omega

/-- Without one it is put where the last segment of the base was. -/
theorem merge_agrees_iff (h : ['/'.toUInt8, '/'.toUInt8].isPrefixOf location = false)
    (hslash : location.head? ≠ some '/'.toUInt8) (hrel : IsRelative location)
    (hquery : '/'.toUInt8 ∉ f.query.getD []) :
    Agrees f location ↔ location.takeWhile isPathChar ≠ []
      ∨ removeDotSegments (merge f.path []) = removeDotSegments (orRoot f.path) := by
  obtain ⟨path, query, hresolve, hread, hpath⟩ := resolve_relative (f := f) h hslash hrel
  have hfollow : follow f.url location = merge f.path [] ++ location := by
    rw [follow, if_neg hslash, f.directory_merge hquery, merge_append]
  have hchars := merge_chars f.path_chars
  have htake : (follow f.url location).takeWhile isPathChar
      = merge f.path (location.takeWhile isPathChar) := by
    rw [hfollow, List.takeWhile_append_of_pos hchars, ← merge_append]
  have hmerged : ∀ b ∈ merge f.path (location.takeWhile isPathChar), isPathChar b = true := by
    rw [← htake]
    exact takeWhile_path_chars _
  have hroot : orRoot (merge f.path (location.takeWhile isPathChar))
      = merge f.path (location.takeWhile isPathChar) := if_neg (merge_ne_nil hquery _)
  have hqueries : queryOf (follow f.url location) = query.getD [] := by
    rw [hfollow, queryOf_append hchars, hread]
  have hagrees : Agrees f location
      ↔ cleaned (requestPath (merge f.path (location.takeWhile isPathChar)) (query.getD []))
        = cleaned (requestPath path (query.getD [])) := by
    rw [Agrees, hresolve, htake, hqueries]
    exact ⟨fun h => h.path, fun h => ⟨rfl, ⟨_, rfl, f.names⟩, h⟩⟩
  rw [hagrees]
  by_cases hempty : location.takeWhile isPathChar = []
  · rw [if_pos hempty] at hpath
    rw [hpath, cleaned_eq_iff hmerged f.path_chars, hroot, hempty]
    exact ⟨fun h => .inr h.1, fun h => ⟨h.resolve_left (fun h => h rfl), rfl⟩⟩
  · rw [if_neg hempty] at hpath
    rw [hpath, cleaned_eq_iff hmerged (removeDotSegments_chars hmerged), removeDotSegments_orRoot]
    exact ⟨fun _ => .inl hempty, fun _ => ⟨rfl, rfl⟩⟩

/--
**`resolve_redirect` leads where the standard does exactly if its rules are the
standard's there.**
-/
theorem resolves_as_standard_iff (hf : f.fragment = none) (hrel : IsRelative location) :
    ResolvesAsStandard f location ↔ FollowsStandard f location := by
  rw [resolves_iff_agrees hf hrel]
  by_cases hnetwork : ['/'.toUInt8, '/'.toUInt8].isPrefixOf location = true
  · obtain ⟨x, rfl⟩ := List.isPrefixOf_iff_prefix.mp hnetwork
    exact network_agrees_iff f x
  · have hnot := Bool.eq_false_iff.mpr hnetwork
    rw [FollowsStandard, read_of_not_network hnot]
    by_cases hslash : location.head? = some '/'.toUInt8
    · refine ⟨fun _ => .inl hslash, fun _ => ?_⟩
      cases location with
      | nil => exact absurd rfl hrel.nonempty
      | cons b l =>
          obtain rfl := Option.some.inj hslash
          exact absolute_agrees hnot
    · by_cases hquery : '/'.toUInt8 ∈ f.query.getD []
      · exact ⟨fun h => absurd h (not_agrees_of_query hnot hslash hrel hquery),
          fun h => absurd hquery (h.resolve_left hslash).1⟩
      · rw [merge_agrees_iff hnot hslash hrel hquery]
        exact ⟨fun h => .inr ⟨hquery, h⟩, fun h => (h.resolve_left hslash).2⟩

/-- A path that leads up, and a query. -/
theorem resolves_as_standard_iff_up :
    ∃ f : UrlForm, f.text = utf8 "http://h:8080/a/b?x=1" ∧ f.fragment = none
      ∧ IsRelative (utf8 "../c?y=/2") ∧ ResolvesAsStandard f (utf8 "../c?y=/2") := by
  let f : UrlForm :=
    { https := false, host := utf8 "h", port := some (utf8 "8080"), path := utf8 "/a/b"
      query := some (utf8 "x=1"), fragment := none, host_ne := by decide
      host_ok := by decide, port_ok := by decide, path_begins := by decide, path_ok := by decide
      query_ok := by decide }
  have hbegins : ∀ b ∈ (utf8 "../c?y=/2").head?, b ≠ '#'.toUInt8 := by
    rintro b ⟨⟩
    decide
  have hrel : IsRelative (utf8 "../c?y=/2") := ⟨hbegins, by decide, by decide, by decide⟩
  have hquery : '/'.toUInt8 ∉ f.query.getD [] := by decide
  have hpath : (Reference.read (utf8 "../c?y=/2")).path ≠ [] := by decide
  exact ⟨f, by decide, rfl, hrel,
    (resolves_as_standard_iff rfl hrel).mpr (.inr ⟨hquery, .inl hpath⟩)⟩

/-- A slash in the query of the base: `c` should be `http://h/c`. -/
theorem not_resolvesAsStandard : ¬ ∀ (f : UrlForm) (location : Bytes), f.fragment = none →
    IsRelative location → ResolvesAsStandard f location := by
  intro h
  let f : UrlForm :=
    { https := false, host := utf8 "h", port := none, path := utf8 "/a"
      query := some (utf8 "x=/b"), fragment := none, host_ne := by decide
      host_ok := by decide, port_ok := by decide, path_begins := by decide, path_ok := by decide
      query_ok := by decide }
  have hbegins : ∀ b ∈ (utf8 "c").head?, b ≠ '#'.toUInt8 := by
    rintro b ⟨⟩
    decide
  have hrel : IsRelative (utf8 "c") := ⟨hbegins, by decide, by decide, by decide⟩
  obtain ⟨url, v, hurl, hv, hdenotes⟩ := h f (utf8 "c") rfl hrel
  have hbase : f.text = utf8 "http://h/a?x=/b" := by decide
  have hnew : resolveRedirect (utf8 "http://h/a?x=/b") (utf8 "c")
      = some (utf8 "http://h/a?x=/c") := by decide
  rw [hbase, hnew] at hurl
  obtain rfl := Option.some.inj hurl
  have hread : parseUrl (utf8 "http://h/a?x=/c")
      = some ⟨utf8 "http", utf8 "h", utf8 "80", utf8 "/a?x=/c"⟩ := by decide
  obtain rfl := Option.some.inj (hv.symm.trans hread)
  have hstandard : resolve f.parts (Reference.read (utf8 "c"))
      = ⟨some (utf8 "h"), utf8 "/c", none⟩ := by decide
  rw [hstandard] at hdenotes
  exact absurd hdenotes.path (by decide)

end Resolves

end CloudGateway.Proof
