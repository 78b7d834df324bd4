import CloudGateway.Proof.UrlGrammar

/-!
# Where a relative `Location` leads

`resolve_redirect` writes the origin of the base out again, without the port where
that is the default one, and appends a directory or an absolute path. The result
is read from its beginning, so what comes after the origin may be taken for more
of it: this is so where the base has its default port written out and something
other than a path right after it.
-/

namespace CloudGateway.Proof

open Transport

/-- The same protocol, host and port. -/
def SameOrigin (u v : Url) : Prop :=
  u.protocol = v.protocol ∧ u.host = v.host ∧ u.port = v.port

/-! ## Directories -/

theorem directory_append {t : Bytes} (d : Bytes) (ht : '/'.toUInt8 ∉ t) :
    directory (d ++ '/'.toUInt8 :: t) = d ++ ['/'.toUInt8] := by
  have hmem : '/'.toUInt8 ∈ d ++ '/'.toUInt8 :: t :=
    List.mem_append_right _ List.mem_cons_self
  have hreverse : (d ++ '/'.toUInt8 :: t).reverse
      = t.reverse ++ ('/'.toUInt8 :: d.reverse) := by simp
  have htail : ∀ b ∈ t.reverse, (b != '/'.toUInt8) = true := by
    intro b hb
    rw [bne_iff_ne]
    rintro rfl
    exact ht (List.mem_reverse.mp hb)
  have hslash : ('/'.toUInt8 :: d.reverse).dropWhile (· != '/'.toUInt8)
      = '/'.toUInt8 :: d.reverse := List.dropWhile_cons_of_neg (by decide)
  rw [directory, if_pos hmem, hreverse, List.dropWhile_append_of_pos htail, hslash,
    List.reverse_cons, List.reverse_reverse]

theorem directory_of_not_mem {path : Bytes} (h : '/'.toUInt8 ∉ path) :
    directory path = utf8 "/" := if_neg h

/-- The last slash of a path. -/
theorem exists_last_slash {path : Bytes} (h : '/'.toUInt8 ∈ path) :
    ∃ d t, path = d ++ '/'.toUInt8 :: t ∧ '/'.toUInt8 ∉ t := by
  obtain ⟨u, v, hreverse, hu⟩ := List.eq_append_cons_of_mem (List.mem_reverse.mpr h)
  refine ⟨v.reverse, u.reverse, ?_, fun hmem => hu (List.mem_reverse.mp hmem)⟩
  rw [← List.reverse_reverse path, hreverse]
  simp

/-- A directory ends with a slash, and is the beginning of the path if that has one. -/
theorem directory_spec (path : Bytes) :
    ∃ d, directory path = d ++ ['/'.toUInt8] ∧ (d = [] ∨ ∃ t, path = d ++ '/'.toUInt8 :: t) := by
  by_cases h : '/'.toUInt8 ∈ path
  · obtain ⟨d, t, rfl, ht⟩ := exists_last_slash h
    exact ⟨d, directory_append d ht, .inr ⟨t, rfl⟩⟩
  · exact ⟨[], directory_of_not_mem h, .inl rfl⟩

theorem directory_chars {path : Bytes} {p : UInt8 → Bool} (hslash : p '/'.toUInt8 = true)
    (h : ∀ b ∈ path, p b = true) : ∀ b ∈ directory path, p b = true := by
  obtain ⟨d, hd, hpath⟩ := directory_spec path
  rw [hd]
  intro b hb
  rcases List.mem_append.mp hb with hb | hb
  · rcases hpath with rfl | ⟨t, rfl⟩
    · exact absurd hb List.not_mem_nil
    · exact h b (List.mem_append_left _ hb)
  · rw [List.mem_singleton.mp hb]
    exact hslash

/-- A run that does not take slashes ends within the directory. -/
theorem takeWhile_slash {p : UInt8 → Bool} (hslash : p '/'.toUInt8 = false) (d l : Bytes) :
    (d ++ ['/'.toUInt8] ++ l).takeWhile p = (d ++ ['/'.toUInt8]).takeWhile p := by
  induction d with
  | nil =>
      have hneg : ¬ p '/'.toUInt8 = true := by simp [hslash]
      exact (List.takeWhile_cons_of_neg hneg).trans (List.takeWhile_cons_of_neg hneg).symm
  | cons b d ih =>
      by_cases hb : p b = true
      · exact (List.takeWhile_cons_of_pos hb).trans
          ((congrArg (b :: ·) ih).trans (List.takeWhile_cons_of_pos hb).symm)
      · exact (List.takeWhile_cons_of_neg hb).trans (List.takeWhile_cons_of_neg hb).symm

theorem takeWhile_directory {p : UInt8 → Bool} (hslash : p '/'.toUInt8 = false) (path l : Bytes) :
    (directory path ++ l).takeWhile p = (directory path).takeWhile p := by
  obtain ⟨d, hd, _⟩ := directory_spec path
  rw [hd]
  exact takeWhile_slash hslash d l

theorem portDigits_directory (path l : Bytes) :
    portDigits (directory path ++ l) = portDigits (directory path) := by
  obtain ⟨d, hd, _⟩ := directory_spec path
  rw [hd]
  cases d with
  | nil => rfl
  | cons b d =>
      have htail := takeWhile_slash (p := isDigit) (by decide) d l
      by_cases hb : (b :: d).head? = some ':'.toUInt8
      · exact (if_pos hb).trans (htail.trans (if_pos hb).symm)
      · exact (if_neg hb).trans (if_neg hb).symm

/-- What a path begins with, its directory begins with. -/
theorem takeWhile_directory_of_mem {p : UInt8 → Bool} (hslash : p '/'.toUInt8 = false)
    {path : Bytes} (h : '/'.toUInt8 ∈ path) :
    (directory path).takeWhile p = path.takeWhile p := by
  obtain ⟨d, t, rfl, ht⟩ := exists_last_slash h
  have hpath : d ++ '/'.toUInt8 :: t = d ++ ['/'.toUInt8] ++ t := by simp
  rw [directory_append d ht, hpath, takeWhile_slash hslash d t]

theorem portDigits_directory_of_mem {path : Bytes} (h : '/'.toUInt8 ∈ path) :
    portDigits (directory path) = portDigits path := by
  obtain ⟨d, t, rfl, ht⟩ := exists_last_slash h
  have hpath : d ++ '/'.toUInt8 :: t = directory (d ++ '/'.toUInt8 :: t) ++ t := by
    rw [directory_append d ht]; simp
  conv_rhs => rw [hpath]
  exact (portDigits_directory _ t).symm

/-! ## The text of the new URL -/

/-- The port as `resolve_redirect` writes it. -/
def rootPort (u : Url) : Option Bytes :=
  if u.port = defaultPort u.protocol then none else some u.port

/-- What `resolve_redirect` puts after the origin. -/
def follow (u : Url) (location : Bytes) : Bytes :=
  if location.head? = some '/'.toUInt8 then location else directory u.path ++ location

theorem root_eq (t : UrlText) :
    t.url.root = protocolOf t.https ++ (utf8 "://" ++ (t.host ++ portText (rootPort t.url))) := by
  have hwritten : ((t.url.protocol = utf8 "http" ∧ t.url.port ≠ utf8 "80")
        ∨ (t.url.protocol = utf8 "https" ∧ t.url.port ≠ utf8 "443"))
      ↔ t.url.port ≠ defaultPort t.url.protocol := by
    have hprotocol : t.url.protocol = protocolOf t.https := rfl
    have hne : utf8 "http" ≠ utf8 "https" := by decide
    rw [hprotocol]
    cases t.https with
    | false =>
        have hdefault : defaultPort (protocolOf false) = utf8 "80" := by decide
        rw [hdefault]
        exact ⟨fun h => h.elim (·.2) (fun h => absurd h.1 hne), fun h => .inl ⟨rfl, h⟩⟩
    | true =>
        have hdefault : defaultPort (protocolOf true) = utf8 "443" := by decide
        rw [hdefault]
        exact ⟨fun h => h.elim (fun h => absurd h.1.symm hne) (·.2), fun h => .inr ⟨rfl, h⟩⟩
  have hport : (if (t.url.protocol = utf8 "http" ∧ t.url.port ≠ utf8 "80")
        ∨ (t.url.protocol = utf8 "https" ∧ t.url.port ≠ utf8 "443") then utf8 ":" ++ t.url.port
        else []) = portText (rootPort t.url) := by
    by_cases h : t.url.port = defaultPort t.url.protocol
    · rw [if_neg (fun hw => hwritten.mp hw h), rootPort, if_pos h]
      rfl
    · rw [if_pos (hwritten.mpr h), rootPort, if_neg h]
      rfl
  rw [Url.root, hport]
  simp only [List.append_assoc]
  rfl

/-- What `resolve_redirect` makes of a relative `Location`. -/
theorem resolveRedirect_relative (t : UrlText) {location : Bytes}
    (habs : isAbsolute location = false) :
    resolveRedirect t.text location
      = some (protocolOf t.https ++ (utf8 "://" ++ (t.host ++ (portText (rootPort t.url)
          ++ follow t.url location)))) := by
  simp only [resolveRedirect, habs, Bool.false_eq_true, if_false, parseUrl_text, Option.map_some,
    root_eq, follow]
  split <;> simp only [List.append_assoc]

/-! ## Where it leads -/

theorem requestPath_chars {path query : Bytes} (hpath : ∀ b ∈ path, isPathChar b = true)
    (hquery : ∀ b ∈ query, isQueryChar b = true) :
    ∀ b ∈ requestPath path query, isQueryChar b = true := by
  intro b hb
  rcases List.mem_append.mp hb with hb | hb
  · split at hb
    · rw [List.mem_singleton.mp hb]; decide
    · exact isQueryChar_of_path (hpath b hb)
  · split at hb
    · exact absurd hb List.not_mem_nil
    · rcases List.mem_append.mp hb with hb | hb
      · rw [List.mem_singleton.mp hb]; decide
      · exact hquery b hb

/-- A path that has been read has no fragment in it. -/
theorem UrlText.path_chars (t : UrlText) : ∀ b ∈ t.url.path, isQueryChar b = true := by
  refine requestPath_chars (fun b hb => List.mem_takeWhile_imp hb) (fun b hb => ?_)
  exact List.mem_takeWhile_imp (List.mem_of_mem_tail hb)

/-- It does not begin with a digit if there is a port before it. -/
theorem UrlText.path_begins (t : UrlText) (hport : t.port ≠ none) :
    t.url.path.takeWhile isDigit = [] := by
  have hdel := t.delimited
  cases hp : t.port with
  | none => exact absurd hp hport
  | some ds =>
      rw [hp] at hdel
      show ((if t.rest.takeWhile isPathChar = [] then utf8 "/" else t.rest.takeWhile isPathChar)
        ++ _).takeWhile isDigit = []
      cases hrest : t.rest with
      | nil => rfl
      | cons b rest =>
          rw [hrest] at hdel
          have hb : ¬ isDigit b = true := fun hb => by
            rw [Delimited, List.takeWhile_cons_of_pos hb] at hdel
            exact List.cons_ne_nil _ _ hdel
          by_cases hchar : isPathChar b = true
          · rw [List.takeWhile_cons_of_pos hchar, if_neg (List.cons_ne_nil _ _), List.cons_append]
            exact List.takeWhile_cons_of_neg hb
          · rw [List.takeWhile_cons_of_neg hchar, if_pos rfl]
            exact List.takeWhile_cons_of_neg (by decide)

theorem follow_fragmentOk (t : UrlText) {location : Bytes} (hline : LineFree location) :
    FragmentOk (follow t.url location) := by
  have hok : FragmentOk location := fun b hb => hline b ((List.dropWhile_suffix _).mem hb)
  rw [follow]
  split
  · exact hok
  · exact (fragmentOk_append (directory_chars (by decide) t.path_chars)).mpr hok

/-- The port that is written is the one in the base, if that is not the default. -/
theorem rootPort_cases (t : UrlText) :
    (t.url.port = defaultPort t.url.protocol ∧ rootPort t.url = none)
      ∨ ∃ ds, t.url.port ≠ defaultPort t.url.protocol ∧ t.port = some ds ∧ t.url.port = ds
        ∧ rootPort t.url = some ds := by
  by_cases h : t.url.port = defaultPort t.url.protocol
  · exact .inl ⟨h, if_pos h⟩
  · have hurl : t.url.port = t.port.getD (defaultPort t.url.protocol) := rfl
    cases hport : t.port with
    | none =>
        rw [hport] at hurl
        exact absurd hurl h
    | some ds =>
        rw [hport] at hurl
        exact .inr ⟨ds, h, rfl, hurl, (if_neg h).trans (congrArg some hurl)⟩

/-- What follows the host in the new URL. -/
def afterHost (u : Url) (location : Bytes) : Bytes := portText (rootPort u) ++ follow u location

/-- How the new URL is read, if it is accepted. -/
theorem relative_split (t : UrlText) {location url : Bytes} {v : Url}
    (habs : isAbsolute location = false) (hurl : resolveRedirect t.text location = some url)
    (hv : parseUrl url = some v) :
    v.protocol = t.url.protocol
      ∧ v.host = t.host ++ (afterHost t.url location).takeWhile isHostChar
      ∧ v.port = (readPort ((afterHost t.url location).dropWhile isHostChar)).getD
          (defaultPort t.url.protocol) := by
  rw [resolveRedirect_relative t habs] at hurl
  obtain rfl := Option.some.inj hurl
  obtain ⟨hhost, hok⟩ := (parseUrl_isSome_iff _ _).mp (by rw [hv]; rfl)
  obtain rfl := Option.some.inj (hv.symm.trans (parseUrl_split _ hhost hok))
  refine ⟨rfl, List.takeWhile_append_of_pos t.host_ok, ?_⟩
  show (readPort ((t.host ++ afterHost t.url location).dropWhile isHostChar)).getD _ = _
  rw [List.dropWhile_append_of_pos t.host_ok]
  rfl

/-- The new URL is accepted if the fragment has no line break. -/
theorem relative_accepted (t : UrlText) {location : Bytes} (hline : LineFree location)
    (habs : isAbsolute location = false) :
    ∃ url v, resolveRedirect t.text location = some url ∧ parseUrl url = some v := by
  have hport : ∀ b ∈ portText (rootPort t.url), isQueryChar b = true := by
    intro b hb
    rcases rootPort_cases t with ⟨_, hnone⟩ | ⟨ds, _, hds, _, hsome⟩
    · rw [hnone] at hb
      exact absurd hb List.not_mem_nil
    · rw [hsome] at hb
      rcases List.mem_cons.mp hb with rfl | hb
      · decide
      · exact isQueryChar_of_host (isHostChar_of_digit ((t.port_ok ds hds).2 b hb))
  have hok : FragmentOk (t.host ++ afterHost t.url location) := by
    rw [fragmentOk_append (fun b hb => isQueryChar_of_host (t.host_ok b hb)), afterHost,
      fragmentOk_append hport]
    exact follow_fragmentOk t hline
  have hhost : (t.host ++ afterHost t.url location).takeWhile isHostChar ≠ [] := by
    rw [List.takeWhile_append_of_pos t.host_ok]
    exact List.append_ne_nil_of_left_ne_nil t.host_ne _
  obtain ⟨v, hv⟩ := Option.isSome_iff_exists.mp ((parseUrl_isSome_iff t.https _).mpr ⟨hhost, hok⟩)
  exact ⟨_, v, resolveRedirect_relative t habs, hv⟩

/-- An absolute path begins with a slash, and any other `Location` comes after a directory. -/
theorem follow_cases (u : Url) (location : Bytes) :
    (location.head? = some '/'.toUInt8 ∧ ∃ l, follow u location = '/'.toUInt8 :: l)
      ∨ (location.head? ≠ some '/'.toUInt8
          ∧ follow u location = directory u.path ++ location) := by
  by_cases hslash : location.head? = some '/'.toUInt8
  · refine .inl ⟨hslash, ?_⟩
    rw [follow, if_pos hslash]
    cases location with
    | nil => exact absurd hslash (by simp)
    | cons b l => exact ⟨l, by rw [Option.some.inj hslash]⟩
  · exact .inr ⟨hslash, if_neg hslash⟩

/-! ### The host -/

/-- What `resolve_redirect` appends is not taken for more of the host. -/
def KeepsHost (u : Url) (location : Bytes) : Prop :=
  location.head? = some '/'.toUInt8 ∨ u.port ≠ defaultPort u.protocol ∨ '/'.toUInt8 ∉ u.path
    ∨ u.path.takeWhile isHostChar = []

theorem afterHost_begins_iff (t : UrlText) (location : Bytes) :
    (afterHost t.url location).takeWhile isHostChar = [] ↔ KeepsHost t.url location := by
  rw [KeepsHost]
  rcases rootPort_cases t with ⟨hdefault, hnone⟩ | ⟨ds, hother, _, _, hsome⟩
  · rw [afterHost, hnone, portText, List.nil_append]
    rcases follow_cases t.url location with ⟨hslash, l, hfollow⟩ | ⟨hslash, hfollow⟩
    · rw [hfollow]
      exact ⟨fun _ => .inl hslash, fun _ => List.takeWhile_cons_of_neg (by decide)⟩
    · rw [hfollow, takeWhile_directory (by decide)]
      by_cases hmem : '/'.toUInt8 ∈ t.url.path
      · rw [takeWhile_directory_of_mem (by decide) hmem]
        exact ⟨fun h => .inr (.inr (.inr h)), fun h => ((h.resolve_left hslash).resolve_left
          (fun h => h hdefault)).resolve_left (fun h => h hmem)⟩
      · rw [directory_of_not_mem hmem]
        exact ⟨fun _ => .inr (.inr (.inl hmem)), fun _ => by decide⟩
  · rw [afterHost, hsome]
    exact ⟨fun _ => .inr (.inl hother), fun _ => List.takeWhile_cons_of_neg (by decide)⟩

/-- The host of the new URL is the one of the base if nothing is taken for more of it. -/
theorem relative_host_iff {base location url : Bytes} {u v : Url} (hbase : parseUrl base = some u)
    (habs : isAbsolute location = false) (hurl : resolveRedirect base location = some url)
    (hv : parseUrl url = some v) : v.host = u.host ↔ KeepsHost u location := by
  obtain ⟨t, rfl, rfl⟩ := parseUrl_eq_some_iff.mp hbase
  obtain ⟨_, hhost, _⟩ := relative_split t habs hurl hv
  rw [← afterHost_begins_iff, hhost]
  exact List.append_right_eq_self

/-! ### The origin -/

/--
What `resolve_redirect` appends is not taken for more of the origin. It is an
absolute path, or there is a port in between, or it is a directory, `/` or one that
continues neither the host nor, except by the default port itself, the port.
-/
def KeepsOrigin (u : Url) (location : Bytes) : Prop :=
  location.head? = some '/'.toUInt8 ∨ u.port ≠ defaultPort u.protocol ∨ '/'.toUInt8 ∉ u.path
    ∨ (u.path.takeWhile isHostChar = [] ∧ (portDigits u.path = [] ∨ portDigits u.path = u.port))

/-- The port that is read in the new URL, where the host ends as it should. -/
theorem afterHost_port_iff (t : UrlText) {location : Bytes} (hkeeps : KeepsHost t.url location) :
    (readPort (afterHost t.url location)).getD (defaultPort t.url.protocol) = t.url.port
      ↔ KeepsOrigin t.url location := by
  rw [KeepsOrigin]
  rcases rootPort_cases t with ⟨hdefault, hnone⟩ | ⟨ds, hother, hds, hport, hsome⟩
  · rw [afterHost, hnone, portText, List.nil_append, ← hdefault]
    rcases follow_cases t.url location with ⟨hslash, l, hfollow⟩ | ⟨hslash, hfollow⟩
    · rw [hfollow]
      exact ⟨fun _ => .inl hslash, fun _ => rfl⟩
    · have hread : (readPort (directory t.url.path ++ location)).getD t.url.port = t.url.port
          ↔ portDigits (directory t.url.path) = []
            ∨ portDigits (directory t.url.path) = t.url.port := by
        rw [readPort, portDigits_directory]
        split
        · exact ⟨fun _ => .inl (by assumption), fun _ => rfl⟩
        · exact ⟨fun h => .inr h, fun h => h.resolve_left (by assumption)⟩
      rw [hfollow, hread]
      by_cases hmem : '/'.toUInt8 ∈ t.url.path
      · have hbegins : t.url.path.takeWhile isHostChar = [] :=
          ((hkeeps.resolve_left hslash).resolve_left (fun h => h hdefault)).resolve_left
            (fun h => h hmem)
        rw [portDigits_directory_of_mem hmem]
        exact ⟨fun h => .inr (.inr (.inr ⟨hbegins, h⟩)), fun h => (((h.resolve_left
          hslash).resolve_left (fun h => h rfl)).resolve_left (fun h => h hmem)).2⟩
      · rw [directory_of_not_mem hmem]
        exact ⟨fun _ => .inr (.inr (.inl hmem)), fun _ => .inl (by decide)⟩
  · -- the port is in between
    have hstop : (follow t.url location).takeWhile isDigit = [] := by
      rcases follow_cases t.url location with ⟨_, l, hfollow⟩ | ⟨_, hfollow⟩
      · rw [hfollow]
        exact List.takeWhile_cons_of_neg (by decide)
      · rw [hfollow, takeWhile_directory (by decide)]
        by_cases hmem : '/'.toUInt8 ∈ t.url.path
        · rw [takeWhile_directory_of_mem (by decide) hmem]
          exact t.path_begins (by rw [hds]; simp)
        · rw [directory_of_not_mem hmem]
          decide
    obtain ⟨hne, hdigits⟩ := t.port_ok ds hds
    obtain ⟨htake, _⟩ := span_append hdigits hstop
    have hread : portDigits (portText (some ds) ++ follow t.url location) = ds :=
      (if_pos rfl).trans htake
    rw [afterHost, hsome]
    refine ⟨fun _ => .inr (.inl hother), fun _ => ?_⟩
    rw [readPort, hread, if_neg hne, hport]
    rfl

theorem KeepsOrigin.host {u : Url} {location : Bytes} (h : KeepsOrigin u location) :
    KeepsHost u location := by
  rcases h with h | h | h | h
  · exact .inl h
  · exact .inr (.inl h)
  · exact .inr (.inr (.inl h))
  · exact .inr (.inr (.inr h.1))

/--
**A relative `Location` stays on the origin exactly if nothing it is appended to is
taken for more of the origin.**
-/
theorem stays_on_origin_iff {base location : Bytes} {u : Url} (hbase : parseUrl base = some u)
    (hline : LineFree location) (habs : isAbsolute location = false) :
    (∃ url v, resolveRedirect base location = some url ∧ parseUrl url = some v ∧ SameOrigin v u)
      ↔ KeepsOrigin u location := by
  obtain ⟨t, rfl, rfl⟩ := parseUrl_eq_some_iff.mp hbase
  have hdrop : KeepsHost t.url location →
      (afterHost t.url location).dropWhile isHostChar = afterHost t.url location := by
    intro hkeeps
    have hsplit := List.takeWhile_append_dropWhile (p := isHostChar) (l := afterHost t.url location)
    rwa [(afterHost_begins_iff t location).mpr hkeeps, List.nil_append] at hsplit
  constructor
  · rintro ⟨url, v, hurl, hv, _, hhost, hport⟩
    have hkeeps : KeepsHost t.url location := (relative_host_iff hbase habs hurl hv).mp hhost
    obtain ⟨_, _, hread⟩ := relative_split t habs hurl hv
    rw [hdrop hkeeps, hport] at hread
    exact (afterHost_port_iff t hkeeps).mp hread.symm
  · intro hkeeps
    obtain ⟨url, v, hurl, hv⟩ := relative_accepted t hline habs
    obtain ⟨hprotocol, _, hread⟩ := relative_split t habs hurl hv
    refine ⟨url, v, hurl, hv, hprotocol, ?_, ?_⟩
    · exact (relative_host_iff hbase habs hurl hv).mpr hkeeps.host
    · rw [hread, hdrop hkeeps.host]
      exact (afterHost_port_iff t hkeeps.host).mpr hkeeps

/-- A port that is not the default keeps the directory off the host. -/
theorem stays_on_origin_iff_port :
    ∃ u, parseUrl (utf8 "https://h:8443/a/b?c=/d") = some u
      ∧ (∃ url v, resolveRedirect (utf8 "https://h:8443/a/b?c=/d") (utf8 "e?f") = some url
          ∧ parseUrl url = some v ∧ SameOrigin v u) := by
  have hbase : parseUrl (utf8 "https://h:8443/a/b?c=/d")
      = some ⟨utf8 "https", utf8 "h", utf8 "8443", utf8 "/a/b?c=/d"⟩ := by decide
  refine ⟨_, hbase, (stays_on_origin_iff hbase (by decide) (by decide)).mpr ?_⟩
  exact .inr (.inl (by decide))

/-- The default port is left out, and the host goes on with what was after it. -/
theorem not_staysOnOrigin :
    ¬ ∀ base u location, parseUrl base = some u → LineFree location →
      isAbsolute location = false → (utf8 "//").isPrefixOf location = false →
      ∃ url v, resolveRedirect base location = some url ∧ parseUrl url = some v
        ∧ SameOrigin v u := by
  intro h
  obtain ⟨url, v, hurl, hv, _, hhost, _⟩ := h (utf8 "http://h:80.evil/a")
    ⟨utf8 "http", utf8 "h", utf8 "80", utf8 ".evil/a"⟩ (utf8 "login") (by decide) (by decide)
    (by decide) (by decide)
  have hnew : resolveRedirect (utf8 "http://h:80.evil/a") (utf8 "login")
      = some (utf8 "http://h.evil/login") := by decide
  obtain rfl := Option.some.inj (hurl.symm.trans hnew)
  have hread : parseUrl (utf8 "http://h.evil/login")
      = some ⟨utf8 "http", utf8 "h.evil", utf8 "80", utf8 "/login"⟩ := by decide
  obtain rfl := Option.some.inj (hv.symm.trans hread)
  exact absurd hhost (by decide)

end CloudGateway.Proof
