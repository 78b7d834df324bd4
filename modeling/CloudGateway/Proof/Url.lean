import CloudGateway.Transport.Url
import Mathlib.Data.List.TakeWhile

/-!
# What `parse_url` accepts

The expression of `parse_url` asks less of a URL than the comment above it says:
between the authority and the query it takes any text that has no `?` and no `#`.
`UrlText` is a text it accepts, taken apart the way its greedy groups take it
apart, and `parseUrl_eq_some_iff` says that it accepts no other.
-/

namespace CloudGateway.Proof

open Transport Regex

/-! ## Texts that are accepted -/

/-- What follows the authority has no line break in its fragment. -/
def FragmentOk (rest : Bytes) : Prop := ∀ b ∈ rest.dropWhile isQueryChar, isAny b = true

/-- The digits after a colon in front. -/
def portDigits (rest : Bytes) : Bytes :=
  if rest.head? = some ':'.toUInt8 then rest.tail.takeWhile isDigit else []

/-- The host and the port have taken all they can from what follows them. -/
def Delimited (port : Option Bytes) (rest : Bytes) : Prop :=
  match port with
  | none => rest.takeWhile isHostChar = [] ∧ portDigits rest = []
  | some _ => rest.takeWhile isDigit = []

/-- The query in what follows the authority. -/
def queryOf (rest : Bytes) : Bytes := ((rest.dropWhile isPathChar).takeWhile isQueryChar).tail

/-- What is requested: the path, `/` if it is empty, and the query if it is not. -/
def requestPath (path query : Bytes) : Bytes :=
  (if path = [] then utf8 "/" else path) ++ (if query = [] then [] else utf8 "?" ++ query)

/-- A text that `parse_url` accepts, in its parts. -/
structure UrlText where
  https : Bool
  host : Bytes
  port : Option Bytes
  /-- The path, the query and the fragment. -/
  rest : Bytes
  host_ne : host ≠ []
  host_ok : ∀ b ∈ host, isHostChar b = true
  port_ok : ∀ ds ∈ port, ds ≠ [] ∧ ∀ b ∈ ds, isDigit b = true
  delimited : Delimited port rest
  fragment_ok : FragmentOk rest

/-- The protocol, by whether it is `https`. -/
def protocolOf (https : Bool) : Bytes := if https then utf8 "https" else utf8 "http"

/-- The port as it stands in a URL. -/
def portText : Option Bytes → Bytes
  | none => []
  | some ds => ':'.toUInt8 :: ds

namespace UrlText

/-- The text. -/
def text (t : UrlText) : Bytes :=
  protocolOf t.https ++ (utf8 "://" ++ (t.host ++ (portText t.port ++ t.rest)))

/-- What it stands for. -/
def url (t : UrlText) : Url :=
  { protocol := protocolOf t.https
    host := t.host
    port := t.port.getD (defaultPort (protocolOf t.https))
    path := requestPath (t.rest.takeWhile isPathChar) (queryOf t.rest) }

end UrlText

/-! ## They are accepted -/

section Accepted

variable {s : Bytes} {c : Captures UInt8}

/-- A separator in front is consumed. -/
theorem run_lit_cons {β : Type} {b : UInt8} {s : Bytes} {c : Captures UInt8}
    {k : Continuation UInt8 β} : (lit [b]).run (b :: s) c k = k s c :=
  run_lit_append [b]

/-- No separator in front, no match. -/
theorem run_lit_head_ne {β : Type} {b : UInt8} {s : Bytes} {c : Captures UInt8}
    {k : Continuation UInt8 β} (h : s.head? ≠ some b) : (lit [b]).run s c k = none := by
  refine run_lit_of_not_prefix [b] (fun ⟨t, ht⟩ => h ?_)
  rw [← ht]
  rfl

theorem text_cons_ne {n m : Nat} (h : n ≠ m) (u : Bytes) :
    Captures.text ((m, u) :: c) n = c.text n := by
  simp only [Captures.text, List.lookup_cons, beq_eq_false_iff_ne.mpr h]

theorem text_cons_self (n : Nat) (u : Bytes) : Captures.text ((n, u) :: c) n = u := by
  simp only [Captures.text, List.lookup_cons_self, Option.getD_some]

/-- What a run of a set leaves begins outside the set. -/
theorem head?_dropWhile {p : UInt8 → Bool} {b : UInt8} (h : (s.dropWhile p).head? = some b) :
    p b = false := by
  have hnot := List.head?_dropWhile_not p s
  rw [h] at hnot
  simpa using hnot

/-- What is left of a run of a set has no more of it in front. -/
theorem takeWhile_dropWhile (p : UInt8 → Bool) (s : Bytes) :
    (s.dropWhile p).takeWhile p = [] := by
  cases h : s.dropWhile p with
  | nil => rfl
  | cons b u =>
      have hb := head?_dropWhile (congrArg List.head? h)
      exact List.takeWhile_cons_of_neg (by simp [hb])

/-- A path has no fragment in it. -/
theorem dropWhile_dropWhile_mem {b : UInt8}
    (h : b ∈ (s.dropWhile isPathChar).dropWhile isQueryChar) : b ∈ s.dropWhile isQueryChar := by
  have hpath : ∀ b ∈ s.takeWhile isPathChar, isQueryChar b = true := by
    intro b hb
    have hb := List.mem_takeWhile_imp hb
    simp only [isPathChar, Bool.and_eq_true] at hb
    exact hb.2
  rw [← List.takeWhile_append_dropWhile (p := isPathChar) (l := s),
    List.dropWhile_append_of_pos hpath]
  exact h

/-- A rest in which a path ends is empty, or begins with a query or a fragment. -/
theorem path_end (h : s.takeWhile isPathChar = []) :
    s = [] ∨ (∃ t, s = '?'.toUInt8 :: t) ∨ ∃ t, s = '#'.toUInt8 :: t := by
  cases s with
  | nil => exact .inl rfl
  | cons b t =>
      have hb : ¬ isPathChar b := fun hb => by
        rw [List.takeWhile_cons_of_pos hb] at h
        exact List.cons_ne_nil _ _ h
      simp only [isPathChar, Bool.and_eq_true, bne_iff_ne, not_and_or, not_not] at hb
      rcases hb with rfl | rfl
      · exact .inr (.inl ⟨t, rfl⟩)
      · exact .inr (.inr ⟨t, rfl⟩)

/-- The last group: a fragment without a line break, or the end. -/
theorem run_fragment (hs : s = [] ∨ ∃ t, s = '#'.toUInt8 :: t) (hok : ∀ b ∈ s, isAny b = true) :
    ∃ c', (cat [opt (cat [lit (utf8 "#"), group 6 (star (set isAny))])]).run s c finish = some c'
      ∧ ∀ n ≠ 6, c'.text n = c.text n := by
  rcases hs with rfl | ⟨t, rfl⟩
  · refine ⟨c, ?_, fun n _ => rfl⟩
    rw [run_cat_cons, run_opt_of_none]
    · rfl
    · exact run_lit_head_ne (by simp)
  · have hend : t.dropWhile isAny = [] :=
      List.dropWhile_eq_nil_iff.mpr (fun b hb => hok b (List.mem_cons_of_mem _ hb))
    refine ⟨(6, t) :: c, ?_, fun n hn => text_cons_ne hn t⟩
    rw [run_cat_cons]
    refine run_opt_of_some ?_
    rw [run_cat_cons]
    refine Eq.trans run_lit_cons ?_
    rw [run_cat_cons, run_group]
    refine run_star_set ?_
    rw [hend]
    simp [onProgress, finish]

/-- The last two groups: a query, and what is after it. -/
theorem run_query (hs : s.takeWhile isPathChar = []) (hok : FragmentOk s) (hc : c.text 5 = []) :
    ∃ c', (cat [opt (cat [lit (utf8 "?"), group 5 (star (set isQueryChar))]),
        opt (cat [lit (utf8 "#"), group 6 (star (set isAny))])]).run s c finish = some c'
      ∧ c'.text 5 = (s.takeWhile isQueryChar).tail ∧ ∀ n < 5, c'.text n = c.text n := by
  have hends : ∀ t : Bytes, t.dropWhile isQueryChar = []
      ∨ ∃ u, t.dropWhile isQueryChar = '#'.toUInt8 :: u := by
    intro t
    cases h : t.dropWhile isQueryChar with
    | nil => exact .inl rfl
    | cons b u =>
        have hb := head?_dropWhile (congrArg List.head? h)
        simp only [isQueryChar, bne_eq_false_iff_eq] at hb
        exact .inr ⟨u, by rw [hb]⟩
  have hskip : ∀ s : Bytes, s.head? ≠ some '?'.toUInt8 → s.dropWhile isQueryChar = s →
      FragmentOk s → ∃ c', (cat [opt (cat [lit (utf8 "?"), group 5 (star (set isQueryChar))]),
          opt (cat [lit (utf8 "#"), group 6 (star (set isAny))])]).run s c finish = some c'
        ∧ ∀ n ≠ 6, c'.text n = c.text n := by
    intro s hhead hdrop hok
    have hs := hends s
    rw [FragmentOk, hdrop] at hok
    rw [hdrop] at hs
    obtain ⟨c', hrun, htext⟩ := run_fragment (c := c) hs hok
    refine ⟨c', ?_, htext⟩
    rw [run_cat_cons, run_opt_of_none]
    · exact hrun
    · exact run_lit_head_ne hhead
  rcases path_end hs with rfl | ⟨t, rfl⟩ | ⟨t, rfl⟩
  · obtain ⟨c', hrun, htext⟩ := hskip [] (by simp) rfl hok
    exact ⟨c', hrun, (htext 5 (by decide)).trans hc, fun n hn => htext n (by omega)⟩
  · have hquery : isQueryChar '?'.toUInt8 = true := by decide
    rw [FragmentOk, List.dropWhile_cons_of_pos hquery] at hok
    obtain ⟨c', hrun, htext⟩ := run_fragment (c := (5, t.takeWhile isQueryChar) :: c) (hends t) hok
    refine ⟨c', ?_, ?_, fun n hn => ?_⟩
    · rw [run_cat_cons]
      refine run_opt_of_some ?_
      rw [run_cat_cons]
      refine Eq.trans run_lit_cons ?_
      rw [run_cat_cons, run_group]
      refine run_star_set ?_
      have hlt : (t.dropWhile isQueryChar).length < t.length + 1 :=
        Nat.lt_succ_of_le (List.dropWhile_suffix _).length_le
      rw [run_cat_nil, onProgress, List.length_cons, if_pos hlt, take_dropWhile]
      exact hrun
    · rw [htext 5 (by decide), text_cons_self, List.takeWhile_cons_of_pos hquery]
      rfl
    · rw [htext n (by omega), text_cons_ne (by omega)]
  · have hquery : ¬ isQueryChar '#'.toUInt8 := by decide
    obtain ⟨c', hrun, htext⟩ := hskip ('#'.toUInt8 :: t) (by simp; decide)
      (List.dropWhile_cons_of_neg hquery) hok
    refine ⟨c', hrun, ?_, fun n hn => htext n (by omega)⟩
    rw [htext 5 (by decide), hc, List.takeWhile_cons_of_neg hquery]
    rfl

/-- The groups after the port. -/
theorem run_path (hok : FragmentOk s) (h4 : c.text 4 = []) (h5 : c.text 5 = []) :
    ∃ c', (cat [opt (group 4 (star (set isPathChar))),
        opt (cat [lit (utf8 "?"), group 5 (star (set isQueryChar))]),
        opt (cat [lit (utf8 "#"), group 6 (star (set isAny))])]).run s c finish = some c'
      ∧ c'.text 4 = s.takeWhile isPathChar ∧ c'.text 5 = queryOf s
      ∧ ∀ n < 4, c'.text n = c.text n := by
  have hpath := takeWhile_dropWhile isPathChar s
  have hok' : FragmentOk (s.dropWhile isPathChar) := fun b hb =>
    hok b (dropWhile_dropWhile_mem hb)
  set c₁ := if s.takeWhile isPathChar = [] then c else (4, s.takeWhile isPathChar) :: c with hc₁
  have htext : c₁.text 4 = s.takeWhile isPathChar ∧ ∀ n ≠ 4, c₁.text n = c.text n := by
    rw [hc₁]
    split
    · rename_i hnil
      exact ⟨by rw [h4, hnil], fun n _ => rfl⟩
    · exact ⟨text_cons_self 4 _, fun n hn => text_cons_ne hn _⟩
  obtain ⟨c', hrun, hquery, hlower⟩ :=
    run_query hpath hok' ((htext.2 5 (by decide)).trans h5)
  refine ⟨c', ?_, (hlower 4 (by decide)).trans htext.1, hquery, fun n hn => ?_⟩
  · rw [run_cat_cons]
    exact run_opt_group_star hrun
  · rw [hlower n (by omega), htext.2 n (by omega)]

/-- What a set takes from its own text in front of something else. -/
theorem span_append {p : UInt8 → Bool} {u v : Bytes} (hu : ∀ b ∈ u, p b = true)
    (hv : v.takeWhile p = []) : (u ++ v).takeWhile p = u ∧ (u ++ v).dropWhile p = v := by
  have hdrop : v.dropWhile p = v := by
    have hsplit := List.takeWhile_append_dropWhile (p := p) (l := v)
    rwa [hv, List.nil_append] at hsplit
  rw [List.takeWhile_append_of_pos hu, List.dropWhile_append_of_pos hu, hv, hdrop, List.append_nil]
  exact ⟨rfl, rfl⟩

/-- The groups after the host. -/
theorem run_port {port : Option Bytes} (hport : ∀ ds ∈ port, ds ≠ [] ∧ ∀ b ∈ ds, isDigit b = true)
    (hdel : Delimited port s) (hok : FragmentOk s) (h3 : c.text 3 = []) (h4 : c.text 4 = [])
    (h5 : c.text 5 = []) :
    ∃ c', (cat [opt (cat [lit (utf8 ":"), group 3 (plus (set isDigit))]),
        opt (group 4 (star (set isPathChar))),
        opt (cat [lit (utf8 "?"), group 5 (star (set isQueryChar))]),
        opt (cat [lit (utf8 "#"), group 6 (star (set isAny))])]).run (portText port ++ s) c finish
          = some c'
      ∧ c'.text 3 = port.getD [] ∧ c'.text 4 = s.takeWhile isPathChar ∧ c'.text 5 = queryOf s
      ∧ ∀ n < 3, c'.text n = c.text n := by
  cases port with
  | none =>
      obtain ⟨c', hrun, hpath, hquery, hlower⟩ := run_path (c := c) hok h4 h5
      refine ⟨c', ?_, (hlower 3 (by decide)).trans h3, hpath, hquery,
        fun n hn => hlower n (by omega)⟩
      rw [run_cat_cons, run_opt_of_none]
      · exact hrun
      · -- no colon, or no digit after it
        rw [portText, List.nil_append, run_cat_cons]
        by_cases hcolon : s.head? = some ':'.toUInt8
        · obtain ⟨t, rfl⟩ : ∃ t, s = ':'.toUInt8 :: t := by
            cases s with
            | nil => exact absurd hcolon (by simp)
            | cons b t => exact ⟨t, by rw [Option.some.inj hcolon]⟩
          have hdigits : t.takeWhile isDigit = [] := by
            have := hdel.2
            rwa [portDigits, if_pos hcolon] at this
          refine Eq.trans run_lit_cons ?_
          rw [run_cat_cons, run_group, run_plus_set_of_nil hdigits]
        · exact run_lit_head_ne hcolon
  | some ds =>
      obtain ⟨hne, hdigits⟩ := hport ds rfl
      obtain ⟨htake, hdrop⟩ := span_append hdigits hdel
      obtain ⟨c', hrun, hpath, hquery, hlower⟩ := run_path (c := (3, ds) :: c) hok
        ((text_cons_ne (by decide) ds).trans h4) ((text_cons_ne (by decide) ds).trans h5)
      refine ⟨c', ?_, (hlower 3 (by decide)).trans (text_cons_self 3 ds), hpath, hquery,
        fun n hn => ?_⟩
      · rw [run_cat_cons]
        refine run_opt_of_some ?_
        rw [run_cat_cons, portText, List.cons_append]
        refine Eq.trans run_lit_cons ?_
        rw [run_cat_cons, run_group]
        refine run_plus_set (htake.symm ▸ hne) ?_
        have hlt : s.length < (':'.toUInt8 :: (ds ++ s)).length := by
          rw [List.length_cons, List.length_append]; omega
        rw [run_cat_nil, take_dropWhile, htake, hdrop, onProgress, if_pos hlt]
        exact hrun
      · rw [hlower n (by omega), text_cons_ne (by omega)]

/-- The first group. -/
theorem run_protocol {k : Continuation UInt8 (Captures UInt8)} {c' : Captures UInt8} (https : Bool)
    (t : Bytes) (h : k (utf8 "://" ++ t) ((1, protocolOf https) :: c) = some c') :
    (group 1 (cat [lit (utf8 "http"), opt (lit (utf8 "s"))])).run
      (protocolOf https ++ (utf8 "://" ++ t)) c k = some c' := by
  have htake : ∀ u v : Bytes, (u ++ v).take ((u ++ v).length - v.length) = u := by
    intro u v
    rw [List.length_append, Nat.add_sub_cancel]
    exact List.take_left
  cases https with
  | false =>
      rw [run_group, run_cat_cons]
      refine Eq.trans (run_lit_append (utf8 "http")) ?_
      rw [run_cat_cons, run_opt_of_none]
      · rw [run_cat_nil, htake]
        exact h
      · have hne : some ':'.toUInt8 ≠ some 's'.toUInt8 := by decide
        exact run_lit_head_ne hne
  | true =>
      have hhttps : protocolOf true ++ (utf8 "://" ++ t)
          = utf8 "http" ++ (utf8 "s" ++ (utf8 "://" ++ t)) := rfl
      rw [run_group, run_cat_cons]
      refine Eq.trans (congrArg (fun s => (lit (utf8 "http")).run s c _) hhttps) ?_
      refine Eq.trans (run_lit_append (utf8 "http")) ?_
      rw [run_cat_cons]
      refine run_opt_of_some ?_
      refine Eq.trans (run_lit_append (utf8 "s")) ?_
      have hlt : (utf8 "://" ++ t).length < (utf8 "s" ++ (utf8 "://" ++ t)).length := by
        have hlength : (utf8 "s" ++ (utf8 "://" ++ t)).length
            = (utf8 "s").length + (utf8 "://" ++ t).length := List.length_append
        rw [hlength]
        exact Nat.lt_add_of_pos_left (by decide)
      rw [onProgress, if_pos hlt, run_cat_nil, htake]
      exact h

end Accepted

/-- How `parse_url` puts the path and the query together. -/
theorem requested (path query : Bytes) :
    (if query.isEmpty = true then if 0 < path.length then path else utf8 "/"
      else (if 0 < path.length then path else utf8 "/") ++ utf8 "?" ++ query)
      = requestPath path query := by
  have hpath : (if 0 < path.length then path else utf8 "/")
      = if path = [] then utf8 "/" else path := by
    cases path with
    | nil => rfl
    | cons b p => rfl
  rw [hpath, requestPath]
  cases query with
  | nil => exact (List.append_nil _).symm
  | cons b q => exact List.append_assoc _ _ _

/-- Neither the port nor what follows it belongs to the host. -/
theorem UrlText.host_end (t : UrlText) : (portText t.port ++ t.rest).takeWhile isHostChar = [] := by
  have hdel := t.delimited
  cases hport : t.port with
  | none =>
      rw [hport] at hdel
      exact hdel.1
  | some ds => exact List.takeWhile_cons_of_neg (by decide)

/-- **A text of the right kind is accepted, and its parts are what it stands for.** -/
theorem parseUrl_text (t : UrlText) : parseUrl t.text = some t.url := by
  obtain ⟨htake, hdrop⟩ := span_append t.host_ok t.host_end
  obtain ⟨c', hrun, hport, hpath, hquery, hlower⟩ :=
    run_port (c := (2, t.host) :: (1, protocolOf t.https) :: []) t.port_ok t.delimited
      t.fragment_ok rfl rfl rfl
  have hmatch : urlRegex.fullMatch t.text = some c' := by
    rw [fullMatch, urlRegex, run_cat_cons]
    refine run_protocol t.https _ ?_
    rw [run_cat_cons]
    refine Eq.trans (run_lit_append (utf8 "://")) ?_
    rw [run_cat_cons, run_group]
    refine run_plus_set (htake.symm ▸ t.host_ne) ?_
    rw [take_dropWhile, htake, hdrop]
    exact hrun
  have hprotocol : c'.text 1 = protocolOf t.https := hlower 1 (by decide)
  have hhost : c'.text 2 = t.host := hlower 2 (by decide)
  have hdefault : (if 0 < (t.port.getD []).length then t.port.getD []
      else defaultPort (protocolOf t.https)) = t.port.getD (defaultPort (protocolOf t.https)) := by
    have hok := t.port_ok
    cases hport : t.port with
    | none => rfl
    | some ds =>
        rw [hport] at hok
        exact if_pos (List.length_pos_iff.mpr (hok ds rfl).1)
  simp only [parseUrl, hmatch, Option.map_some, hprotocol, hhost, hport, hpath, hquery, hdefault,
    requested, UrlText.url]

/-! ## Nothing else is accepted -/

/-- What comes before the fragment does not matter to it. -/
theorem fragmentOk_append {u v : Bytes} (hu : ∀ b ∈ u, isQueryChar b = true) :
    FragmentOk (u ++ v) ↔ FragmentOk v := by
  simp only [FragmentOk, List.dropWhile_append_of_pos hu]

theorem isQueryChar_of_host {b : UInt8} (h : isHostChar b = true) : isQueryChar b = true := by
  simp only [isHostChar, Bool.and_eq_true] at h
  exact h.2

theorem isQueryChar_of_path {b : UInt8} (h : isPathChar b = true) : isQueryChar b = true := by
  simp only [isPathChar, Bool.and_eq_true] at h
  exact h.2

theorem isHostChar_of_digit {b : UInt8} (h : isDigit b = true) : isHostChar b = true := by
  simp only [isDigit, Bool.and_eq_true, decide_eq_true_eq] at h
  simp only [isHostChar, Bool.and_eq_true, bne_iff_ne]
  refine ⟨⟨⟨?_, ?_⟩, ?_⟩, ?_⟩ <;> (rintro rfl; exact absurd h (by decide))

/-- The port in front of a text that follows a host. -/
def readPort (after : Bytes) : Option Bytes :=
  if portDigits after = [] then none else some (portDigits after)

/-- What follows that port. -/
def afterPort (after : Bytes) : Bytes :=
  if portDigits after = [] then after else after.tail.dropWhile isDigit

/-- A text in which a colon begins a port. -/
theorem eq_cons_of_portDigits {after : Bytes} (h : portDigits after ≠ []) :
    ∃ t, after = ':'.toUInt8 :: t ∧ portDigits after = t.takeWhile isDigit := by
  by_cases hcolon : after.head? = some ':'.toUInt8
  · cases after with
    | nil => exact absurd hcolon (by simp)
    | cons b t =>
        obtain rfl := Option.some.inj hcolon
        exact ⟨t, rfl, if_pos hcolon⟩
  · exact absurd (if_neg hcolon) h

theorem portText_afterPort (after : Bytes) :
    portText (readPort after) ++ afterPort after = after := by
  by_cases h : portDigits after = []
  · rw [readPort, afterPort, if_pos h, if_pos h]
    rfl
  · rw [readPort, afterPort, if_neg h, if_neg h]
    obtain ⟨t, rfl, hdigits⟩ := eq_cons_of_portDigits h
    rw [hdigits, portText, List.tail_cons, List.cons_append, List.takeWhile_append_dropWhile]

/-- A text with a host in front, taken apart. -/
theorem exists_urlText (https : Bool) {x : Bytes} (hhost : x.takeWhile isHostChar ≠ [])
    (hok : FragmentOk x) :
    ∃ t : UrlText, t.text = protocolOf https ++ (utf8 "://" ++ x) ∧ t.https = https
      ∧ t.host = x.takeWhile isHostChar ∧ t.port = readPort (x.dropWhile isHostChar)
      ∧ t.rest = afterPort (x.dropWhile isHostChar) := by
  have hsplit := List.takeWhile_append_dropWhile (p := isHostChar) (l := x)
  have hparts := portText_afterPort (x.dropWhile isHostChar)
  have hchars : ∀ b ∈ x.takeWhile isHostChar, isHostChar b = true :=
    fun b hb => List.mem_takeWhile_imp hb
  have hport : ∀ ds ∈ readPort (x.dropWhile isHostChar), ds ≠ [] ∧ ∀ b ∈ ds, isDigit b = true := by
    intro ds hds
    by_cases h : portDigits (x.dropWhile isHostChar) = []
    · rw [readPort, if_pos h] at hds
      exact absurd hds (by simp)
    · rw [readPort, if_neg h] at hds
      obtain rfl := Option.some.inj hds
      obtain ⟨t, _, hdigits⟩ := eq_cons_of_portDigits h
      exact ⟨h, fun b hb => List.mem_takeWhile_imp (hdigits ▸ hb)⟩
  have hdelimited : Delimited (readPort (x.dropWhile isHostChar))
      (afterPort (x.dropWhile isHostChar)) := by
    by_cases h : portDigits (x.dropWhile isHostChar) = []
    · rw [readPort, afterPort, if_pos h, if_pos h]
      exact ⟨takeWhile_dropWhile isHostChar x, h⟩
    · rw [readPort, afterPort, if_neg h, if_neg h]
      exact takeWhile_dropWhile isDigit _
  have hfragment : FragmentOk (afterPort (x.dropWhile isHostChar)) := by
    have htext : ∀ b ∈ portText (readPort (x.dropWhile isHostChar)), isQueryChar b = true := by
      intro b hb
      cases hread : readPort (x.dropWhile isHostChar) with
      | none => rw [hread] at hb; exact absurd hb List.not_mem_nil
      | some ds =>
          rw [hread] at hb hport
          rcases List.mem_cons.mp hb with rfl | hb
          · decide
          · exact isQueryChar_of_host (isHostChar_of_digit ((hport ds rfl).2 b hb))
    rw [← hsplit, fragmentOk_append (fun b hb => isQueryChar_of_host (hchars b hb)), ← hparts] at hok
    exact (fragmentOk_append htext).mp hok
  refine ⟨{ https := https, host := x.takeWhile isHostChar
            port := readPort (x.dropWhile isHostChar), rest := afterPort (x.dropWhile isHostChar)
            host_ne := hhost, host_ok := hchars, port_ok := hport, delimited := hdelimited
            fragment_ok := hfragment }, ?_, rfl, rfl, rfl, rfl⟩
  rw [UrlText.text, hparts, hsplit]

/-- The protocol in front of a text is one or the other. -/
theorem protocolOf_cancel {https https' : Bool} {x y : Bytes}
    (h : protocolOf https ++ (utf8 "://" ++ x) = protocolOf https' ++ (utf8 "://" ++ y)) :
    https = https' ∧ x = y := by
  have hne : some ':'.toUInt8 ≠ some 's'.toUInt8 := by decide
  cases https <;> cases https'
  · exact ⟨rfl, List.append_cancel_left (List.append_cancel_left h)⟩
  · exact absurd (congrArg (·[4]?) h) hne
  · exact absurd (congrArg (·[4]?) h) hne.symm
  · exact ⟨rfl, List.append_cancel_left (List.append_cancel_left h)⟩

/-- **How an accepted text is read, from its authority on.** -/
theorem parseUrl_split (https : Bool) {x : Bytes} (hhost : x.takeWhile isHostChar ≠ [])
    (hok : FragmentOk x) :
    parseUrl (protocolOf https ++ (utf8 "://" ++ x)) = some {
      protocol := protocolOf https
      host := x.takeWhile isHostChar
      port := (readPort (x.dropWhile isHostChar)).getD (defaultPort (protocolOf https))
      path := requestPath ((afterPort (x.dropWhile isHostChar)).takeWhile isPathChar)
        (queryOf (afterPort (x.dropWhile isHostChar))) } := by
  obtain ⟨t, htext, hhttps, hthost, hport, hrest⟩ := exists_urlText https hhost hok
  rw [← htext, parseUrl_text, UrlText.url, hhttps, hthost, hport, hrest]

/-- What the expression asks of a text. -/
theorem word_urlRegex {s : Bytes} (h : Word urlRegex s) :
    ∃ https x, s = protocolOf https ++ (utf8 "://" ++ x) ∧ x.takeWhile isHostChar ≠ []
      ∧ FragmentOk x := by
  obtain ⟨u₁, s, rfl, h₁, h⟩ := word_cat_cons h
  obtain ⟨u₂, s, rfl, h₂, h⟩ := word_cat_cons h
  obtain ⟨u₃, s, rfl, h₃, h⟩ := word_cat_cons h
  obtain ⟨u₄, s, rfl, h₄, h⟩ := word_cat_cons h
  obtain ⟨u₅, s, rfl, h₅, h⟩ := word_cat_cons h
  obtain ⟨u₆, s, rfl, h₆, h⟩ := word_cat_cons h
  obtain ⟨u₇, s, rfl, h₇, h⟩ := word_cat_cons h
  obtain rfl := word_cat_nil h
  have hprotocol : ∃ https, u₁ = protocolOf https := by
    obtain ⟨v₁, v, rfl, hv₁, h₁⟩ := word_cat_cons (word_group h₁)
    obtain ⟨v₂, v, rfl, hv₂, h₁⟩ := word_cat_cons h₁
    obtain rfl := word_cat_nil h₁
    rw [word_lit hv₁]
    rcases word_opt hv₂ with rfl | hv₂
    · exact ⟨false, rfl⟩
    · rw [word_lit hv₂]
      exact ⟨true, rfl⟩
  obtain ⟨https, rfl⟩ := hprotocol
  obtain rfl := word_lit h₂
  obtain ⟨hne, hhost⟩ := word_plus_set (word_group h₃)
  refine ⟨https, _, rfl, ?_, ?_⟩
  · obtain ⟨b, u, rfl⟩ := List.exists_cons_of_ne_nil hne
    rw [List.cons_append, List.takeWhile_cons_of_pos (hhost b List.mem_cons_self)]
    exact List.cons_ne_nil _ _
  · have hport : ∀ b ∈ u₄, isQueryChar b = true := by
      rcases word_opt_marked h₄ with rfl | ⟨ds, rfl, hds⟩
      · exact fun b hb => absurd hb List.not_mem_nil
      · intro b hb
        rcases List.mem_append.mp hb with hb | hb
        · obtain rfl := List.mem_singleton.mp hb
          decide
        · exact isQueryChar_of_host (isHostChar_of_digit ((word_plus_set hds).2 b hb))
    have hpath : ∀ b ∈ u₅, isQueryChar b = true := by
      rcases word_opt h₅ with rfl | h₅
      · exact fun b hb => absurd hb List.not_mem_nil
      · exact fun b hb => isQueryChar_of_path (word_star_set (word_group h₅) b hb)
    have hquery : ∀ b ∈ u₆, isQueryChar b = true := by
      rcases word_opt_marked h₆ with rfl | ⟨q, rfl, hq⟩
      · exact fun b hb => absurd hb List.not_mem_nil
      · intro b hb
        rcases List.mem_append.mp hb with hb | hb
        · obtain rfl := List.mem_singleton.mp hb
          decide
        · exact word_star_set hq b hb
    have hfragment : FragmentOk (u₇ ++ []) := by
      rw [List.append_nil]
      rcases word_opt_marked h₇ with rfl | ⟨f, rfl, hf⟩
      · exact fun b hb => absurd hb List.not_mem_nil
      · intro b hb
        rcases List.mem_append.mp ((List.dropWhile_suffix _).mem hb) with hb | hb
        · obtain rfl := List.mem_singleton.mp hb
          decide
        · exact word_star_set hf b hb
    rw [fragmentOk_append (fun b hb => isQueryChar_of_host (hhost b hb)),
      fragmentOk_append hport, fragmentOk_append hpath, fragmentOk_append hquery]
    exact hfragment

/-- **`parse_url` accepts the texts of the right kind and no others.** -/
theorem parseUrl_eq_some_iff {s : Bytes} {u : Url} :
    parseUrl s = some u ↔ ∃ t : UrlText, t.text = s ∧ t.url = u := by
  constructor
  · intro h
    obtain ⟨c, hmatch, _⟩ := Option.map_eq_some_iff.mp h
    obtain ⟨https, x, rfl, hhost, hok⟩ := word_urlRegex (word_of_fullMatch hmatch)
    obtain ⟨t, htext, _⟩ := exists_urlText https hhost hok
    refine ⟨t, htext, Option.some.inj ?_⟩
    rw [← parseUrl_text, htext, h]
  · rintro ⟨t, rfl, rfl⟩
    exact parseUrl_text t

/-- A text with a protocol in front is accepted if a host follows and the fragment is good. -/
theorem parseUrl_isSome_iff (https : Bool) (x : Bytes) :
    (parseUrl (protocolOf https ++ (utf8 "://" ++ x))).isSome = true
      ↔ x.takeWhile isHostChar ≠ [] ∧ FragmentOk x := by
  constructor
  · intro h
    obtain ⟨u, hu⟩ := Option.isSome_iff_exists.mp h
    obtain ⟨c, hmatch, _⟩ := Option.map_eq_some_iff.mp hu
    obtain ⟨https', y, hxy, hhost, hok⟩ := word_urlRegex (word_of_fullMatch hmatch)
    obtain ⟨_, rfl⟩ := protocolOf_cancel hxy
    exact ⟨hhost, hok⟩
  · rintro ⟨hhost, hok⟩
    rw [parseUrl_split https hhost hok]
    rfl

end CloudGateway.Proof
