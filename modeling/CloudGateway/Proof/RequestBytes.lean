import CloudGateway.Proof.Origin
import CloudGateway.Proof.WireFields

/-!
# Where the bytes of a request come from

Nothing is escaped on the way from a URL or a `Location` to the request line. So the
bytes of a target are those of the caller, those of the fields that have led there and
the few of the client itself: a kind of byte that none of them has, no target has. The
same holds of the header fields where Beast adds no bytes of its own but those of
`FieldBytes`. If the kind is the line breaks, no request can be split.
-/

namespace CloudGateway.Proof

open Transport

/-- All bytes are of a kind. -/
def Only (p : UInt8 → Bool) (s : Bytes) : Prop := ∀ b ∈ s, p b = true

/-- All bytes of the names and the values are. -/
def OnlyFields (p : UInt8 → Bool) (fields : List (Bytes × Bytes)) : Prop :=
  ∀ f ∈ fields, Only p f.1 ∧ Only p f.2

/-- What the client writes into a request by itself. -/
def ownTexts : List String :=
  ["http", "https", "://", ":", "/", "?", "80", "443", "0123456789", "Host", "User-Agent",
   "VehicleGateway/2.0", "Connection", "close", "Content-Length", "Transfer-Encoding"]

/-- Its own texts are of the kind. -/
def Own (p : UInt8 → Bool) : Prop := ∀ s ∈ ownTexts, Only p (utf8 s)

variable {p : UInt8 → Bool} {net : Network} {past : List NetCall}
  {fields fields' : List (Bytes × Bytes)}

theorem only_append {s t : Bytes} : Only p (s ++ t) ↔ Only p s ∧ Only p t :=
  List.forall_mem_append

/-! ## Decimals -/

theorem mem_utf8 {s : String} {b : UInt8} :
    b ∈ utf8 s ↔ ∃ c ∈ s.toList, b ∈ String.utf8EncodeChar c := by
  rw [utf8, String.toUTF8, ← String.utf8Encode_toList, List.utf8Encode]
  simp

theorem digit_mem {c : Char} (h : c.isDigit = true) : c ∈ "0123456789".toList := by
  have hmem : ∀ n, 48 ≤ n → n ≤ 57 → Char.ofNat n ∈ "0123456789".toList := by decide
  rw [Char.isDigit, Bool.and_eq_true, decide_eq_true_iff, decide_eq_true_iff] at h
  rw [← Char.ofNat_toNat c]
  exact hmem _ h.1 h.2

/-- A number is written with the ten digits. -/
theorem only_toString (h : Own p) (n : Nat) : Only p (utf8 (toString n)) := by
  intro b hb
  obtain ⟨c, hc, hb⟩ := mem_utf8.mp hb
  have hdigit : c.isDigit = true :=
    Nat.isDigit_of_mem_toDigits (b := 10) (n := n) (by decide) (by decide) (by simpa using hc)
  exact h "0123456789" (by simp [ownTexts]) b (mem_utf8.mpr ⟨c, digit_mem hdigit, hb⟩)

/-! ## From a URL to the next -/

/-- Each part of a URL is a part of its text, or the client's own. -/
theorem only_parseUrl (h : Own p) {s : Bytes} {u : Url} (hurl : parseUrl s = some u)
    (hs : Only p s) : Only p u.protocol ∧ Only p u.host ∧ Only p u.port ∧ Only p u.path := by
  obtain ⟨t, rfl, rfl⟩ := parseUrl_eq_some_iff.mp hurl
  obtain ⟨hprotocol, hs⟩ := only_append.mp hs
  obtain ⟨-, hs⟩ := only_append.mp hs
  obtain ⟨hhost, hs⟩ := only_append.mp hs
  obtain ⟨hport, hrest⟩ := only_append.mp hs
  refine ⟨hprotocol, hhost, ?_, ?_⟩
  · show Only p (t.port.getD (defaultPort (protocolOf t.https)))
    cases hp : t.port with
    | none =>
        rw [Option.getD_none, defaultPort]
        split
        · exact h "443" (by simp [ownTexts])
        · exact h "80" (by simp [ownTexts])
    | some ds =>
        rw [hp] at hport
        exact fun b hb => hport b (List.mem_cons_of_mem _ hb)
  · have hquery : Only p (queryOf t.rest) := fun b hb =>
      hrest b ((List.dropWhile_suffix _).mem
        ((List.takeWhile_prefix _).mem (List.mem_of_mem_tail hb)))
    have hpath : Only p (t.rest.takeWhile isPathChar) := fun b hb =>
      hrest b ((List.takeWhile_prefix _).mem hb)
    refine only_append.mpr ⟨?_, ?_⟩
    · split
      · exact h "/" (by simp [ownTexts])
      · exact hpath
    · split
      · exact fun b hb => absurd hb List.not_mem_nil
      · exact only_append.mpr ⟨h "?" (by simp [ownTexts]), hquery⟩

theorem only_root (h : Own p) {u : Url} (hprotocol : Only p u.protocol) (hhost : Only p u.host)
    (hport : Only p u.port) : Only p u.root := by
  rw [Url.root]
  refine only_append.mpr ⟨only_append.mpr ⟨only_append.mpr ⟨hprotocol, ?_⟩, hhost⟩, ?_⟩
  · exact h "://" (by simp [ownTexts])
  · split
    · exact only_append.mpr ⟨h ":" (by simp [ownTexts]), hport⟩
    · exact fun b hb => absurd hb List.not_mem_nil

theorem only_resolve (h : Own p) {base location url : Bytes}
    (hnew : resolveRedirect base location = some url) (hbase : Only p base)
    (hlocation : Only p location) : Only p url := by
  rw [resolveRedirect] at hnew
  split at hnew
  · rw [← Option.some.inj hnew]
    exact hlocation
  · obtain ⟨u, hurl, rfl⟩ := Option.map_eq_some_iff.mp hnew
    obtain ⟨hprotocol, hhost, hport, hpath⟩ := only_parseUrl h hurl hbase
    have hroot := only_root h hprotocol hhost hport
    split
    · exact only_append.mpr ⟨hroot, hlocation⟩
    · have hslash : p '/'.toUInt8 = true := h "/" (by simp [ownTexts]) _ (by decide)
      exact only_append.mpr ⟨only_append.mpr ⟨hroot, directory_chars hslash hpath⟩, hlocation⟩

/-- The fields that parsers hold have values of the kind. -/
def HeldOnly (p : UInt8 → Bool) (net : Network) : Prop :=
  ∀ calls, ∀ f ∈ (net.parser calls).fields, Only p f.2

theorem lastLocation_mem {location : Bytes} (h : lastLocation fields = some location) :
    ∃ f ∈ fields, f.2 = location := by
  have hmem (name : Bytes) (hname : fields.reverse.lookup name = some location) :
      ∃ f ∈ fields, f.2 = location := by
    obtain ⟨before, after, hsplit, -⟩ := List.lookup_eq_some_iff.mp hname
    refine ⟨(name, location), List.mem_reverse.mp ?_, rfl⟩
    rw [hsplit]
    exact List.mem_append_right before List.mem_cons_self
  rcases Option.or_eq_some_iff.mp h with husual | ⟨-, hsmall⟩
  · exact hmem _ husual
  · exact hmem _ hsmall

/-- Along a trail, every URL is made of the first one and what the responses have held. -/
theorem only_trail (h : Own p) (hheld : HeldOnly p net) {options : HttpOptions} {url : Bytes}
    {es : List Exchange} (ht : Trail net past options url es) (hurl : Only p url) {k : Nat}
    {e : Exchange} (hk : es[k]? = some e) : Only p e.text := by
  induction k generalizing e with
  | zero =>
      generalize htext : e.text = text
      have hasked := (ht.asked 0 e hk).1
      rw [htext] at hasked
      cases hasked with
      | first => exact hurl
  | succ k ih =>
      generalize htext : e.text = text
      have hasked := (ht.asked (k + 1) e hk).1
      rw [htext] at hasked
      cases hasked with
      | next hbefore hlocation hnew =>
          obtain ⟨-, -, -, hlast⟩ := (ht.leads _ _ _ hbefore).mp hlocation
          obtain ⟨f, hf, rfl⟩ := lastLocation_mem hlast
          exact only_resolve h hnew (ih hbefore) (hheld _ f hf)

/-- What a call is given is of the kind. -/
def GivenOnly (p : UInt8 → Bool) (work : List (HttpClient × HttpClient.Call)) : Prop :=
  ∀ w ∈ work, Only p (callUrl w.2) ∧ OnlyFields p (callHeaders w.2)

/-! ## From a request to its fields -/

/-- The bytes in the fields of a request after a call of Beast that has not thrown. -/
structure FieldBytes (net : Network) : Prop where
  /-- `set` puts in a field of the name, and nothing that is not in the value. -/
  set : ∀ {fields fields' name value}, net.set fields name value = .ok fields' →
    ∀ f ∈ fields', f ∈ fields ∨ f.1 = name ∧ ∀ b ∈ f.2, b ∈ value
  /--
  `prepare_payload` puts in the length of the body, and the tokens that are left of a
  `Transfer-Encoding`, with a comma and a space between them.
  -/
  payload : ∀ {wire fields'}, net.preparePayload wire = .ok fields' →
    ∀ f ∈ fields', f ∈ wire.fields
      ∨ f = (utf8 "Content-Length", utf8 (toString wire.body.length))
      ∨ f.1 = utf8 "Transfer-Encoding"
        ∧ ∀ b ∈ f.2, b ∈ utf8 ", " ∨ ∃ g ∈ wire.fields, b ∈ g.2

theorem onlyFields_set (hbytes : FieldBytes net) {name value : Bytes}
    (hfields : OnlyFields p fields) (hname : Only p name) (hvalue : Only p value)
    (h : net.set fields name value = .ok fields') : OnlyFields p fields' := by
  intro f hf
  rcases hbytes.set h f hf with hold | ⟨hnew, hpart⟩
  · exact hfields f hold
  · exact ⟨hnew ▸ hname, fun b hb => hvalue b (hpart b hb)⟩

theorem onlyFields_setAll (hbytes : FieldBytes net) {headers : HeaderMap}
    (hfields : OnlyFields p fields) (hheaders : OnlyFields p headers)
    (h : net.setAll fields headers = .ok fields') : OnlyFields p fields' := by
  induction headers generalizing fields with
  | nil =>
      rw [← Except.ok.inj h]
      exact hfields
  | cons g headers ih =>
      obtain ⟨after, hset, hrest⟩ := bind_eq_ok h
      obtain ⟨hname, hvalue⟩ := hheaders g List.mem_cons_self
      exact ih (onlyFields_set hbytes hfields hname hvalue hset)
        (fun f hf => hheaders f (List.mem_cons_of_mem g hf)) hrest

theorem onlyFields_payload (h : Own p) (hjoin : Only p (utf8 ", ")) (hbytes : FieldBytes net)
    {wire : WireRequest} (hfields : OnlyFields p wire.fields)
    (hpayload : net.preparePayload wire = .ok fields') : OnlyFields p fields' := by
  intro f hf
  rcases hbytes.payload hpayload f hf with hold | rfl | ⟨hname, hpart⟩
  · exact hfields f hold
  · exact ⟨h "Content-Length" (by simp [ownTexts]), only_toString h _⟩
  · refine ⟨hname ▸ h "Transfer-Encoding" (by simp [ownTexts]), fun b hb => ?_⟩
    rcases hpart b hb with hjoined | ⟨g, hg, hb⟩
    · exact hjoin b hjoined
    · exact (hfields g hg).2 b hb

theorem onlyFields_wire (h : Own p) (hjoin : Only p (utf8 ", ")) (hbytes : FieldBytes net)
    {request : HttpRequest} {wire : WireRequest} (hhost : Only p request.url.host)
    (hheaders : OnlyFields p request.headers) (hwire : net.wireRequest request = .ok wire) :
    OnlyFields p wire.fields := by
  obtain ⟨-, -, -, before, hbefore, hpayload⟩ := wireRequest_ok hwire
  have hown {s : String} (hs : s ∈ ownTexts) : Only p (utf8 s) := h s hs
  have hasked : OnlyFields p (asked request) := by
    intro f hf
    rw [asked, List.mem_cons, List.mem_cons, List.mem_cons] at hf
    rcases hf with rfl | rfl | rfl | hf
    · exact ⟨hown (by simp [ownTexts]), hhost⟩
    · exact ⟨hown (by simp [ownTexts]), hown (by simp [ownTexts])⟩
    · exact ⟨hown (by simp [ownTexts]), hown (by simp [ownTexts])⟩
    · exact hheaders f hf
  have hset : OnlyFields p before :=
    onlyFields_setAll hbytes (fun f hf => absurd hf List.not_mem_nil) hasked hbefore
  rcases hpayload with ⟨-, hfields⟩ | ⟨-, hfields⟩
  · rw [hfields]
    exact hset
  · exact onlyFields_payload h hjoin hbytes hset hfields

/--
**Requests are written with bytes of the caller, of the responses and of the client.**
Take any kind of bytes which the texts of the client itself are made of, and the URLs
and headers of the calls, and the values of the fields that parsers hold: every
request written in any sequence of calls, over any redirects, has a target of that
kind. If Beast puts no other bytes into the fields than it says, and the comma and the
space are of the kind, the fields are as well. Where the kind is all bytes but the line
breaks, no request can be split.
-/
theorem requests_unsplit (net : Network) (work : List (HttpClient × HttpClient.Call))
    (h : Own p) (hwork : GivenOnly p work) (hheld : HeldOnly p net) {wire : WireRequest}
    (hwritten : .write wire ∈ net.session work []) :
    Only p wire.target
      ∧ (FieldBytes net → Only p (utf8 ", ") → OnlyFields p wire.fields) := by
  obtain ⟨before, after, hsplit⟩ := List.append_of_mem hwritten
  obtain ⟨i, w, es, k, e, hi, hk, htrail, hwire, -⟩ := written_by_call hsplit
  obtain ⟨hurl, hheaders⟩ := hwork w (List.mem_of_getElem? hi)
  have htext : Only p e.text := only_trail h hheld htrail.trail hurl hk
  obtain ⟨-, hhost, -, hpath⟩ := only_parseUrl h (htrail.trail.asked k e hk).2 htext
  refine ⟨?_, fun hbytes hjoin => ?_⟩
  · rw [(wireRequest_ok hwire).2.1]
    exact hpath
  · have hgiven := htrail.requests.headers e (List.mem_of_getElem? hk)
    exact onlyFields_wire h hjoin hbytes hhost (hgiven ▸ hheaders) hwire

/-- A network whose first exchange is answered with a redirect. -/
def leadingNetwork : Network :=
  { calmNetwork with
    parser := fun calls =>
      { isDone := true, statusCode := if calls.length ≤ 4 then 302 else 200, body := []
        fields := if calls.length ≤ 4 then [(utf8 "Location", utf8 "b")] else [] } }

theorem withField_mem {name value : Bytes} {f : Bytes × Bytes}
    (h : f ∈ withField fields name value) : f ∈ fields ∨ f = (name, value) := by
  rcases List.mem_append.mp h with h | h
  · exact .inl (List.mem_filter.mp h).1
  · exact .inr (List.mem_singleton.mp h)

theorem leadingNetwork_bytes : FieldBytes leadingNetwork where
  set := by
    intro fields fields' name value h f hf
    obtain rfl := Except.ok.inj h
    refine (withField_mem hf).imp_right (fun hnew => ?_)
    rw [hnew]
    exact ⟨rfl, fun b hb => (List.dropWhile_suffix _).mem ((List.rdropWhile_prefix _ _).mem hb)⟩
  payload := by
    intro wire fields' h f hf
    obtain rfl := Except.ok.inj h
    rcases withField_mem hf with hold | hnew
    · exact .inl (List.mem_filter.mp hold).1
    · exact .inr (.inl hnew)

theorem requests_unsplit_line :
    let work : List (HttpClient × HttpClient.Call) := [(⟨{}⟩, .get (utf8 "http://h/d/a") [])]
    ∃ wire : WireRequest, wire.target = utf8 "/d/b"
      ∧ .write wire ∈ leadingNetwork.session work []
      ∧ LineFree wire.target ∧ ∀ f ∈ wire.fields, LineFree f.1 ∧ LineFree f.2 := by
  have hrun : .write ⟨.get, utf8 "/d/b", [(utf8 "Host", utf8 "h"),
        (utf8 "User-Agent", utf8 "VehicleGateway/2.0"), (utf8 "Connection", utf8 "close")], []⟩
      ∈ leadingNetwork.session [(⟨{}⟩, .get (utf8 "http://h/d/a") [])] [] := by
    decide
  have hwork : GivenOnly isAny [(⟨{}⟩, .get (utf8 "http://h/d/a") [])] := by
    intro w hw
    rw [List.mem_singleton.mp hw]
    exact ⟨by unfold Only; decide, fun f hf => absurd hf List.not_mem_nil⟩
  have hheld : HeldOnly isAny leadingNetwork := by
    intro calls f hf
    change f ∈ (if calls.length ≤ 4 then [(utf8 "Location", utf8 "b")] else []) at hf
    split at hf
    · rw [List.mem_singleton.mp hf]
      unfold Only
      decide
    · exact absurd hf List.not_mem_nil
  obtain ⟨htarget, hfields⟩ := requests_unsplit leadingNetwork _
    (by unfold Own Only; decide) hwork hheld hrun
  exact ⟨_, rfl, hrun, htarget, hfields leadingNetwork_bytes (by unfold Only; decide)⟩

end CloudGateway.Proof
