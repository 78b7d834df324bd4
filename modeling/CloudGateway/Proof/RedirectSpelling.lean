import CloudGateway.Proof.Redirects

/-!
# The spelling of `Location`

Header names have no case, but `get_headers` compares them as they are, in its
fallback as well: of all the spellings `do_request` finds the two that it asks for.
Of the codes that it describes, `is_redirect` leaves out 303.
-/

namespace CloudGateway.Proof

open Transport

/-! ## Names without case -/

/-- `std::tolower`. -/
def lower (b : UInt8) : UInt8 :=
  if 'A'.toUInt8 ≤ b ∧ b ≤ 'Z'.toUInt8 then b + ('a'.toUInt8 - 'A'.toUInt8) else b

/-- Two header names are equal up to letter case. -/
def SameName (name other : Bytes) : Prop := name.map lower = other.map lower

instance (name other : Bytes) : Decidable (SameName name other) :=
  inferInstanceAs (Decidable (_ = _))

/-! ## What `do_request` finds -/

/-- The loop of `get_headers` finds nothing that `find` has not. -/
theorem getHeaders_eq (r : FullResponse) (name : Bytes) :
    r.getHeaders name = r.headers.lookup name := by
  rw [FullResponse.getHeaders]
  cases hlookup : r.headers.lookup name with
  | some value => rfl
  | none =>
      have hnone : r.headers.find? (fun h => h.1 == name) = none := by
        refine List.find?_eq_none.mpr (fun h hh => ?_)
        have hne := List.lookup_eq_none_iff.mp hlookup h hh
        rw [beq_iff_eq]
        exact fun heq => bne_iff_ne.mp hne heq.symm
      rw [hnone]
      rfl

/-- The `Location` that is found: the usual spelling first, then the one in small letters. -/
def foundLocation (headers : HeaderMap) : Option Bytes :=
  (headers.lookup (utf8 "Location")).or (headers.lookup (utf8 "location"))

theorem location_eq {r : FullResponse} {options : HttpOptions}
    (hfollow : options.followRedirects = true) :
    r.location options = if r.isRedirect then foundLocation r.headers else none := by
  rw [FullResponse.location, hfollow, Bool.true_and, getHeaders_eq, getHeaders_eq, foundLocation]
  cases r.headers.lookup (utf8 "Location") <;> rfl

/-- The codes that `do_request` describes: which preserve the method, and which convert it. -/
def redirectCodes : List Int := [307, 308, 301, 302, 303]

/-- All of them are taken for redirects but one. -/
theorem isRedirect_iff {r : FullResponse} (h : r.statusCode ∈ redirectCodes) :
    r.isRedirect = true ↔ r.statusCode ≠ 303 := by
  simp only [redirectCodes, List.mem_cons, List.not_mem_nil, or_false] at h
  rcases h with h | h | h | h | h <;> simp [FullResponse.isRedirect, h]

/-! ## What `do_request` does -/

/-- A response redirects from one URL to another, in whatever spelling. -/
structure RedirectsTo (r : FullResponse) (url newUrl : Bytes) : Prop where
  status : r.statusCode ∈ redirectCodes
  location : ∃ name value, SameName name (utf8 "Location")
    ∧ r.headers.lookup name = some value ∧ resolveRedirect url value = some newUrl

/-- The response that a request gets after those that have been sent. -/
def responseTo (server : List HttpRequest → FullResponse) (sent : List Exchange)
    (request : HttpRequest) : FullResponse :=
  server (sent.map (·.request) ++ [request])

section Run

variable {options : HttpOptions} {server : List HttpRequest → FullResponse} {method : Method}
  {url body : Bytes} {headers : HeaderMap} {n : Nat} {sent : List Exchange} {u : Url}

/-- A response that leads nowhere is returned. -/
theorem doRequest_returned (hurl : parseUrl url = some u)
    (hnone : (responseTo server sent ⟨u, method, body, headers⟩).location options = none) :
    (doRequest options server method url headers body (n + 1) sent).2
      = sent ++ [⟨url, ⟨u, method, body, headers⟩,
          responseTo server sent ⟨u, method, body, headers⟩⟩] := by
  unfold doRequest
  unfold responseTo at hnone
  simp only [hurl, hnone]
  rfl

/-- One that leads on begins a chain from the next URL. -/
theorem doRequest_redirected {location newUrl : Bytes} (hurl : parseUrl url = some u)
    (hlocation : (responseTo server sent ⟨u, method, body, headers⟩).location options
      = some location)
    (hnew : resolveRedirect url location = some newUrl) :
    ∃ method' body' es, RedirectChain options headers n method' newUrl body' es
      ∧ (doRequest options server method url headers body (n + 1) sent).2
        = sent ++ ⟨url, ⟨u, method, body, headers⟩,
            responseTo server sent ⟨u, method, body, headers⟩⟩ :: es := by
  obtain ⟨response, hresponse⟩ :
      ∃ response, response = responseTo server sent ⟨u, method, body, headers⟩ := ⟨_, rfl⟩
  obtain ⟨r, es, hrun, hchain⟩ := doRequest_chain options server headers n
    (response.redirectMethod method) newUrl (response.redirectBody body)
    (sent ++ [⟨url, ⟨u, method, body, headers⟩, response⟩])
  refine ⟨_, _, es, hchain, ?_⟩
  rw [hresponse] at hrun
  unfold responseTo at hlocation hrun ⊢
  unfold doRequest
  simp only [hurl, hlocation, hnew, hrun]
  exact List.append_assoc _ _ _

end Run

/--
**A redirect is followed exactly if its code is not 303 and the `Location` that is
found is the one it has.** The one that is found is spelled `Location`, or else
`location`.
-/
theorem redirect_followed_iff (c : HttpClient) (hfollow : c.options.followRedirects = true)
    (server : List HttpRequest → FullResponse) (method : Method) (url : Bytes) (headers : HeaderMap)
    (body : Bytes) (n : Nat) (sent : List Exchange) {u : Url} (hurl : parseUrl url = some u)
    {newUrl : Bytes} {v : Url}
    (hredirects : RedirectsTo (responseTo server sent ⟨u, method, body, headers⟩) url newUrl)
    (hnew : parseUrl newUrl = some v) :
    (∃ e, (doRequest c.options server method url headers body (n + 1) sent).2[sent.length + 1]?
          = some e ∧ e.text = newUrl ∧ e.request.url = v)
      ↔ (responseTo server sent ⟨u, method, body, headers⟩).statusCode ≠ 303
          ∧ ∃ value, foundLocation (responseTo server sent ⟨u, method, body, headers⟩).headers
              = some value ∧ resolveRedirect url value = some newUrl := by
  obtain ⟨response, hresponse⟩ :
      ∃ response, responseTo server sent ⟨u, method, body, headers⟩ = response := ⟨_, rfl⟩
  have hlocation := location_eq (r := response) hfollow
  have hiff := isRedirect_iff (hresponse ▸ hredirects.status)
  rw [hresponse]
  cases hnext : response.location c.options with
  | none =>
      rw [doRequest_returned hurl (hresponse ▸ hnext)]
      constructor
      · rintro ⟨e, he, _⟩
        exact absurd he (by simp)
      · rintro ⟨hstatus, value, hvalue, _⟩
        rw [hnext, if_pos (hiff.mpr hstatus), hvalue] at hlocation
        exact nomatch hlocation
  | some location =>
      have hredirect : response.isRedirect = true := (location_some hnext).2
      rw [hnext, if_pos hredirect] at hlocation
      obtain ⟨next, hresolved⟩ := resolveRedirect_isSome hurl location
      obtain ⟨method', body', es, hchain, hsent⟩ :=
        doRequest_redirected (n := n) hurl (hresponse ▸ hnext) hresolved
      rw [hsent, List.getElem?_append_right (by omega), Nat.add_sub_cancel_left,
        List.getElem?_cons_succ]
      constructor
      · rintro ⟨e, he, htext, _⟩
        refine ⟨hiff.mp hredirect, location, hlocation.symm, ?_⟩
        cases hparse : parseUrl next with
        | none =>
            rw [chain_rejected hchain hparse] at he
            exact nomatch he
        | some w =>
            obtain ⟨e', es', rfl, htext', _⟩ := chain_first hchain hparse
            obtain rfl := Option.some.inj he
            rw [hresolved, ← htext', htext]
      · rintro ⟨_, value, hvalue, hsame⟩
        obtain rfl := Option.some.inj (hlocation.trans hvalue)
        obtain rfl := Option.some.inj (hresolved.symm.trans hsame)
        obtain ⟨e, es', rfl, htext, hv⟩ := chain_first hchain hnew
        exact ⟨e, rfl, htext, hv⟩

/-- A server that redirects the first request, with a header of this name. -/
def redirecting (status : Int) (name : Bytes) (sent : List HttpRequest) : FullResponse :=
  if sent.length = 1 then ⟨⟨status, []⟩, [(name, utf8 "/b")], []⟩ else ⟨⟨200, []⟩, [], []⟩

/-- `location` is followed. -/
theorem redirect_followed_iff_small :
    ∃ e, (doRequest {} (redirecting 301 (utf8 "location")) .get (utf8 "http://h/a") [] [] 5
        []).2[1]? = some e
      ∧ e.text = utf8 "http://h/b"
      ∧ e.request.url = ⟨utf8 "http", utf8 "h", utf8 "80", utf8 "/b"⟩ :=
  (redirect_followed_iff { options := {} } rfl (redirecting 301 (utf8 "location")) .get
    (utf8 "http://h/a") [] [] 4 [] (u := ⟨utf8 "http", utf8 "h", utf8 "80", utf8 "/a"⟩) (by decide)
    ⟨by decide, utf8 "location", utf8 "/b", by decide, by decide, by decide⟩ (by decide)).mpr
    ⟨by decide, utf8 "/b", by decide, by decide⟩

/-- `LOCATION` is not. -/
theorem not_redirects_recognised :
    ¬ ∀ (c : HttpClient) server method url headers body n sent u newUrl v,
      c.options.followRedirects = true → parseUrl url = some u →
      RedirectsTo (responseTo server sent ⟨u, method, body, headers⟩) url newUrl →
      parseUrl newUrl = some v →
      ∃ e, (doRequest c.options server method url headers body (n + 1) sent).2[sent.length + 1]?
          = some e ∧ e.text = newUrl ∧ e.request.url = v := by
  intro h
  obtain ⟨e, he, _⟩ := h { options := {} } (redirecting 302 (utf8 "LOCATION")) .get
    (utf8 "http://h/a") [] [] 4 [] ⟨utf8 "http", utf8 "h", utf8 "80", utf8 "/a"⟩ (utf8 "http://h/b")
    ⟨utf8 "http", utf8 "h", utf8 "80", utf8 "/b"⟩ rfl (by decide)
    ⟨by decide, utf8 "LOCATION", utf8 "/b", by decide, by decide, by decide⟩ (by decide)
  have hnone : (doRequest {} (redirecting 302 (utf8 "LOCATION")) .get (utf8 "http://h/a") [] [] 5
      []).2[1]? = none := by decide
  exact nomatch hnone.symm.trans he

end CloudGateway.Proof
