import CloudGateway.Proof.Origin
import CloudGateway.Proof.Redirects

/-!
# Redirects to other hosts

`restrict_redirect_to_same_host` is not read anywhere. A chain of redirects stays on
the host of its first URL as long as no response that is followed names another one,
and as long as none is relative to a URL that `resolve_redirect` puts together
wrongly (`KeepsHost`).
-/

namespace CloudGateway.Proof

open Transport

instance (u : Url) (location : Bytes) : Decidable (KeepsHost u location) :=
  inferInstanceAs (Decidable (_ ∨ _ ∨ _ ∨ _))

/-- A response leads to another host than the one that has sent it. -/
def leavesHost (options : HttpOptions) (e : Exchange) : Bool :=
  match e.response.location options with
  | none => false
  | some location =>
      if isAbsolute location then (parseUrl location).any (fun v => v.host != e.request.url.host)
      else !decide (KeepsHost e.request.url location)

/-- A response that is followed leaves the host exactly if the next URL has another one. -/
theorem leavesHost_iff {options : HttpOptions} {e : Exchange} {location url : Bytes} {v : Url}
    (he : parseUrl e.text = some e.request.url)
    (hlocation : e.response.location options = some location)
    (hurl : resolveRedirect e.text location = some url) (hv : parseUrl url = some v) :
    leavesHost options e = false ↔ v.host = e.request.url.host := by
  rw [leavesHost, hlocation]
  by_cases habs : isAbsolute location = true
  · rw [resolveRedirect, if_pos habs] at hurl
    obtain rfl := Option.some.inj hurl
    simp only [habs, if_true, hv, Option.any_some, bne_eq_false_iff_eq]
  · have hrelative : isAbsolute location = false := Bool.not_eq_true _ ▸ habs
    simp only [hrelative, Bool.false_eq_true, if_false, Bool.not_eq_false', decide_eq_true_eq]
    exact (relative_host_iff he hrelative hurl hv).symm

/-- **A chain stays on its host exactly if no response that is followed leaves it.** -/
theorem chain_host_iff {options : HttpOptions} {headers : HeaderMap} {n : Nat} {method : Method}
    {url body : Bytes} {es : List Exchange} {u : Url}
    (h : RedirectChain options headers n method url body es) (hurl : parseUrl url = some u) :
    (∀ e ∈ es, e.request.url.host = u.host)
      ↔ es.IsChain (fun e _ => leavesHost options e = false) := by
  induction h generalizing u with
  | rejected hnone => rw [hnone] at hurl; exact nomatch hurl
  | last hsome =>
      obtain rfl := Option.some.inj (hsome.symm.trans hurl)
      exact ⟨fun _ => .singleton _, fun _ e he => by rw [List.mem_singleton.mp he]⟩
  | @redirected n method url body location newUrl u₁ response es hsome hlocation hnew hrest ih =>
      obtain rfl := Option.some.inj (hsome.symm.trans hurl)
      cases hparse : parseUrl newUrl with
      | none =>
          -- the chain ends here
          obtain rfl := chain_rejected hrest hparse
          exact ⟨fun _ => .singleton _, fun _ e he => by rw [List.mem_singleton.mp he]⟩
      | some v =>
          obtain ⟨e', es', rfl, _, hfirst⟩ := chain_first hrest hparse
          have hleaves := leavesHost_iff (e := ⟨url, ⟨u₁, method, body, headers⟩, response⟩)
            hurl hlocation hnew hparse
          have htail := ih hparse
          constructor
          · intro hall
            have hv : v.host = u₁.host := by
              rw [← hfirst]
              exact hall e' (List.mem_cons_of_mem _ List.mem_cons_self)
            refine .cons_cons (hleaves.mpr hv) (htail.mp (fun e he => ?_))
            rw [hv]
            exact hall e (List.mem_cons_of_mem _ he)
          · intro hchain
            cases hchain with
            | cons_cons hstays hrestChain =>
                have hv : v.host = u₁.host := hleaves.mp hstays
                intro e he
                rcases List.mem_cons.mp he with rfl | he
                · rfl
                · rw [← hv]
                  exact htail.mpr hrestChain e he

/-- A client that is told to follow redirects on one host only. -/
def restricted (options : HttpOptions) : HttpClient :=
  { options := { options with restrictRedirectToSameHost := true } }

/--
**The requests of a call go to one host exactly as long as no response that is
followed leads to another.** That the client is told to stay on the host makes no
difference.
-/
theorem redirects_stay_iff (options : HttpOptions) (server : List HttpRequest → FullResponse)
    (call : HttpClient.Call) {u : Url} (hurl : parseUrl (callUrl call) = some u) :
    (∀ e ∈ ((restricted options).call server call).2, e.request.url.host = u.host)
      ↔ ((restricted options).call server call).2.IsChain
          (fun e _ => leavesHost (restricted options).options e = false) := by
  obtain ⟨response, es, hrun, hchain⟩ := call_chain (restricted options) server call
  rw [hrun]
  exact chain_host_iff hchain hurl

/-- A relative `Location` is followed, and both requests go to one host. -/
theorem redirects_stay_iff_relative :
    ∃ (server : List HttpRequest → FullResponse) (call : HttpClient.Call),
      ((restricted {}).call server call).2.map (·.text) = [utf8 "http://h/a", utf8 "http://h/b"]
      ∧ ∀ e ∈ ((restricted {}).call server call).2, e.request.url.host = utf8 "h" := by
  let server : List HttpRequest → FullResponse := fun sent =>
    if sent.length = 1 then ⟨⟨302, []⟩, [(utf8 "Location", utf8 "b")], []⟩ else ⟨⟨200, []⟩, [], []⟩
  let call : HttpClient.Call := .get (utf8 "http://h/a") []
  have hurl : parseUrl (callUrl call) = some ⟨utf8 "http", utf8 "h", utf8 "80", utf8 "/a"⟩ := by
    decide
  refine ⟨server, call, by decide, (redirects_stay_iff {} server call hurl).mpr ?_⟩
  decide

/-- The token of the first request is sent to the host that the response names. -/
theorem not_redirectsStay :
    ¬ ∀ options server call u, parseUrl (callUrl call) = some u →
      ∀ e ∈ ((restricted options).call server call).2, e.request.url.host = u.host := by
  intro h
  let server : List HttpRequest → FullResponse := fun sent =>
    if sent.length = 1 then ⟨⟨307, []⟩, [(utf8 "Location", utf8 "http://other/")], []⟩
    else ⟨⟨200, []⟩, [], []⟩
  let call : HttpClient.Call :=
    .post (utf8 "http://h/api/vehicles") [(utf8 "Authorization", utf8 "Bearer T")] (utf8 "body")
  have hsent : ((restricted {}).call server call).2.map
        (fun e => (e.request.url.host, e.request.headers, e.request.body))
      = [(utf8 "h", [(utf8 "Authorization", utf8 "Bearer T")], utf8 "body"),
         (utf8 "other", [(utf8 "Authorization", utf8 "Bearer T")], utf8 "body")] := by decide
  obtain ⟨e, he, heq⟩ := List.mem_map.mp (hsent ▸ List.mem_cons_of_mem _ List.mem_cons_self)
  have hhost : e.request.url.host = utf8 "other" := (Prod.mk.inj heq).1
  have hsame := h {} server call ⟨utf8 "http", utf8 "h", utf8 "80", utf8 "/api/vehicles"⟩
    (by decide) e he
  rw [hhost] at hsame
  exact absurd hsame (by decide)

end CloudGateway.Proof
