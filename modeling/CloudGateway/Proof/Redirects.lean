import CloudGateway.Transport.HttpClient
import Mathlib.Data.List.Chain
import Mathlib.Data.List.TakeWhile

/-!
# Chains of redirects

`RedirectChain` lists what `do_request` can send, one constructor for each way a
chain goes on or ends; `doRequest_chain` says that it sends nothing else, and that
it never looks into a parsed URL that is not there. What holds along every chain is
then an induction on it.
-/

namespace CloudGateway.Proof

open Transport

variable {options : HttpOptions} {headers : HeaderMap}

/-! ## What is sent -/

/-- The exchanges of a call with so many redirects left. -/
inductive RedirectChain (options : HttpOptions) (headers : HeaderMap) :
    Nat → Method → Bytes → Bytes → List Exchange → Prop where
  /-- The URL cannot be parsed, and nothing is sent. -/
  | rejected {n : Nat} {method : Method} {url body : Bytes} (hurl : parseUrl url = none) :
      RedirectChain options headers n method url body []
  /-- The response is the last one. -/
  | last {n : Nat} {method : Method} {url body : Bytes} {u : Url} {response : FullResponse}
      (hurl : parseUrl url = some u) :
      RedirectChain options headers n method url body [⟨url, ⟨u, method, body, headers⟩, response⟩]
  /-- The response leads on. -/
  | redirected {n : Nat} {method : Method} {url body location newUrl : Bytes} {u : Url}
      {response : FullResponse} {es : List Exchange} (hurl : parseUrl url = some u)
      (hlocation : response.location options = some location)
      (hnew : resolveRedirect url location = some newUrl)
      (hrest : RedirectChain options headers n (response.redirectMethod method) newUrl
        (response.redirectBody body) es) :
      RedirectChain options headers (n + 1) method url body
        (⟨url, ⟨u, method, body, headers⟩, response⟩ :: es)

/-- A base that can be parsed can be resolved against. -/
theorem resolveRedirect_isSome {base : Bytes} {u : Url} (h : parseUrl base = some u)
    (location : Bytes) :
    ∃ url, resolveRedirect base location = some url := by
  rw [resolveRedirect]
  split
  · exact ⟨_, rfl⟩
  · rw [h]
    exact ⟨_, rfl⟩

/-- **`do_request` returns, and what it has sent is a chain.** -/
theorem doRequest_chain (options : HttpOptions) (server : List HttpRequest → FullResponse)
    (headers : HeaderMap) (n : Nat) (method : Method) (url body : Bytes) (sent : List Exchange) :
    ∃ response es, doRequest options server method url headers body n sent
        = (some response, sent ++ es)
      ∧ RedirectChain options headers n method url body es := by
  induction n generalizing method url body sent with
  | zero =>
      unfold doRequest
      cases hurl : parseUrl url with
      | none => exact ⟨_, [], by rw [List.append_nil], .rejected hurl⟩
      | some u => exact ⟨_, _, rfl, .last hurl⟩
  | succ n ih =>
      unfold doRequest
      cases hurl : parseUrl url with
      | none => exact ⟨_, [], by rw [List.append_nil], .rejected hurl⟩
      | some u =>
          simp only
          generalize server _ = response
          cases hlocation : response.location options with
          | none => exact ⟨response, _, rfl, .last hurl⟩
          | some location =>
              obtain ⟨newUrl, hnew⟩ := resolveRedirect_isSome hurl location
              simp only [hnew]
              obtain ⟨r, es, hrun, hchain⟩ := ih (response.redirectMethod method) newUrl
                (response.redirectBody body)
                (sent ++ [⟨url, ⟨u, method, body, headers⟩, response⟩])
              refine ⟨r, _, ?_, .redirected hurl hlocation hnew hchain⟩
              rw [hrun, List.append_assoc]
              rfl

/-! ## What holds along a chain -/

section Along

variable {n : Nat} {method : Method} {url body : Bytes} {es : List Exchange}

theorem chain_rejected (h : RedirectChain options headers n method url body es)
    (hurl : parseUrl url = none) : es = [] := by
  cases h with
  | rejected _ => rfl
  | last hsome => rw [hurl] at hsome; exact nomatch hsome
  | redirected hsome _ _ _ => rw [hurl] at hsome; exact nomatch hsome

/-- A chain from a URL that can be parsed begins with a request to it. -/
theorem chain_first (h : RedirectChain options headers n method url body es) {u : Url}
    (hurl : parseUrl url = some u) :
    ∃ e es', es = e :: es' ∧ e.text = url ∧ e.request.url = u := by
  cases h with
  | rejected hnone => rw [hnone] at hurl; exact nomatch hurl
  | last hsome => exact ⟨_, _, rfl, rfl, Option.some.inj (hsome.symm.trans hurl)⟩
  | redirected hsome _ _ _ => exact ⟨_, _, rfl, rfl, Option.some.inj (hsome.symm.trans hurl)⟩

theorem chain_length (h : RedirectChain options headers n method url body es) :
    es.length ≤ n + 1 := by
  induction h with
  | rejected _ => exact Nat.zero_le _
  | last _ => exact Nat.succ_le_succ (Nat.zero_le _)
  | redirected _ _ _ _ ih => exact Nat.succ_le_succ ih

/-- A response leads on only if redirects are followed and it is one of the four. -/
theorem location_some {response : FullResponse} {location : Bytes}
    (h : response.location options = some location) :
    options.followRedirects = true ∧ response.isRedirect = true := by
  unfold FullResponse.location at h
  split at h
  · rename_i hboth
    exact Bool.and_eq_true_iff.mp hboth
  · exact absurd h (by simp)

theorem chain_unfollowed (hnot : options.followRedirects = false)
    (h : RedirectChain options headers n method url body es) : es.length ≤ 1 := by
  cases h with
  | rejected _ => exact Nat.zero_le _
  | last _ => exact Nat.le_refl _
  | redirected _ hlocation _ _ =>
      rw [(location_some hlocation).1] at hnot
      exact Bool.noConfusion hnot

theorem chain_headers (h : RedirectChain options headers n method url body es) :
    ∀ e ∈ es, e.request.headers = headers := by
  induction h with
  | rejected _ => exact fun e he => absurd he List.not_mem_nil
  | last _ => exact fun e he => by rw [List.mem_singleton.mp he]
  | redirected _ _ _ _ ih =>
      intro e he
      rcases List.mem_cons.mp he with rfl | he
      · rfl
      · exact ih e he

/-- The method a request without a body goes on with. -/
def Method.withoutBody (method : Method) : Method :=
  if method = .post ∨ method = .put ∨ method = .patch then .get else method

theorem withoutBody_idem (method : Method) :
    Method.withoutBody (Method.withoutBody method) = Method.withoutBody method := by
  cases method <;> rfl

/-- While every response preserves them, the method and the body are the first ones. -/
theorem chain_preserved (h : RedirectChain options headers n method url body es) {k : Nat}
    {e : Exchange} (hk : es[k]? = some e)
    (hbefore : ∀ e' ∈ es.take k, e'.response.preserves = true) :
    e.request.method = method ∧ e.request.body = body := by
  induction h generalizing k with
  | rejected _ => exact absurd hk (by simp)
  | last _ =>
      cases k with
      | zero => obtain rfl := Option.some.inj hk; exact ⟨rfl, rfl⟩
      | succ k => exact absurd hk (by simp)
  | redirected _ _ _ _ ih =>
      cases k with
      | zero => obtain rfl := Option.some.inj hk; exact ⟨rfl, rfl⟩
      | succ k =>
          have hfirst := hbefore _ List.mem_cons_self
          simp only at hfirst
          have hrest := ih (k := k) hk (fun e' he' => hbefore e' (List.mem_cons_of_mem _ he'))
          rw [FullResponse.redirectMethod, FullResponse.redirectBody, if_pos hfirst,
            if_pos hfirst] at hrest
          exact hrest

/-- A chain that begins without a body and with the method for that keeps both. -/
theorem chain_withoutBody (h : RedirectChain options headers n method url body es)
    (hmethod : Method.withoutBody method = method) (hbody : body = []) :
    ∀ e ∈ es, e.request.method = method ∧ e.request.body = [] := by
  induction h with
  | rejected _ => exact fun e he => absurd he List.not_mem_nil
  | last _ =>
      intro e he
      rw [List.mem_singleton.mp he]
      exact ⟨rfl, hbody⟩
  | @redirected n method url body location newUrl u response es _ _ _ _ ih =>
      have hkept : response.redirectMethod method = method := by
        rw [FullResponse.redirectMethod]
        split
        · rfl
        · exact hmethod
      have hempty : response.redirectBody body = [] := by
        rw [FullResponse.redirectBody, hbody]
        exact ite_self _
      intro e he
      rcases List.mem_cons.mp he with rfl | he
      · exact ⟨rfl, hbody⟩
      · have hrest := ih (by rw [hkept]; exact hmethod) hempty e he
        rwa [hkept] at hrest

/-- After a response that does not preserve them, there is no body and the method for that. -/
theorem chain_converted (h : RedirectChain options headers n method url body es) {k : Nat}
    {e : Exchange} (hk : es[k]? = some e)
    (hbefore : ∃ e' ∈ es.take k, e'.response.preserves = false) :
    e.request.method = Method.withoutBody method ∧ e.request.body = [] := by
  induction h generalizing k with
  | rejected _ => exact absurd hk (by simp)
  | last _ =>
      cases k with
      | zero => obtain ⟨e', he', _⟩ := hbefore; exact absurd he' List.not_mem_nil
      | succ k => exact absurd hk (by simp)
  | @redirected n method url body location newUrl u response es _ _ _ hrest ih =>
      cases k with
      | zero => obtain ⟨e', he', _⟩ := hbefore; exact absurd he' List.not_mem_nil
      | succ k =>
          have hmem : e ∈ es := List.mem_of_getElem? hk
          by_cases hkeep : response.preserves = true
          · -- the conversion comes later
            obtain ⟨e', he', hnot⟩ := hbefore
            have hlater : e' ∈ es.take k := by
              rcases List.mem_cons.mp he' with rfl | he'
              · rw [hkeep] at hnot
                exact Bool.noConfusion hnot
              · exact he'
            have hend := ih (k := k) hk ⟨e', hlater, hnot⟩
            rwa [FullResponse.redirectMethod, if_pos hkeep] at hend
          · -- this response converts
            have hmethod : response.redirectMethod method = Method.withoutBody method := by
              rw [FullResponse.redirectMethod, if_neg hkeep]
              rfl
            have hbody : response.redirectBody body = [] := by
              rw [FullResponse.redirectBody, if_neg hkeep]
            have hkept := chain_withoutBody hrest (by rw [hmethod, withoutBody_idem]) hbody e hmem
            rwa [hmethod] at hkept

end Along

/-! ## Calls of the public functions -/

/-- What a call asks for first. -/
def callMethod : HttpClient.Call → Method
  | .get _ _ => .get
  | .post _ _ _ => .post
  | .put _ _ _ => .put
  | .patch _ _ _ => .patch
  | .delete _ _ => .delete
  | .head _ _ => .head

def callUrl : HttpClient.Call → Bytes
  | .get url _ | .post url _ _ | .put url _ _ | .patch url _ _ | .delete url _ | .head url _ => url

def callHeaders : HttpClient.Call → HeaderMap
  | .get _ headers | .post _ headers _ | .put _ headers _ | .patch _ headers _ | .delete _ headers
  | .head _ headers => headers

def callBody : HttpClient.Call → Bytes
  | .post _ _ body | .put _ _ body | .patch _ _ body => body
  | .get _ _ | .delete _ _ | .head _ _ => []

theorem call_eq (c : HttpClient) (server : List HttpRequest → FullResponse)
    (call : HttpClient.Call) :
    c.call server call
      = c.send server (callMethod call) (callUrl call) (callHeaders call) (callBody call) := by
  cases call <;> rfl

/-- **Every call returns, and has sent a chain.** -/
theorem call_chain (c : HttpClient) (server : List HttpRequest → FullResponse)
    (call : HttpClient.Call) :
    ∃ response es, c.call server call = (some response, es)
      ∧ RedirectChain c.options (callHeaders call) c.options.maxRedirects.toNat (callMethod call)
          (callUrl call) (callBody call) es := by
  obtain ⟨response, es, hrun, hchain⟩ := doRequest_chain c.options server (callHeaders call)
    c.options.maxRedirects.toNat (callMethod call) (callUrl call) (callBody call) []
  exact ⟨response, es, (call_eq c server call).trans hrun, hchain⟩

/-- What the requests of a call are, whatever the server does. -/
structure RedirectSemantics (c : HttpClient) (call : HttpClient.Call) (es : List Exchange) :
    Prop where
  /-- One request, and one more for each redirect that may be followed. -/
  budget : (es.length : Int) ≤ 1 + max 0 c.options.maxRedirects
  /-- One request if none may be. -/
  unfollowed : c.options.followRedirects = false → es.length ≤ 1
  /-- The method and the body are the first ones while all responses are 307 or 308. -/
  preserved : ∀ k e, es[k]? = some e →
    (∀ e' ∈ es.take k, e'.response.statusCode = 307 ∨ e'.response.statusCode = 308) →
    e.request.method = callMethod call ∧ e.request.body = callBody call
  /-- After a 301 or a 302 there is no body, and no method that has one. -/
  converted : ∀ k e, es[k]? = some e →
    (∃ e' ∈ es.take k, e'.response.statusCode = 301 ∨ e'.response.statusCode = 302) →
    e.request.body = [] ∧ e.request.method
      = if callMethod call = .post ∨ callMethod call = .put ∨ callMethod call = .patch then .get
        else callMethod call
  /-- The headers are those of the caller. -/
  headers : ∀ e ∈ es, e.request.headers = callHeaders call

/--
**Redirects end, and keep or drop the body as their codes say.** A call always
returns: it never resolves a `Location` against a URL that cannot be parsed.
-/
theorem redirect_semantics (c : HttpClient) (server : List HttpRequest → FullResponse)
    (call : HttpClient.Call) :
    (c.call server call).1.isSome = true ∧ RedirectSemantics c call (c.call server call).2 := by
  obtain ⟨response, es, hrun, hchain⟩ := call_chain c server call
  rw [hrun]
  refine ⟨rfl, ?_, fun hnot => chain_unfollowed hnot hchain, ?_, ?_, chain_headers hchain⟩
  · have hlen := chain_length hchain
    show (es.length : Int) ≤ _
    omega
  · intro k e hk hbefore
    refine chain_preserved hchain hk (fun e' he' => ?_)
    rcases hbefore e' he' with h | h <;> simp [FullResponse.preserves, h]
  · rintro k e hk ⟨e', he', hstatus⟩
    have hnot : e'.response.preserves = false := by
      rcases hstatus with h | h <;> simp [FullResponse.preserves, h]
    obtain ⟨hmethod, hbody⟩ := chain_converted hchain hk ⟨e', he', hnot⟩
    exact ⟨hbody, hmethod⟩

end CloudGateway.Proof
