import CloudGateway.Proof.HttpExchange
import CloudGateway.Proof.RedirectSpelling

/-!
# Redirects over the network

The fields of a response go into a map one after the other, so a field that comes
twice has its last value (`release_headers`), and names that differ in case are two
names. A response that leads on is always one that a parser held, so the URL of each
further request comes from the last `Location` field of the response before it.
-/

namespace CloudGateway.Proof

open Transport

variable {net : Network} {options : HttpOptions} {headers : HeaderMap}

/-! ## The map of a response -/

/-- Each name once, in the order of the names. -/
def InNameOrder (headers : HeaderMap) : Prop := headers.Pairwise (fun h g => h.1 < g.1)

theorem insert_lookup_self (headers : HeaderMap) (name value : Bytes) :
    (HeaderMap.insert headers name value).lookup name = some value := by
  induction headers with
  | nil => rw [HeaderMap.insert, List.lookup_cons_self]
  | cons g headers ih =>
      rw [HeaderMap.insert]
      split
      · rw [List.lookup_cons_self]
      · rename_i hkey
        split
        · rw [List.lookup_cons_self]
        · rw [List.lookup_cons, beq_eq_false_iff_ne.mpr (fun heq => hkey heq.symm)]
          exact ih

theorem insert_lookup_ne {name other : Bytes} (h : other ≠ name) (headers : HeaderMap)
    (value : Bytes) :
    (HeaderMap.insert headers name value).lookup other = headers.lookup other := by
  have hbeq : (other == name) = false := beq_eq_false_iff_ne.mpr h
  induction headers with
  | nil =>
      rw [HeaderMap.insert, List.lookup_cons, hbeq]
  | cons g headers ih =>
      rw [HeaderMap.insert]
      split
      · rename_i hkey
        rw [List.lookup_cons, List.lookup_cons, hkey, hbeq]
      · split
        · rw [List.lookup_cons, hbeq]
        · rw [List.lookup_cons, List.lookup_cons, ih]

theorem insert_mem {name value : Bytes} {g : Bytes × Bytes}
    (h : g ∈ HeaderMap.insert headers name value) : g = (name, value) ∨ g ∈ headers := by
  induction headers with
  | nil => exact .inl (List.mem_singleton.mp h)
  | cons f headers ih =>
      rw [HeaderMap.insert] at h
      split at h
      · exact (List.mem_cons.mp h).imp_right (List.mem_cons_of_mem f)
      · split at h
        · exact List.mem_cons.mp h
        · rcases List.mem_cons.mp h with rfl | hrest
          · exact .inr List.mem_cons_self
          · exact (ih hrest).imp_right (List.mem_cons_of_mem f)

theorem insert_inNameOrder (h : InNameOrder headers) (name value : Bytes) :
    InNameOrder (HeaderMap.insert headers name value) := by
  induction headers with
  | nil => exact List.pairwise_singleton _ _
  | cons f headers ih =>
      obtain ⟨hfirst, hrest⟩ := List.pairwise_cons.mp h
      rw [HeaderMap.insert]
      split
      · rename_i hkey
        exact List.pairwise_cons.mpr ⟨fun g hg => hkey ▸ hfirst g hg, hrest⟩
      · rename_i hkey
        split
        · rename_i hlt
          refine List.pairwise_cons.mpr ⟨?_, h⟩
          intro g hg
          rcases List.mem_cons.mp hg with rfl | hg
          · exact hlt
          · exact List.lt_trans hlt (hfirst g hg)
        · rename_i hnlt
          refine List.pairwise_cons.mpr ⟨?_, ih hrest⟩
          intro g hg
          rcases insert_mem hg with rfl | hg
          · exact Std.lt_of_le_of_ne hnlt hkey
          · exact hfirst g hg

/-- **A response maps each name to the last value of its fields, and has each name once.** -/
theorem release_headers (parser : Parser) :
    InNameOrder parser.release.headers
      ∧ ∀ name, parser.release.headers.lookup name = parser.fields.reverse.lookup name := by
  rw [Parser.release]
  simp only
  induction parser.fields using List.reverseRecOn with
  | nil => exact ⟨List.Pairwise.nil, fun name => rfl⟩
  | append_singleton fields f ih =>
      obtain ⟨horder, hlookup⟩ := ih
      rw [List.foldl_append, List.foldl_cons, List.foldl_nil, List.reverse_append,
        List.reverse_singleton, List.singleton_append]
      refine ⟨insert_inNameOrder horder f.1 f.2, ?_⟩
      intro name
      by_cases hname : name = f.1
      · rw [hname, insert_lookup_self, List.lookup_cons_self]
      · rw [insert_lookup_ne hname, hlookup, List.lookup_cons, beq_eq_false_iff_ne.mpr hname]

/-! ## How a chain goes on and ends -/

/-- What a client asks for next, when it has made the first `k` of the exchanges. -/
inductive Asked (options : HttpOptions) (url : Bytes) (es : List Exchange) :
    Nat → Bytes → Prop where
  | first : Asked options url es 0 url
  | next {k : Nat} {e : Exchange} {location text : Bytes} (hk : es[k]? = some e)
      (hlocation : e.response.location options = some location)
      (hnew : resolveRedirect e.text location = some text) : Asked options url es (k + 1) text

/-- Why no more is sent, with `n` redirects at most, and what is returned then. -/
inductive Ended (options : HttpOptions) (n : Nat) (url : Bytes) (es : List Exchange) :
    FullResponse → Prop where
  /-- What is asked for is no URL. -/
  | rejected {text : Bytes} (hasked : Asked options url es es.length text)
      (hurl : parseUrl text = none) : Ended options n url es (.invalidUrl text)
  /-- All the redirects have been used. -/
  | spent {e : Exchange} (hlast : es.getLast? = some e) (hlen : es.length = n + 1) :
      Ended options n url es e.response
  /-- The last response leads nowhere. -/
  | stopped {e : Exchange} (hlast : es.getLast? = some e)
      (hnone : e.response.location options = none) : Ended options n url es e.response

section Along

variable {n : Nat} {method : Method} {url newUrl body location : Bytes} {es : List Exchange}
  {e : Exchange}

/-- What is asked for after a redirect is asked for one exchange later. -/
theorem asked_cons (hlocation : e.response.location options = some location)
    (hnew : resolveRedirect e.text location = some newUrl) {k : Nat} {text : Bytes}
    (h : Asked options newUrl es k text) : Asked options url (e :: es) (k + 1) text := by
  cases h with
  | first => exact .next rfl hlocation hnew
  | next hk hfound hresolved => exact .next hk hfound hresolved

theorem ended_cons (hlocation : e.response.location options = some location)
    (hnew : resolveRedirect e.text location = some newUrl) {r : FullResponse}
    (h : Ended options n newUrl es r) : Ended options (n + 1) url (e :: es) r := by
  cases h with
  | rejected hasked hurl => exact .rejected (asked_cons hlocation hnew hasked) hurl
  | spent hlast hlen =>
      refine .spent ?_ (congrArg Nat.succ hlen)
      rw [List.getLast?_cons, hlast, Option.getD_some]
  | stopped hlast hnone =>
      refine .stopped ?_ hnone
      rw [List.getLast?_cons, hlast, Option.getD_some]

/-- Each request of a chain is for what is asked for when it is made. -/
theorem chain_asked (h : RedirectChain options headers n method url body es) {k : Nat}
    (hk : es[k]? = some e) : Asked options url es k e.text := by
  induction h generalizing k with
  | rejected _ => exact absurd hk (by simp)
  | last _ =>
      cases k with
      | zero => rw [← Option.some.inj hk]; exact .first
      | succ k => exact absurd hk (by simp)
  | redirected _ hlocation hnew _ ih =>
      cases k with
      | zero => rw [← Option.some.inj hk]; exact .first
      | succ k => exact asked_cons hlocation hnew (ih hk)

/-- Every exchange has the response that the server gives after those before it. -/
def Answers (server : List HttpRequest → FullResponse) (es : List Exchange) : Prop :=
  ∀ k e, es[k]? = some e → e.response = responseTo server (es.take k) e.request

theorem answers_concat {server : List HttpRequest → FullResponse} {sent : List Exchange}
    (h : Answers server sent) (he : e.response = responseTo server sent e.request) :
    Answers server (sent ++ [e]) := by
  intro k d hk
  rcases Nat.lt_or_ge k sent.length with hlt | hge
  · rw [List.getElem?_append_left hlt] at hk
    rw [List.take_append_of_le_length (Nat.le_of_lt hlt)]
    exact h k d hk
  · rw [List.getElem?_append_right hge] at hk
    have hlen : k = sent.length := by
      have hbound := (List.getElem?_eq_some_iff.mp hk).1
      rw [List.length_singleton] at hbound
      omega
    rw [hlen, Nat.sub_self] at hk
    rw [hlen, List.take_left, ← Option.some.inj hk]
    exact he

/-- **`do_request` goes on to the end of its chain, and asks the server only.** -/
theorem doRequest_ended (options : HttpOptions) (server : List HttpRequest → FullResponse)
    (headers : HeaderMap) (n : Nat) (method : Method) (url body : Bytes) {sent : List Exchange}
    (h : Answers server sent) :
    ∃ r es, doRequest options server method url headers body n sent = (some r, sent ++ es)
      ∧ Answers server (sent ++ es) ∧ Ended options n url es r := by
  induction n generalizing method url body sent with
  | zero =>
      unfold doRequest
      cases hurl : parseUrl url with
      | none =>
          rw [← List.append_nil sent] at h
          exact ⟨_, [], by rw [List.append_nil], h, .rejected .first hurl⟩
      | some u =>
          have hsent := answers_concat h
            (e := ⟨url, ⟨u, method, body, headers⟩, responseTo server sent _⟩) rfl
          exact ⟨_, _, rfl, hsent, .spent (e := ⟨url, ⟨u, method, body, headers⟩, _⟩) rfl rfl⟩
  | succ n ih =>
      unfold doRequest
      cases hurl : parseUrl url with
      | none =>
          rw [← List.append_nil sent] at h
          exact ⟨_, [], by rw [List.append_nil], h, .rejected .first hurl⟩
      | some u =>
          have hsent := answers_concat h
            (e := ⟨url, ⟨u, method, body, headers⟩, responseTo server sent _⟩) rfl
          simp only
          unfold responseTo at hsent
          generalize server _ = response at hsent ⊢
          cases hlocation : response.location options with
          | none =>
              exact ⟨response, _, rfl, hsent,
                .stopped (e := ⟨url, ⟨u, method, body, headers⟩, response⟩) rfl hlocation⟩
          | some location =>
              obtain ⟨newUrl, hnew⟩ := resolveRedirect_isSome hurl location
              simp only [hnew]
              obtain ⟨r, es, hrun, hanswers, hended⟩ := ih (response.redirectMethod method) newUrl
                (response.redirectBody body) hsent
              rw [List.append_assoc] at hrun hanswers
              exact ⟨r, _, hrun, hanswers, ended_cons hlocation hnew hended⟩

end Along

/-! ## Over the network -/

/-- The last value of a field with one of the two names, the usual one first. -/
def lastLocation (fields : List (Bytes × Bytes)) : Option Bytes :=
  (fields.reverse.lookup (utf8 "Location")).or (fields.reverse.lookup (utf8 "location"))

/-- What is found in a response that a parser held. -/
theorem release_location {parser : Parser} {location : Bytes} :
    parser.release.location options = some location ↔
      options.followRedirects = true ∧ parser.statusCode ∈ [301, 302, 307, 308]
        ∧ lastLocation parser.fields = some location := by
  have hcode : parser.release.isRedirect = true ↔ parser.statusCode ∈ [301, 302, 307, 308] := by
    have hstatus : parser.release.statusCode = parser.statusCode := rfl
    simp only [FullResponse.isRedirect, hstatus, Bool.or_eq_true, beq_iff_eq, List.mem_cons,
      List.not_mem_nil, or_false]
    omega
  have hfound (hfollow : options.followRedirects = true)
      (hredirect : parser.release.isRedirect = true) :
      parser.release.location options = lastLocation parser.fields := by
    rw [location_eq hfollow, if_pos hredirect, foundLocation, (release_headers parser).2,
      (release_headers parser).2]
    rfl
  rw [← hcode]
  constructor
  · intro h
    obtain ⟨hfollow, hredirect⟩ := location_some h
    exact ⟨hfollow, hredirect, (hfound hfollow hredirect).symm.trans h⟩
  · rintro ⟨hfollow, hredirect, hlast⟩
    exact (hfound hfollow hredirect).trans hlast

example : (Parser.release ⟨true, 302, [], [(utf8 "Location", utf8 "/a"),
    (utf8 "location", utf8 "/b"), (utf8 "Location", utf8 "/c")]⟩).location {}
      = some (utf8 "/c") := by decide

/-- Without a response there is no status, and nothing to follow. -/
theorem doRequest_location {request : HttpRequest} {past : List NetCall} {location : Bytes} :
    (net.doRequest request past).1.location options = some location ↔
      options.followRedirects = true ∧ (net.doRequest request past).1.errorMessage = []
        ∧ (net.parser (net.doRequest request past).2).statusCode ∈ [301, 302, 307, 308]
        ∧ lastLocation (net.parser (net.doRequest request past).2).fields = some location := by
  rcases told_of_doRequest net request past with hanswered | hunanswered
  · have hcalls := answered_calls hanswered
    obtain ⟨_, _, _, hreleased⟩ := hanswered
    have hmessage : (net.parser (past ++ script net request)).release.errorMessage = [] := rfl
    rw [hreleased, hcalls, release_location, hmessage]
    simp only [true_and]
  · obtain ⟨message, hne, hfailed⟩ := unanswered_failed hunanswered
    rw [hfailed]
    constructor
    · intro h
      exact absurd (location_some h).2 Bool.false_ne_true
    · rintro ⟨-, hmessage, -⟩
      exact absurd hmessage hne

/-- The exchanges of a client that asks for `url`, made on a network after `past`. -/
structure Trail (net : Network) (past : List NetCall) (options : HttpOptions) (url : Bytes)
    (es : List Exchange) : Prop where
  /-- Each request is for what is asked for by then. -/
  asked : ∀ k e, es[k]? = some e →
    Asked options url es k e.text ∧ parseUrl e.text = some e.request.url
  /-- Each response is what comes of the request. -/
  answered : ∀ k e, es[k]? = some e →
    e.response = (net.doRequest e.request (callsFor net past (es.take k))).1.toFullResponse
  /-- It leads to where the last `Location` that the parser held says. -/
  leads : ∀ k e location, es[k]? = some e →
    (e.response.location options = some location ↔
      options.followRedirects = true ∧ e.response.errorMessage = []
        ∧ (net.parser (callsFor net past (es.take (k + 1)))).statusCode ∈ [301, 302, 307, 308]
        ∧ lastLocation (net.parser (callsFor net past (es.take (k + 1)))).fields = some location)

/-- What a call sends to the network as a server is a trail, and it goes on to the end. -/
theorem call_trail (net : Network) (c : HttpClient) (call : HttpClient.Call)
    (past : List NetCall) :
    ∃ r es, c.call (server net past) call = (some r, es)
      ∧ Trail net past c.options (callUrl call) es
      ∧ Ended c.options c.options.maxRedirects.toNat (callUrl call) es r := by
  obtain ⟨response, es, hcall, hchain⟩ := call_chain c (server net past) call
  have hnone : Answers (server net past) [] := fun k e he => absurd he (by simp)
  obtain ⟨r, es', hrun, hanswers, hended⟩ := doRequest_ended c.options (server net past)
    (callHeaders call) c.options.maxRedirects.toNat (callMethod call) (callUrl call)
    (callBody call) hnone
  have hsame := call_eq c (server net past) call
  rw [HttpClient.send, hrun, hcall] at hsame
  obtain ⟨hresponse, rfl⟩ := Prod.mk.inj hsame
  have hanswered : ∀ k e, es[k]? = some e → e.response
      = (net.doRequest e.request (callsFor net past (es.take k))).1.toFullResponse := by
    intro k e hk
    rw [hanswers k e hk, responseTo, server_sent]
    rfl
  refine ⟨r, es, by rw [hcall, hresponse], ⟨?_, hanswered, ?_⟩, hended⟩
  · intro k e hk
    exact ⟨chain_asked hchain hk, chain_parsed hchain (List.mem_of_getElem? hk)⟩
  · intro k e location hk
    have hlast : callsFor net past (es.take (k + 1))
        = (net.doRequest e.request (callsFor net past (es.take k))).2 := by
      rw [← callsFor_concat, List.take_add_one, hk]
      rfl
    rw [hanswered k e hk, hlast]
    exact doRequest_location

/--
**Redirects are followed to the end, by the last `Location` field.** What a call does
on the network is done for a trail of exchanges, and it returns once it has used all
its redirects, once a response leads nowhere, or once it is led to what is no URL. A
response leads on if redirects are followed, it has one of the four codes and the
parser held a field named `Location`, or else one named `location`; of several it is
the last, and it is resolved against the URL before it.
-/
theorem redirects_followed (net : Network) (c : HttpClient) (call : HttpClient.Call)
    (past : List NetCall) :
    ∃ r es, (net.call c call past).1.map (·.toFullResponse) = some r
      ∧ (net.call c call past).2 = callsFor net past es
      ∧ Trail net past c.options (callUrl call) es
      ∧ Ended c.options c.options.maxRedirects.toNat (callUrl call) es r := by
  obtain ⟨r, es, hcall, htrail, hended⟩ := call_trail net c call past
  obtain ⟨hreturned, hcalls⟩ := netCall_refines net c call past
  rw [hcall] at hreturned hcalls
  exact ⟨r, es, hreturned, hcalls, htrail, hended⟩

end CloudGateway.Proof
