import CloudGateway.Proof.RedirectFields

/-!
# What a call tells of its exchanges

The exchanges of a call are a trail (`CallTrail`), and what the call returns is told by
the last of them: by what the parser held, if the exchange has gone through, and else
by the call that failed in it. Where the trail leads to what is no URL, the call
returns that text. A program's requests are those of its calls, so each of them has a
place in one trail: `exchangesOf_split`.
-/

namespace CloudGateway.Proof

open Transport Reactive Script

variable {net : Network} {past : List NetCall}

/-- The exchanges of a call that begins after `past`. -/
structure CallTrail (net : Network) (past : List NetCall) (c : HttpClient)
    (call : HttpClient.Call) (es : List Exchange) : Prop where
  /-- They are for the URL of the call and what it leads to. -/
  trail : Trail net past c.options (callUrl call) es
  /-- Their methods, headers and bodies come from those of the call. -/
  requests : RedirectSemantics c call es
  /-- The call does nothing else on the network. -/
  calls : (net.call c call past).2 = callsFor net past es

theorem callTrail_of_call {c : HttpClient} {call : HttpClient.Call} {r : FullResponse}
    {es : List Exchange} (hcall : c.call (server net past) call = (some r, es))
    (htrail : Trail net past c.options (callUrl call) es) : CallTrail net past c call es := by
  have hrequests := (redirect_semantics c (server net past) call).2
  have hcalls := (netCall_refines net c call past).2
  rw [hcall] at hrequests hcalls
  exact ⟨htrail, hrequests, hcalls⟩

/-! ## The flag -/

theorem release_success (parser : Parser) :
    parser.release.success = parser.release.toHttpResponse.success := by
  have hlow : decide (200 ≤ parser.statusCode) = decide (200 ≤ (parser.statusCode : Int)) :=
    decide_eq_decide.mpr (by omega)
  have hhigh : decide (parser.statusCode < 300) = decide ((parser.statusCode : Int) < 300) :=
    decide_eq_decide.mpr (by omega)
  rw [HttpResponse.success, Parser.release]
  simp only [hlow, hhigh]

/-- The flag that is stored says what the status says. -/
def Flagged (r : StoredResponse) : Prop := r.success = r.toHttpResponse.success

theorem doRequest_flagged (net : Network) (request : HttpRequest) (past : List NetCall) :
    Flagged (net.doRequest request past).1 := by
  rcases told_of_doRequest net request past with ⟨_, _, _, hreleased⟩ | hunanswered
  · rw [hreleased]
    exact release_success _
  · obtain ⟨message, -, hfailed⟩ := unanswered_failed hunanswered
    rw [hfailed]
    rfl

theorem clientDoRequest_flagged (net : Network) (options : HttpOptions) (headers : HeaderMap)
    (n : Nat) (method : Method) (url body : Bytes) (past : List NetCall) {r : StoredResponse}
    (h : (net.clientDoRequest options method url headers body n past).1 = some r) :
    Flagged r := by
  induction n generalizing method url body past with
  | zero =>
      unfold Network.clientDoRequest at h
      cases hurl : parseUrl url with
      | none =>
          rw [hurl] at h
          obtain rfl := Option.some.inj h
          rfl
      | some u =>
          rw [hurl] at h
          obtain rfl := Option.some.inj h
          exact doRequest_flagged net _ past
  | succ n ih =>
      unfold Network.clientDoRequest at h
      cases hurl : parseUrl url with
      | none =>
          rw [hurl] at h
          obtain rfl := Option.some.inj h
          rfl
      | some u =>
          rw [hurl] at h
          simp only at h
          cases hlocation : (net.doRequest ⟨u, method, body, headers⟩
              past).1.toFullResponse.location options with
          | none =>
              rw [hlocation] at h
              obtain rfl := Option.some.inj h
              exact doRequest_flagged net _ past
          | some location =>
              rw [hlocation] at h
              simp only at h
              cases hnew : resolveRedirect url location with
              | none =>
                  rw [hnew] at h
                  exact absurd h (by simp)
              | some newUrl =>
                  rw [hnew] at h
                  exact ih _ newUrl _ _ h

theorem netCall_flagged {c : HttpClient} {call : HttpClient.Call} {r : StoredResponse}
    (h : (net.call c call past).1 = some r) : Flagged r := by
  cases call <;> exact clientDoRequest_flagged net c.options _ _ _ _ _ past h

/-- Responses that are flagged are told apart by what the server sees. -/
theorem flagged_ext {r r' : StoredResponse} (h : Flagged r) (h' : Flagged r')
    (hfull : r.toFullResponse = r'.toFullResponse) : r = r' := by
  obtain ⟨full, success⟩ := r
  obtain ⟨full', success'⟩ := r'
  obtain rfl : full = full' := hfull
  rw [show success = success' from h.trans h'.symm]

/-! ## Calls -/

/-- The last exchange of a call is answered, with this response. -/
def CallAnswered (net : Network) (past : List NetCall) (es : List Exchange)
    (r : StoredResponse) : Prop :=
  ∃ earlier e, es = earlier ++ [e] ∧ Answered net e.request (callsFor net past earlier) r

/-- A call has no response to return, for this reason. -/
inductive CallUnanswered (net : Network) (past : List NetCall) (options : HttpOptions)
    (url : Bytes) (es : List Exchange) : StoredResponse → Prop where
  /-- What is asked for after the last exchange, or at first, is no URL. -/
  | invalid {text : Bytes} (hasked : Asked options url es es.length text)
      (hurl : parseUrl text = none) :
      CallUnanswered net past options url es (.failed (utf8 "Invalid URL: " ++ text))
  | last {earlier : List Exchange} {e : Exchange} {r : StoredResponse} (hes : es = earlier ++ [e])
      (h : Unanswered net e.request (callsFor net past earlier) r) :
      CallUnanswered net past options url es r

theorem callAnswered_message {es : List Exchange} {r : StoredResponse}
    (h : CallAnswered net past es r) : r.errorMessage = [] := by
  obtain ⟨_, _, _, _, _, _, hreleased⟩ := h
  rw [hreleased]
  rfl

theorem callUnanswered_failed {options : HttpOptions} {url : Bytes} {es : List Exchange}
    {r : StoredResponse} (h : CallUnanswered net past options url es r) :
    ∃ message, message ≠ [] ∧ r = .failed message := by
  cases h with
  | @invalid text hasked hurl => exact ⟨_, List.append_ne_nil_of_left_ne_nil (by decide) text, rfl⟩
  | last hes h => exact unanswered_failed h

/-- A call that returns what comes of its last exchange is told by it. -/
theorem told_of_last {options : HttpOptions} {url : Bytes} {es earlier : List Exchange}
    {e : Exchange} {r : StoredResponse} (hes : es = earlier ++ [e])
    (h : r = (net.doRequest e.request (callsFor net past earlier)).1) :
    CallAnswered net past es r ∨ CallUnanswered net past options url es r := by
  rcases told_of_doRequest net e.request (callsFor net past earlier) with htold | htold
  · exact .inl ⟨earlier, e, hes, h ▸ htold⟩
  · exact .inr (.last hes (h ▸ htold))

theorem told_of_call (net : Network) (c : HttpClient) (call : HttpClient.Call)
    (past : List NetCall) :
    ∃ r es, (net.call c call past).1 = some r ∧ CallTrail net past c call es
      ∧ (CallAnswered net past es r ∨ CallUnanswered net past c.options (callUrl call) es r) := by
  obtain ⟨full, es, hcall, htrail, hended⟩ := call_trail net c call past
  have hreturned := (netCall_refines net c call past).1
  rw [hcall] at hreturned
  obtain ⟨r, hr, hfull⟩ := Option.map_eq_some_iff.mp hreturned
  have hflag := netCall_flagged hr
  have hlast : ∀ e, es.getLast? = some e → r.toFullResponse = e.response →
      CallAnswered net past es r ∨ CallUnanswered net past c.options (callUrl call) es r := by
    intro e he hresponse
    obtain ⟨earlier, rfl⟩ := List.getLast?_eq_some_iff.mp he
    have hanswered := htrail.answered earlier.length e List.getElem?_concat_length
    rw [List.take_left] at hanswered
    exact told_of_last rfl (flagged_ext hflag (doRequest_flagged net e.request _)
      (hresponse.trans hanswered))
  refine ⟨r, es, hr, callTrail_of_call hcall htrail, ?_⟩
  cases hended with
  | @rejected text hasked hurl =>
      have hinvalid : r = .failed (utf8 "Invalid URL: " ++ text) := flagged_ext hflag rfl hfull
      exact .inr (hinvalid ▸ .invalid hasked hurl)
  | spent he _ => exact hlast _ he hfull
  | stopped he _ => exact hlast _ he hfull

/--
**A call tells how it has ended.** It always returns, and what it has done is a trail of
exchanges. Its error message is empty just when the last of them has gone through to the
end of its read, and the response is then what the parser held. Otherwise the message
names the text that is no URL and that the trail has led to, or says which call of the
last exchange has failed, or that its request could not be put together; and there is
nothing else in the response. The flag that is stored says what the status says.
-/
theorem responses_told (net : Network) (c : HttpClient) (call : HttpClient.Call)
    (past : List NetCall) :
    ∃ r es, (net.call c call past).1 = some r ∧ CallTrail net past c call es
      ∧ r.success = r.toHttpResponse.success
      ∧ (r.errorMessage = [] ↔ CallAnswered net past es r)
      ∧ (r.errorMessage ≠ [] ↔ CallUnanswered net past c.options (callUrl call) es r)
      ∧ (r.errorMessage ≠ [] → r = .failed r.errorMessage) := by
  obtain ⟨r, es, hr, htrail, htold⟩ := told_of_call net c call past
  refine ⟨r, es, hr, htrail, netCall_flagged hr, ?_⟩
  rcases htold with hanswered | hunanswered
  · have hmessage := callAnswered_message hanswered
    refine ⟨⟨fun _ => hanswered, callAnswered_message⟩, ⟨?_, ?_⟩, ?_⟩
    · exact fun hne => absurd hmessage hne
    · intro hunanswered
      obtain ⟨message, hne, rfl⟩ := callUnanswered_failed hunanswered
      exact absurd hmessage hne
    · exact fun hne => absurd hmessage hne
  · obtain ⟨message, hne, hfailed⟩ := callUnanswered_failed hunanswered
    have hmessage : r.errorMessage = message := by rw [hfailed]; rfl
    refine ⟨⟨?_, callAnswered_message⟩, ⟨fun _ => hunanswered, ?_⟩, ?_⟩
    · exact fun hnil => absurd (hmessage.symm.trans hnil) hne
    · exact fun _ hnil => hne (hmessage.symm.trans hnil)
    · intro _
      rw [hmessage, hfailed]

/-! ## The requests of a program -/

/-- What is sent stands in the trail of one of the calls, which begins after those before it. -/
theorem exchangesOf_split {work : List (HttpClient × HttpClient.Call)}
    {before after : List Exchange} {e : Exchange}
    (h : exchangesOf net work past = before ++ e :: after) :
    ∃ i w es k, work[i]? = some w ∧ CallTrail net (net.session (work.take i) past) w.1 w.2 es
      ∧ es[k]? = some e ∧ before = exchangesOf net (work.take i) past ++ es.take k := by
  induction work generalizing past before with
  | nil => exact absurd h (by simp [exchangesOf])
  | cons w work ih =>
      obtain ⟨r, es, hcall, htrail, -⟩ := call_trail net w.1 w.2 past
      have hsent : exchangesOf net (w :: work) past
          = es ++ exchangesOf net work (net.call w.1 w.2 past).2 := by
        rw [exchangesOf, hcall]
      -- what is sent later is in one of the trails after this one
      have hlater : ∀ more, before = es ++ more →
          exchangesOf net work (net.call w.1 w.2 past).2 = more ++ e :: after →
          ∃ i v es' k, (w :: work)[i]? = some v
            ∧ CallTrail net (net.session ((w :: work).take i) past) v.1 v.2 es'
            ∧ es'[k]? = some e
            ∧ before = exchangesOf net ((w :: work).take i) past ++ es'.take k := by
        intro more hbefore hrest
        obtain ⟨i, v, es', k, hi, hv, hk, hmore⟩ := ih hrest
        refine ⟨i + 1, v, es', k, hi, hv, hk, ?_⟩
        rw [List.take_succ_cons, exchangesOf, hcall, hbefore, hmore, List.append_assoc]
      rw [hsent] at h
      rcases List.append_eq_append_iff.mp h with ⟨more, hbefore, hrest⟩ | ⟨tail, hes, hrest⟩
      · exact hlater more hbefore hrest
      · cases tail with
        | nil => exact hlater [] (by rw [hes, List.append_nil, List.append_nil]) hrest.symm
        | cons d tail =>
            obtain ⟨rfl, -⟩ := List.cons.inj hrest
            refine ⟨0, w, es, before.length, rfl, callTrail_of_call hcall htrail, ?_, ?_⟩
            · rw [hes, List.getElem?_append_right (Nat.le_refl _), Nat.sub_self]
              rfl
            · rw [hes, List.take_left]
              rfl

/-- Every request that is written is one of a call, at its place in the trail of the call. -/
theorem written_by_call {work : List (HttpClient × HttpClient.Call)} {before after : List NetCall}
    {wire : WireRequest} (h : net.session work [] = before ++ .write wire :: after) :
    ∃ i w es k e, work[i]? = some w ∧ es[k]? = some e
      ∧ CallTrail net (net.session (work.take i) []) w.1 w.2 es
      ∧ net.wireRequest e.request = .ok wire
      ∧ before = callsFor net (net.session (work.take i) []) (es.take k)
          ++ opening e.request.url := by
  obtain ⟨sent, e, later, hsent, hwire, hbefore, -⟩ := session_write h
  obtain ⟨i, w, es, k, hi, htrail, hk, rfl⟩ := exchangesOf_split hsent
  refine ⟨i, w, es, k, e, hi, hk, htrail, hwire, ?_⟩
  rw [hbefore, session_calls, callsFor, callsFor, callsFor, List.map_append, List.map_append,
    play_append]

end CloudGateway.Proof
