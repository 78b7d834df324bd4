import CloudGateway.Lib.Script
import CloudGateway.Proof.Redirects
import CloudGateway.Proof.Url
import CloudGateway.Transport.HttpExchange
import Mathlib.Data.List.DropRight

/-!
# What the client does on the network

An exchange has a script: the calls that open a connection for its URL, the write
of the request and the read of the response. `doRequest_performs` says that the code
makes the calls of the script in turn, up to the first that ends badly, and what it
then returns. The client, which makes one exchange after the other, is seen to be the
one whose server answers as the network does: `call_refines`.
-/

namespace CloudGateway.Proof

open Transport Reactive Script

variable {net : Network} {request : HttpRequest} {past calls : List NetCall}

/-! ## The script of an exchange -/

/-- The calls that open a connection. -/
def opening (url : Url) : List NetCall :=
  .resolve url.host url.port ::
    if url.protocol = utf8 "https" then [.stream, .serverName url.host, .connect, .handshake]
    else [.connect]

/-- The calls that take a request over it. -/
def transfer (net : Network) (request : HttpRequest) : List NetCall :=
  match net.wireRequest request with
  | .error _ => []
  | .ok wire => [.write wire, .read (request.method == .head)]

def script (net : Network) (request : HttpRequest) : List NetCall :=
  opening request.url ++ transfer net request

/-- The last call ends in a way that does not end the exchange. -/
def goesWell (net : Network) (calls : List NetCall) : Bool :=
  match net.reply calls with
  | .ok => true
  | .threw _ => false
  | .error error _ =>
      match calls.getLast? with
      | some (.read _) =>
          error == .endOfStream || error == .eof
            || (error == .partialMessage && (net.parser calls).isDone)
      | _ => false

/-- What is reported of a call that ends with an error. -/
def failureText (url : Url) : NetCall → Bytes → Bytes
  | .resolve _ _, message => utf8 "DNS resolution failed: " ++ message
  | .stream, _ => utf8 "Failed to initialize OpenSSL stream"
  | .serverName _, message => utf8 "SNI setup failed: " ++ message
  | .connect, message =>
      if url.protocol = utf8 "https" then utf8 "Connecting failed: " ++ message
      else utf8 "Connection failed: " ++ message
  | .handshake, message => utf8 "SSL handshake failed: " ++ message
  | .write _, message => utf8 "write failed: " ++ message
  | .read _, message => utf8 "read failed: " ++ message

/-- What an exchange ends with when all of its script has been made. -/
def scriptEnd (net : Network) (request : HttpRequest) (calls : List NetCall) : StoredResponse :=
  match net.wireRequest request with
  | .error what => .failed (exceptionMessage what)
  | .ok _ => (net.parser calls).release

/-- The rest of a script, made after `past`, with what comes of it. -/
inductive Performs (net : Network) (request : HttpRequest) :
    List NetCall → List NetCall → StoredResponse × List NetCall → Prop where
  | done {past : List NetCall} : Performs net request [] past (scriptEnd net request past, past)
  | next {c : NetCall} {rest past : List NetCall} {r : StoredResponse × List NetCall}
      (hgood : goesWell net (past ++ [c]) = true)
      (hrest : Performs net request rest (past ++ [c]) r) :
      Performs net request (c :: rest) past r
  | error {c : NetCall} {rest past : List NetCall} {error : NetError} {message : Bytes}
      (hbad : goesWell net (past ++ [c]) = false)
      (hreply : net.reply (past ++ [c]) = .error error message) :
      Performs net request (c :: rest) past
        (.failed (failureText request.url c message), past ++ [c])
  | threw {c : NetCall} {rest past : List NetCall} {what : Bytes}
      (hreply : net.reply (past ++ [c]) = .threw what) :
      Performs net request (c :: rest) past (.failed (exceptionMessage what), past ++ [c])

theorem goesWell_of_ok (h : net.reply calls = .ok) : goesWell net calls = true := by
  rw [goesWell, h]

theorem goesWell_of_threw {what : Bytes} (h : net.reply calls = .threw what) :
    goesWell net calls = false := by
  rw [goesWell, h]

/-- Only a read can go well with an error. -/
theorem goesWell_of_error {c : NetCall} {error : NetError} {message : Bytes}
    (h : net.reply (past ++ [c]) = .error error message) (hc : ∀ skip, c ≠ .read skip) :
    goesWell net (past ++ [c]) = false := by
  rw [goesWell, h]
  cases c with
  | read skip => exact absurd rfl (hc skip)
  | _ => simp

theorem goesWell_read {skip : Bool} {error : NetError} {message : Bytes}
    (h : net.reply (past ++ [.read skip]) = .error error message) :
    goesWell net (past ++ [.read skip]) =
      (error == .endOfStream || error == .eof
        || (error == .partialMessage && (net.parser (past ++ [.read skip])).isDone)) := by
  rw [goesWell, h]
  simp

/-! ## The code follows the script -/

theorem attempt_performs {c : NetCall} {rest : List NetCall} {failure : Bytes → Bytes}
    {onward : List NetCall → StoredResponse × List NetCall} (hc : ∀ skip, c ≠ .read skip)
    (hfailure : ∀ message, failure message = failureText request.url c message)
    (honward : ∀ calls, Performs net request rest calls (onward calls)) (past : List NetCall) :
    Performs net request (c :: rest) past (net.attempt c failure past onward) := by
  unfold Network.attempt
  cases hreply : net.reply (past ++ [c]) with
  | ok => exact .next (goesWell_of_ok hreply) (honward _)
  | error error message =>
      simp only [hfailure]
      exact .error (goesWell_of_error hreply hc) hreply
  | threw what => exact .threw hreply

theorem receive_performs {wire : WireRequest} (hwire : net.wireRequest request = .ok wire)
    (past : List NetCall) :
    Performs net request [.read (request.method == .head)] past
      (net.receive request.method past) := by
  have hdone : ∀ calls, Performs net request [] calls ((net.parser calls).release, calls) := by
    intro calls
    have h : Performs net request [] calls (scriptEnd net request calls, calls) := .done
    rwa [scriptEnd, hwire] at h
  unfold Network.receive
  cases hreply : net.reply (past ++ [.read (request.method == .head)]) with
  | ok =>
      simp only [hreply]
      exact .next (goesWell_of_ok hreply) (hdone _)
  | threw what =>
      simp only [hreply]
      exact .threw hreply
  | error error message =>
      have hread := goesWell_read hreply
      simp only [hreply]
      by_cases hclosed : error ≠ .endOfStream ∧ error ≠ .eof
      · rw [if_pos hclosed]
        by_cases hcut : error = .partialMessage
            ∧ (net.parser (past ++ [.read (request.method == .head)])).isDone
        · rw [if_pos hcut]
          refine .next ?_ (hdone _)
          rw [hread]
          simp [hcut.1, hcut.2]
        · rw [if_neg hcut]
          refine .error ?_ hreply
          rw [hread]
          simpa [hclosed.1, hclosed.2] using hcut
      · rw [if_neg hclosed]
        refine .next ?_ (hdone _)
        rw [hread]
        by_cases heos : error = .endOfStream
        · simp [heos]
        · have heof : error = .eof := by
            by_contra hne
            exact hclosed ⟨heos, hne⟩
          simp [heof]

theorem sendAndReceive_performs (net : Network) (request : HttpRequest) (past : List NetCall) :
    Performs net request (transfer net request) past (net.sendAndReceive request past) := by
  unfold Network.sendAndReceive transfer
  cases hwire : net.wireRequest request with
  | error what =>
      have h : Performs net request [] past (scriptEnd net request past, past) := .done
      rwa [scriptEnd, hwire] at h
  | ok wire =>
      exact attempt_performs (by simp) (fun message => rfl)
        (fun calls => receive_performs hwire calls) past

/-- **The code makes the calls of the script.** -/
theorem doRequest_performs (net : Network) (request : HttpRequest) (past : List NetCall) :
    Performs net request (script net request) past (net.doRequest request past) := by
  unfold Network.doRequest script opening
  by_cases hhttps : request.url.protocol = utf8 "https"
  · simp only [if_pos hhttps]
    have hconnect (message : Bytes) :
        utf8 "Connecting failed: " ++ message = failureText request.url .connect message := by
      rw [failureText, if_pos hhttps]
    refine attempt_performs (by simp) (fun message => rfl) ?_ past
    refine attempt_performs (by simp) (fun message => rfl) ?_
    refine attempt_performs (by simp) (fun message => rfl) ?_
    refine attempt_performs (by simp) hconnect ?_
    refine attempt_performs (by simp) (fun message => rfl) ?_
    exact sendAndReceive_performs net request
  · simp only [if_neg hhttps]
    have hconnect (message : Bytes) :
        utf8 "Connection failed: " ++ message = failureText request.url .connect message := by
      rw [failureText, if_neg hhttps]
    refine attempt_performs (by simp) (fun message => rfl) ?_ past
    refine attempt_performs (by simp) hconnect ?_
    exact sendAndReceive_performs net request

/-! ## What comes of it -/

/-- The calls that are made are those of the script, up to the first that ends badly. -/
theorem performs_made {rest : List NetCall} {r : StoredResponse × List NetCall}
    (h : Performs net request rest past r) : r.2 = past ++ made (goesWell net) rest past := by
  induction h with
  | done => rw [made_nil, List.append_nil]
  | next hgood _ ih => rw [ih, made_cons, if_pos hgood, List.append_assoc, List.singleton_append]
  | error hbad _ => rw [made_cons, hbad]; rfl
  | threw hreply => rw [made_cons, goesWell_of_threw hreply]; rfl

/-- The last of the calls has ended the exchange, and this is what is reported of it. -/
def Faulted (net : Network) (url : Url) (c : NetCall) (calls : List NetCall)
    (response : StoredResponse) : Prop :=
  (∃ error message, net.reply calls = .error error message
      ∧ response = .failed (failureText url c message))
    ∨ ∃ what, net.reply calls = .threw what ∧ response = .failed (exceptionMessage what)

/-- A script goes through, or breaks off at one of its calls. -/
theorem performs_faulted {rest : List NetCall} {r : StoredResponse × List NetCall}
    (h : Performs net request rest past r) :
    (passes (goesWell net) rest past = true ∧ r.1 = scriptEnd net request (past ++ rest))
      ∨ ∃ before c after, rest = before ++ c :: after ∧ passes (goesWell net) before past = true
        ∧ goesWell net (past ++ before ++ [c]) = false
        ∧ Faulted net request.url c (past ++ before ++ [c]) r.1 := by
  induction h with
  | done => exact .inl ⟨rfl, by rw [List.append_nil]⟩
  | @next c rest past r hgood _ ih =>
      rcases ih with ⟨hpasses, hr⟩ | ⟨before, d, after, hrest, hpasses, hbad, hfault⟩
      · refine .inl ⟨?_, by rw [hr, List.append_assoc, List.singleton_append]⟩
        rw [passes_cons, hgood, hpasses, Bool.and_self]
      · refine .inr ⟨c :: before, d, after, by rw [hrest, List.cons_append], ?_, ?_⟩
        · rw [passes_cons, hgood, hpasses, Bool.and_self]
        · rw [List.append_assoc past, List.singleton_append] at hbad hfault
          exact ⟨hbad, hfault⟩
  | @error c rest past error message hbad hreply =>
      refine .inr ⟨[], c, rest, rfl, rfl, ?_, ?_⟩
      · rw [List.append_nil]
        exact hbad
      · rw [List.append_nil]
        exact .inl ⟨error, message, hreply, rfl⟩
  | @threw c rest past what hreply =>
      refine .inr ⟨[], c, rest, rfl, rfl, ?_, ?_⟩
      · rw [List.append_nil]
        exact goesWell_of_threw hreply
      · rw [List.append_nil]
        exact .inr ⟨what, hreply, rfl⟩

/-- **The calls of an exchange.** -/
theorem doRequest_made (net : Network) (request : HttpRequest) (past : List NetCall) :
    (net.doRequest request past).2 = past ++ made (goesWell net) (script net request) past :=
  performs_made (doRequest_performs net request past)

/-! ## The client over the network -/

/-- The network, as the server that a public call talks to. -/
def server (net : Network) (past : List NetCall) (requests : List HttpRequest) : FullResponse :=
  match requests.getLast? with
  | none => FullResponse.invalidUrl []
  | some request =>
      (net.doRequest request
        (play (goesWell net) past (requests.dropLast.map (script net)))).1.toFullResponse

/-- The calls made for the requests of `sent`. -/
def callsFor (net : Network) (past : List NetCall) (sent : List Exchange) : List NetCall :=
  play (goesWell net) past ((sent.map (·.request)).map (script net))

theorem server_sent (net : Network) (past : List NetCall) (sent : List Exchange)
    (request : HttpRequest) :
    server net past (sent.map (·.request) ++ [request]) =
      (net.doRequest request (callsFor net past sent)).1.toFullResponse := by
  rw [server, List.getLast?_concat, List.dropLast_concat]
  rfl

theorem callsFor_concat (net : Network) (past : List NetCall) (sent : List Exchange)
    (e : Exchange) :
    callsFor net past (sent ++ [e]) =
      (net.doRequest e.request (callsFor net past sent)).2 := by
  rw [callsFor, List.map_append, List.map_append, List.map_singleton, List.map_singleton,
    play_concat, doRequest_made]
  rfl

/--
The client that stores a flag and counts its calls returns what the client of the
network as a server returns, and has made the calls for what that has sent.
-/
theorem clientDoRequest_refines (net : Network) (options : HttpOptions) (headers : HeaderMap)
    (past : List NetCall) (n : Nat) (method : Method) (url body : Bytes) (sent : List Exchange) :
    (net.clientDoRequest options method url headers body n (callsFor net past sent)).1.map
        (·.toFullResponse)
      = (doRequest options (server net past) method url headers body n sent).1
    ∧ (net.clientDoRequest options method url headers body n (callsFor net past sent)).2
      = callsFor net past
          (doRequest options (server net past) method url headers body n sent).2 := by
  induction n generalizing method url body sent with
  | zero =>
      unfold Network.clientDoRequest doRequest
      cases hurl : parseUrl url with
      | none => exact ⟨rfl, rfl⟩
      | some u =>
          simp only [server_sent]
          exact ⟨rfl, (callsFor_concat net past sent ⟨url, ⟨u, method, body, headers⟩, _⟩).symm⟩
  | succ n ih =>
      unfold Network.clientDoRequest doRequest
      cases hurl : parseUrl url with
      | none => exact ⟨rfl, rfl⟩
      | some u =>
          simp only [server_sent]
          have hcalls := callsFor_concat net past sent ⟨url, ⟨u, method, body, headers⟩,
            (net.doRequest ⟨u, method, body, headers⟩ (callsFor net past sent)).1.toFullResponse⟩
          rw [← hcalls]
          cases hlocation : (net.doRequest ⟨u, method, body, headers⟩
              (callsFor net past sent)).1.toFullResponse.location options with
          | none => exact ⟨rfl, rfl⟩
          | some location =>
              simp only
              cases hnew : resolveRedirect url location with
              | none => exact ⟨rfl, rfl⟩
              | some newUrl => exact ih _ newUrl _ _

/-- **A public call over the network is one to the network as a server.** -/
theorem netCall_refines (net : Network) (c : HttpClient) (call : HttpClient.Call)
    (past : List NetCall) :
    (net.call c call past).1.map (·.toFullResponse) = (c.call (server net past) call).1
    ∧ (net.call c call past).2 = callsFor net past (c.call (server net past) call).2 := by
  cases call <;> exact clientDoRequest_refines net c.options _ past _ _ _ _ []

/-! ## What a program sends -/

/-- What the public calls have sent, in order. -/
def exchangesOf (net : Network) :
    List (HttpClient × HttpClient.Call) → List NetCall → List Exchange
  | [], _ => []
  | w :: work, past =>
      (w.1.call (server net past) w.2).2 ++ exchangesOf net work (net.call w.1 w.2 past).2

theorem session_calls (net : Network) (work : List (HttpClient × HttpClient.Call))
    (past : List NetCall) :
    net.session work past = callsFor net past (exchangesOf net work past) := by
  induction work generalizing past with
  | nil => rfl
  | cons w work ih =>
      rw [Network.session, exchangesOf, ih, (netCall_refines net w.1 w.2 past).2, callsFor,
        callsFor, callsFor, List.map_append, List.map_append, play_append]

theorem chain_parsed {options : HttpOptions} {headers : HeaderMap} {n : Nat} {method : Method}
    {url body : Bytes} {es : List Exchange} (h : RedirectChain options headers n method url body es)
    {e : Exchange} (he : e ∈ es) : parseUrl e.text = some e.request.url := by
  induction h with
  | rejected _ => exact absurd he (by simp)
  | last hurl => rw [List.mem_singleton.mp he]; exact hurl
  | redirected hurl _ _ _ ih =>
      rcases List.mem_cons.mp he with rfl | hrest
      · exact hurl
      · exact ih hrest

/-- Every call of a program stands at its place in the script of something it sends. -/
theorem session_place {work : List (HttpClient × HttpClient.Call)} {before after : List NetCall}
    {c : NetCall} (h : net.session work [] = before ++ c :: after) :
    ∃ sent e later start rest, exchangesOf net work [] = sent ++ e :: later
      ∧ script net e.request = start ++ c :: rest ∧ before = callsFor net [] sent ++ start
      ∧ passes (goesWell net) start (callsFor net [] sent) = true := by
  rw [session_calls, callsFor] at h
  obtain ⟨earlier, s, later, start, rest, hscripts, hs, hbefore, hpasses⟩ := play_place h
  rw [List.map_map] at hscripts
  obtain ⟨sent, more, hsent, rfl, hmore⟩ := List.map_eq_append_iff.mp hscripts
  obtain ⟨e, unsent, rfl, rfl, -⟩ := List.map_eq_cons_iff.mp hmore
  rw [← List.map_map] at hbefore hpasses
  exact ⟨sent, e, unsent, start, rest, hsent, hs, hbefore, hpasses⟩

/-! ## Requests are written over opened connections -/

theorem not_read_of_opening {url : Url} {c : NetCall} (h : c ∈ opening url) (skip : Bool) :
    c ≠ .read skip := by
  intro hc
  rw [hc, opening] at h
  split at h <;> simp at h

theorem not_write_of_opening {url : Url} {c : NetCall} (h : c ∈ opening url) (wire : WireRequest) :
    c ≠ .write wire := by
  intro hc
  rw [hc, opening] at h
  split at h <;> simp at h

/-- In a script the write comes right after the opening. -/
theorem script_write {wire : WireRequest} {start rest : List NetCall}
    (h : script net request = start ++ .write wire :: rest) :
    start = opening request.url ∧ net.wireRequest request = .ok wire := by
  rw [script] at h
  rcases List.append_eq_append_iff.mp h with ⟨more, hstart, htransfer⟩ | ⟨tail, hopening, hrest⟩
  · rw [transfer] at htransfer
    cases hwire : net.wireRequest request with
    | error what =>
        rw [hwire] at htransfer
        exact absurd htransfer (by simp)
    | ok w =>
        rw [hwire] at htransfer
        cases more with
        | nil =>
            have hw := (List.cons.inj htransfer).1
            rw [NetCall.write.inj hw]
            exact ⟨by rw [hstart, List.append_nil], rfl⟩
        | cons d more =>
            have htail := (List.cons.inj htransfer).2
            cases more with
            | nil => exact absurd htail (by simp)
            | cons d' more => exact absurd htail (by simp)
  · cases tail with
    | nil =>
        rw [List.append_nil] at hopening
        rw [List.nil_append, transfer] at hrest
        cases hwire : net.wireRequest request with
        | error what =>
            rw [hwire] at hrest
            exact absurd hrest (by simp)
        | ok w =>
            rw [hwire] at hrest
            have hw := (List.cons.inj hrest).1
            rw [NetCall.write.inj hw]
            exact ⟨hopening.symm, rfl⟩
    | cons d tail =>
        have hd := (List.cons.inj hrest).1
        have hmem : d ∈ opening request.url := by
          rw [hopening]
          exact List.mem_append_right start List.mem_cons_self
        exact absurd hd.symm (not_write_of_opening hmem wire)

/-- Every call of the opening has been made after `earlier`, with no error. -/
def Opened (net : Network) (url : Url) (earlier : List NetCall) : Prop :=
  ∀ before c after, opening url = before ++ c :: after →
    net.reply (earlier ++ before ++ [c]) = .ok

theorem opened_of_passes {url : Url} (h : passes (goesWell net) (opening url) past = true) :
    Opened net url past := by
  intro before c after hsplit
  rw [hsplit] at h
  have hgood := good_of_passes h
  have hmem : c ∈ opening url := by
    rw [hsplit]
    exact List.mem_append_right before List.mem_cons_self
  cases hreply : net.reply (past ++ before ++ [c]) with
  | ok => rfl
  | threw what =>
      rw [goesWell_of_threw hreply] at hgood
      exact absurd hgood (by simp)
  | error error message =>
      rw [goesWell_of_error hreply (not_read_of_opening hmem)] at hgood
      exact absurd hgood (by simp)

/-- What is written, where it comes from and what has been made right before. -/
theorem session_write {work : List (HttpClient × HttpClient.Call)} {before after : List NetCall}
    {wire : WireRequest} (h : net.session work [] = before ++ .write wire :: after) :
    ∃ sent e later, exchangesOf net work [] = sent ++ e :: later
      ∧ net.wireRequest e.request = .ok wire
      ∧ before = callsFor net [] sent ++ opening e.request.url
      ∧ Opened net e.request.url (callsFor net [] sent) := by
  obtain ⟨sent, e, later, start, rest, hsent, hscript, hbefore, hpasses⟩ := session_place h
  obtain ⟨rfl, hwire⟩ := script_write hscript
  exact ⟨sent, e, later, hsent, hwire, hbefore, opened_of_passes hpasses⟩

/-- ASCII `tolower`. -/
def toLower (b : UInt8) : UInt8 :=
  if 'A'.toUInt8 ≤ b && b ≤ 'Z'.toUInt8 then b + 32 else b

/-- Two names of one field. -/
def sameName (a b : Bytes) : Bool := a.map toLower == b.map toLower

/-- The fields that are left when those of a name are dropped. -/
def without (fields : List (Bytes × Bytes)) (name : Bytes) : List (Bytes × Bytes) :=
  fields.filter (fun f => !sameName f.1 name)

/-- A value without the spaces around it. -/
def trimmed (value : Bytes) : Bytes :=
  (value.dropWhile (· == ' '.toUInt8)).rdropWhile (· == ' '.toUInt8)

/-- A field takes the place of those of its name, at the end. -/
def withField (fields : List (Bytes × Bytes)) (name value : Bytes) : List (Bytes × Bytes) :=
  without fields name ++ [(name, value)]

def calmNetwork : Network where
  reply := fun _ => .ok
  parser := fun _ => { isDone := true, statusCode := 200, body := utf8 "ok", fields := [] }
  set := fun fields name value => .ok (withField fields name (trimmed value))
  preparePayload := fun wire =>
    .ok (withField (without wire.fields (utf8 "Transfer-Encoding")) (utf8 "Content-Length")
      (utf8 (toString wire.body.length)))

/-- The exchange goes through to the end of its read, and this is what the parser then holds. -/
def Answered (net : Network) (request : HttpRequest) (past : List NetCall)
    (response : StoredResponse) : Prop :=
  ∃ wire, net.wireRequest request = .ok wire
    ∧ passes (goesWell net) (script net request) past = true
    ∧ response = (net.parser (past ++ script net request)).release

/-- There is no response to the request, for this reason. -/
inductive Unanswered (net : Network) (request : HttpRequest) (past : List NetCall) :
    StoredResponse → Prop where
  /-- The connection is open, but the request cannot be put together. -/
  | refused {what : Bytes} (hwire : net.wireRequest request = .error what)
      (hopened : Opened net request.url past) :
      Unanswered net request past (.failed (exceptionMessage what))
  /-- A call of the exchange fails, after those before it have gone well. -/
  | faulted {before after : List NetCall} {c : NetCall} {response : StoredResponse}
      (hscript : script net request = before ++ c :: after)
      (hpasses : passes (goesWell net) before past = true)
      (hbad : goesWell net (past ++ before ++ [c]) = false)
      (hfault : Faulted net request.url c (past ++ before ++ [c]) response) :
      Unanswered net request past response

/-- **An exchange is answered, or it is told why it is not.** -/
theorem told_of_doRequest (net : Network) (request : HttpRequest) (past : List NetCall) :
    Answered net request past (net.doRequest request past).1
      ∨ Unanswered net request past (net.doRequest request past).1 := by
  rcases performs_faulted (doRequest_performs net request past) with
    ⟨hpasses, heq⟩ | ⟨before, c, after, hscript, hpasses, hbad, hfault⟩
  · rw [heq]
    cases hwire : net.wireRequest request with
    | ok wire =>
        refine .inl ⟨wire, hwire, hpasses, ?_⟩
        rw [scriptEnd, hwire]
    | error what =>
        have hscript : script net request = opening request.url := by
          rw [script, transfer, hwire, List.append_nil]
        rw [hscript] at hpasses
        rw [scriptEnd, hwire]
        exact .inr (.refused hwire (opened_of_passes hpasses))
  · exact .inr (.faulted hscript hpasses hbad hfault)

theorem answered_calls {response : StoredResponse} (h : Answered net request past response) :
    (net.doRequest request past).2 = past ++ script net request := by
  obtain ⟨wire, -, hpasses, -⟩ := h
  rw [doRequest_made, made_of_passes hpasses]

theorem failureText_ne_nil (url : Url) (c : NetCall) (message : Bytes) :
    failureText url c message ≠ [] := by
  cases c with
  | stream => rw [failureText]; decide
  | connect =>
      rw [failureText]
      split
      · exact List.append_ne_nil_of_left_ne_nil (by decide) message
      · exact List.append_ne_nil_of_left_ne_nil (by decide) message
  | _ => exact List.append_ne_nil_of_left_ne_nil (by decide) message

theorem exceptionMessage_ne_nil (what : Bytes) : exceptionMessage what ≠ [] :=
  List.append_ne_nil_of_left_ne_nil (by decide) what

/-- Where there is no response, nothing is returned but the reason. -/
theorem unanswered_failed {response : StoredResponse}
    (h : Unanswered net request past response) :
    ∃ message, message ≠ [] ∧ response = .failed message := by
  cases h with
  | refused hwire hopened => exact ⟨_, exceptionMessage_ne_nil _, rfl⟩
  | faulted hscript hpasses hbad hfault =>
      rcases hfault with ⟨error, message, -, rfl⟩ | ⟨what, -, rfl⟩
      · exact ⟨_, failureText_ne_nil request.url _ message, rfl⟩
      · exact ⟨_, exceptionMessage_ne_nil what, rfl⟩

end CloudGateway.Proof
