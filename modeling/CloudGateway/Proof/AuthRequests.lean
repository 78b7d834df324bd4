import CloudGateway.Proof.AdminData
import CloudGateway.Proof.CurrentToken

/-!
# Where credentials are sent

The service has five requests, and `Request` says what is in each of them and where
that comes from. Three carry the data of the admin. A registration carries the token
that the last login before it has brought. A login of the vehicle carries what reads
have found as key and secret, in the file or in the body of a 201 response to a
registration before it. `Confined` is the invariant, of memory, the reads and the log.

A request is what the service gives to `HttpClient::Post`. What the client makes of
it, redirects included, is the subject of `RedirectFields`.
-/

namespace CloudGateway.Proof

open Services Transport JsonLibrary Reactive

variable [JsonLibrary]

/-! ## The requests -/

/-- The headers of a request without a token. -/
def plainHeaders : Headers := [("Content-Type", "application/json")]

/-- What is read is the file, or the body of a 201 response to a registration of this log. -/
def Genuine (log : List AnsweredPost) (r : CredentialRead) : Prop :=
  r.origin = .created → ∃ e ∈ log, e.1.path = "/api/vehicles" ∧ e.2.statusCode = 201
    ∧ r.text = some e.2.body

/-- A key, or a secret, is what the read that it comes from has found. -/
def Found (find : Except JsonException Json → Except JsonException String)
    (log : List AnsweredPost) (reads : List CredentialRead) (source : Option Nat)
    (value : String) : Prop :=
  ∃ n r, source = some n ∧ reads[n]? = some r ∧ Genuine log r ∧ find r.document = .ok value

/-- The requests that can be sent after those of a log. -/
inductive Request (c : Config) (reads : List CredentialRead) (before : List AnsweredPost)
    (p : Post) : Prop where
  /-- A login, a sign-up or a verification: the data of the admin. -/
  | admin (hheaders : p.headers = plainHeaders) (hbody : adminBody c p.path = some p.body)
  /-- A registration: the token that the last login has brought. -/
  | vehicle (hpath : p.path = "/api/vehicles") (htoken : currentToken before ≠ "")
      (hheaders : p.headers
        = plainHeaders.set "Authorization" ("Bearer " ++ currentToken before))
      (hbody : p.body = vehicleBody c)
  /-- A login of the vehicle: the key and the secret that have been read. -/
  | vehicleLogin {key secret : String} (hpath : p.path = vehicleLoginPath)
      (hheaders : p.headers = plainHeaders)
      (hbody : p.body = .object [("apiKey", .str key), ("apiSecret", .str secret)])
      (hkey : Found readApiKey before reads p.sources.key key)
      (hsecret : Found readApiSecret before reads p.sources.secret secret)

section Reads

variable {find : Except JsonException Json → Except JsonException String}
  {log : List AnsweredPost} {past : List CredentialRead} {source : Option Nat} {value : String}

/-- What has been found stays so when more is sent. -/
theorem Found.sent (h : Found find log past source value) (more : List AnsweredPost) :
    Found find (log ++ more) past source value := by
  obtain ⟨n, r, hsource, hr, hgenuine, hfind⟩ := h
  refine ⟨n, r, hsource, hr, fun hcreated => ?_, hfind⟩
  obtain ⟨e, he, hread⟩ := hgenuine hcreated
  exact ⟨e, List.mem_append_left _ he, hread⟩

/-- And when more is read. -/
theorem Found.read (h : Found find log past source value) (next : List CredentialRead) :
    Found find log (past ++ next) source value := by
  obtain ⟨n, r, hsource, hr, hgenuine, hfind⟩ := h
  refine ⟨n, r, hsource, ?_, hgenuine, hfind⟩
  rw [List.getElem?_append_left (List.getElem?_eq_some_iff.mp hr).1]
  exact hr

/-- A read that gets to the key leaves it in memory. -/
theorem readApiKey_keyAfter {r : CredentialRead} (h : (readApiKey r.document).isOk = true) :
    readApiKey r.document = .ok r.keyAfter := by
  obtain ⟨key, hkey⟩ := ok_of_isOk h
  rw [CredentialRead.keyAfter, hkey]
  rfl

/-- A read that gets to the secret leaves it in memory. -/
theorem readApiSecret_secretAfter {r : CredentialRead} (h : r.assignsSecret = true) :
    readApiSecret r.document = .ok r.secretAfter := by
  obtain ⟨secret, hsecret⟩ := ok_of_isOk (Bool.and_eq_true_iff.mp h).2
  rw [CredentialRead.secretAfter, if_pos h, hsecret]
  rfl

/-- Reads after a request do not matter to it. -/
theorem Request.read {c : Config} {p : Post} (h : Request c past log p)
    (next : List CredentialRead) : Request c (past ++ next) log p := by
  cases h with
  | admin hheaders hbody => exact .admin hheaders hbody
  | vehicle hpath htoken hheaders hbody => exact .vehicle hpath htoken hheaders hbody
  | vehicleLogin hpath hheaders hbody hkey hsecret =>
      exact .vehicleLogin hpath hheaders hbody (hkey.read next) (hsecret.read next)

end Reads

/-! ## The invariant -/

/-- A key or a secret in memory: there is none yet, or it has been found. -/
def Held (find : Except JsonException Json → Except JsonException String)
    (log : List AnsweredPost) (reads : List CredentialRead) (source : Option Nat)
    (value : String) : Prop :=
  (source = none ∧ value = "") ∨ Found find log reads source value

/-- What the service holds, has read and has sent. -/
structure Confined (c : Config) (log : List AnsweredPost) (w : AuthWorld) : Prop where
  config : w.auth.config = c
  headers : w.auth.jsonHeaders = plainHeaders
  token : w.auth.token = currentToken log
  key : Held readApiKey log w.reads w.sources.key w.auth.vechileApiKey
  secret : Held readApiSecret log w.reads w.sources.secret w.auth.vechileApiSecret
  sent : EachSent (Request c w.reads) log

section Confined

variable {find : Except JsonException Json → Except JsonException String} {c : Config}
  {log new : List AnsweredPost} {past : List CredentialRead} {source : Option Nat}
  {value : String} {w w' : AuthWorld}

theorem Held.sent (h : Held find log past source value) (more : List AnsweredPost) :
    Held find (log ++ more) past source value :=
  h.imp id (fun hfound => hfound.sent more)

/-- Only what is empty has no source. -/
theorem Held.found (h : Held find log past source value) (hsource : value = "" → source ≠ none) :
    Found find log past source value :=
  h.resolve_left (fun hnone => hsource hnone.2 hnone.1)

/-- A read that assigns what it finds, or leaves what is there. -/
theorem Held.read {r : CredentialRead} {assigns : Bool} {after : String}
    (h : Held find log past source value) (hgenuine : Genuine log r)
    (hassigned : assigns = true → find r.document = .ok after)
    (hkept : assigns = false → after = value) :
    Held find log (past ++ [r]) (if assigns then some past.length else source) after := by
  cases assigns with
  | true =>
      rw [if_pos rfl]
      exact .inr ⟨past.length, r, rfl, List.getElem?_concat_length, hgenuine, hassigned rfl⟩
  | false =>
      rw [hkept rfl]
      exact h.imp id (fun hfound => hfound.read [r])

/-- Nothing has been sent or read, and what requests are made of is as before. -/
theorem Confined.silent (h : Confined c log w) (hconfig : w'.auth.config = w.auth.config)
    (hheaders : w'.auth.jsonHeaders = w.auth.jsonHeaders) (htoken : w'.auth.token = w.auth.token)
    (hkey : w'.auth.vechileApiKey = w.auth.vechileApiKey)
    (hsecret : w'.auth.vechileApiSecret = w.auth.vechileApiSecret)
    (hsources : w'.sources = w.sources) (hreads : w'.reads = w.reads) : Confined c log w' where
  config := hconfig.trans h.config
  headers := hheaders.trans h.headers
  token := htoken.trans h.token
  key := by rw [hreads, hsources, hkey]; exact h.key
  secret := by rw [hreads, hsources, hsecret]; exact h.secret
  sent := by rw [hreads]; exact h.sent

/-- A request that is no login has been sent. -/
theorem Confined.exchanged {p : Post} (h : Confined c log w)
    (hp : Request c w.reads log p) (hlogin : p.path ≠ "/api/auth/login") (resp : HttpResponse) :
    Confined c (log ++ [(p, resp)]) (w.exchanged p) where
  config := h.config
  headers := h.headers
  token := by
    rw [currentToken_snoc, if_neg hlogin]
    exact h.token
  key := h.key.sent _
  secret := h.secret.sent _
  sent := eachSent_snoc resp h.sent hp

theorem Confined.afterRead (h : Confined c log w) {origin : Origin} {text : Option Bytes}
    (hgenuine : Genuine log (w.reading origin text)) :
    Confined c log (w.afterRead origin text) where
  config := h.config
  headers := h.headers
  token := h.token
  key := h.key.read hgenuine readApiKey_keyAfter (fun hfail => (unchanged_of_key hfail).1)
  secret := by
    refine h.secret.read hgenuine readApiSecret_secretAfter (fun hfail => ?_)
    show (w.reading origin text).secretAfter = _
    rw [CredentialRead.secretAfter, hfail, if_neg Bool.false_ne_true]
    rfl
  sent := h.sent.mono (fun _ _ hp => hp.read _)

theorem Confined.vehicle (h : Confined c log w) (hready : w.Ready) :
    Confined c (log ++ [(w.vehiclePost, w.reply)]) w.afterVehicle := by
  have hheaders : w.bearer = plainHeaders.set "Authorization" ("Bearer " ++ currentToken log) := by
    rw [AuthWorld.bearer, h.headers, h.token]
  have hrequest : Request c w.reads log w.vehiclePost :=
    .vehicle rfl (h.token ▸ hready.2) hheaders (by rw [← h.config]; rfl)
  have hheld : Confined c log { w with auth := { w.auth with authHeaders := w.bearer } } :=
    h.silent rfl rfl rfl rfl rfl rfl rfl
  exact hheld.exchanged hrequest (by simp [AuthWorld.vehiclePost]) _

theorem Confined.setRegistered (h : Confined c log w) : Confined c log w.setRegistered :=
  h.silent rfl rfl rfl rfl rfl rfl rfl

end Confined

/-! ## What is achieved is final -/

/-- Once the vehicle is registered, or logged in, it stays so, and is not asked for again. -/
structure Final (w : AuthWorld) (log : List AnsweredPost) (w' : AuthWorld) : Prop where
  registered : w.auth.vehicleRegistered = true →
    w'.auth.vehicleRegistered = true ∧ ∀ e ∈ log, e.1.path ≠ "/api/vehicles"
  authenticated : w.auth.vechileAuthenticated = true →
    w'.auth.vechileAuthenticated = true ∧ ∀ e ∈ log, e.1.path ≠ vehicleLoginPath

section Final

variable {w w₁ w' : AuthWorld} {log rest : List AnsweredPost}

omit [JsonLibrary] in
theorem Final.append (h : Final w log w₁) (hrest : Final w₁ rest w') :
    Final w (log ++ rest) w' := by
  refine ⟨fun hr => ?_, fun ha => ?_⟩
  · obtain ⟨hr₁, hlog⟩ := h.registered hr
    obtain ⟨hr', hmore⟩ := hrest.registered hr₁
    exact ⟨hr', List.forall_mem_append.mpr ⟨hlog, hmore⟩⟩
  · obtain ⟨ha₁, hlog⟩ := h.authenticated ha
    obtain ⟨ha', hmore⟩ := hrest.authenticated ha₁
    exact ⟨ha', List.forall_mem_append.mpr ⟨hlog, hmore⟩⟩

end Final

end CloudGateway.Proof
