import CloudGateway.Proof.AuthEffects

/-!
# What `AuthService` sends, and what it gets

A call takes the replies of the backend one after another, one for each request.
`CreateRun` is a call of `create_vehicle` as the requests it makes, each with its
reply: one constructor for each way it goes on, so that how often it can go on is
read off the derivation.
-/

namespace CloudGateway.Services

open Transport JsonLibrary

/-- A request and its reply. -/
abbrev AnsweredPost := Post × HttpResponse

/-- A reply after which `create_vehicle` retries because of connectivity. -/
def NetworkFailure (resp : HttpResponse) : Prop :=
  resp.statusCode ≠ 201 ∧ resp.statusCode ≠ 409 ∧ resp.statusCode ≠ 401 ∧ resp.success = false

instance (resp : HttpResponse) : Decidable (NetworkFailure resp) :=
  inferInstanceAs (Decidable (_ ∧ _ ∧ _ ∧ _))

/-- The token a reply to a login brings, if `login` succeeds. -/
def loginToken [JsonLibrary] (resp : HttpResponse) : Option String :=
  if !resp.success || resp.body.isEmpty then none else (readLogin resp.body).toOption.join

/-- The requests with the replies that are left for them. -/
def answered : List HttpResponse → List Post → List AnsweredPost
  | _, [] => []
  | [], p :: posts => (p, .failed) :: answered [] posts
  | resp :: replies, p :: posts => (p, resp) :: answered replies posts

namespace AuthWorld

/-- The next reply. -/
def reply (w : AuthWorld) : HttpResponse := w.replies.headD .failed

/-- A request has been sent and answered. -/
def exchanged (w : AuthWorld) (p : Post) : AuthWorld :=
  { w with posts := w.posts ++ [p], replies := w.replies.tail }

/-- The headers that carry the token. -/
def bearer (w : AuthWorld) : Headers :=
  w.auth.jsonHeaders.set "Authorization" ("Bearer " ++ w.auth.token)

/-- The request of `login`. -/
def loginPost (w : AuthWorld) : Post :=
  { path := "/api/auth/login", headers := w.auth.jsonHeaders
    body := .object [
      ("email", .str w.auth.config.adminEmail),
      ("password", .str w.auth.config.adminPassword)]
    sources := w.sources }

/-- The request of `signup`. -/
def signupPost (w : AuthWorld) : Post :=
  { path := "/api/auth/admin/signup", headers := w.auth.jsonHeaders
    body := .object [
      ("email", .str w.auth.config.adminEmail),
      ("password", .str w.auth.config.adminPassword),
      ("firstName", .str w.auth.config.adminFirstName),
      ("lastName", .str w.auth.config.adminLastName),
      ("phoneNumber", .str w.auth.config.adminPhone)]
    sources := w.sources }

/-- The request of `verify_code`. -/
def verifyPost (w : AuthWorld) : Post :=
  { path := "/api/auth/verify-code", headers := w.auth.jsonHeaders
    body := .object [
      ("email", .str w.auth.config.adminEmail), ("code", .str w.auth.config.verifyCode)]
    sources := w.sources }

/-- A login, with no token before it. -/
def afterLogin [JsonLibrary] (w : AuthWorld) : AuthWorld :=
  (w.exchanged w.loginPost).setToken ((loginToken w.reply).getD "")

/-- The request of `create_vehicle`. -/
def vehiclePost (w : AuthWorld) : Post :=
  { path := "/api/vehicles", headers := w.bearer
    body := .object [
      ("vinNumber", .str w.auth.config.vinNumber), ("plateNo", .str w.auth.config.plateNo),
      ("color", .str w.auth.config.color), ("carCompany", .str w.auth.config.carCompany),
      ("model", .str w.auth.config.model), ("seats", .int w.auth.config.seatNo.toInt64)]
    sources := w.sources }

/-- A request of `create_vehicle` has been sent and answered. -/
def afterVehicle (w : AuthWorld) : AuthWorld :=
  { w with auth := { w.auth with authHeaders := w.bearer } }.exchanged w.vehiclePost

/-- `create_vehicle` has something to send. -/
def Ready (w : AuthWorld) : Prop := w.auth.vehicleRegistered = false ∧ w.auth.token ≠ ""

/-- What the admin sends depends on these; they and what has been sent are as before. -/
structure Settled (w w' : AuthWorld) : Prop where
  token : w'.auth.token = w.auth.token
  jsonHeaders : w'.auth.jsonHeaders = w.auth.jsonHeaders
  posts : w'.posts = w.posts
  replies : w'.replies = w.replies

end AuthWorld

/-- What is sent and got between two states: the replies are taken in order. -/
structure Exchanges (w : AuthWorld) (log : List AnsweredPost) (w' : AuthWorld) : Prop where
  posts : w'.posts = w.posts ++ log.map Prod.fst
  answers : log = answered w.replies (log.map Prod.fst)
  replies : w'.replies = w.replies.drop log.length

/-- A call of `create_vehicle`, with what it sends and gets. -/
inductive CreateRun [JsonLibrary] :
    Bool → Bool → AuthWorld → List AnsweredPost → AuthWorld → Prop where
  /-- The vehicle is registered, or there is no token. -/
  | skipped {l n : Bool} {w : AuthWorld}
      (h : w.auth.vehicleRegistered = true ∨ w.auth.token = "") : CreateRun l n w [] w
  /-- The reply is one that `create_vehicle` does not go on after. -/
  | settled {l n : Bool} {w w' : AuthWorld} (hready : w.Ready)
      (hexpired : w.reply.statusCode = 401 → l = true) (hfailed : NetworkFailure w.reply → n = true)
      (h : w.afterVehicle.Settled w') : CreateRun l n w [(w.vehiclePost, w.reply)] w'
  /-- The token has expired, and the login fails. -/
  | refused {n : Bool} {w : AuthWorld} (hready : w.Ready) (hexpired : w.reply.statusCode = 401)
      (hlogin : loginToken w.afterVehicle.reply = none) :
      CreateRun false n w
        [(w.vehiclePost, w.reply), (w.afterVehicle.loginPost, w.afterVehicle.reply)]
        w.afterVehicle.afterLogin
  /-- The token has expired, and there is a new one. -/
  | relogged {n : Bool} {w w' : AuthWorld} {token : String} {log : List AnsweredPost}
      (hready : w.Ready) (hexpired : w.reply.statusCode = 401)
      (hlogin : loginToken w.afterVehicle.reply = some token)
      (h : CreateRun true false w.afterVehicle.afterLogin log w') :
      CreateRun false n w
        ((w.vehiclePost, w.reply) :: (w.afterVehicle.loginPost, w.afterVehicle.reply) :: log) w'
  /-- There is no connection. -/
  | retried {l : Bool} {w w' : AuthWorld} {log : List AnsweredPost}
      (hready : w.Ready) (hfailed : NetworkFailure w.reply)
      (h : CreateRun l true w.afterVehicle log w') :
      CreateRun l false w ((w.vehiclePost, w.reply) :: log) w'

end CloudGateway.Services

namespace CloudGateway.Proof

open Services Transport JsonLibrary

variable [JsonLibrary]

/-! ## Requests -/

omit [JsonLibrary] in
/-- Every request takes the next reply. -/
theorem post_eq (w : AuthWorld) (path : String) (headers : Headers) (body : Json) :
    w.post path headers body = (w.reply, w.exchanged ⟨path, headers, body, w.sources⟩) := by
  obtain ⟨auth, file, replies, saves, posts, reads, sources, creations, session⟩ := w
  cases replies with
  | nil => rfl
  | cons resp rest => rfl

/-- `login` stores the token that the reply brings, if any. -/
theorem login_stores (w : AuthWorld) :
    w.login = ((loginToken w.reply).isSome,
      (w.exchanged w.loginPost).setToken ((loginToken w.reply).getD w.auth.token)) := by
  have hsent : w.post "/api/auth/login" w.auth.jsonHeaders (.object [
      ("email", .str w.auth.config.adminEmail), ("password", .str w.auth.config.adminPassword)])
      = (w.reply, w.exchanged w.loginPost) := post_eq w _ _ _
  simp only [AuthWorld.login, hsent, loginToken]
  split
  · rfl
  · cases readLogin w.reply.body with
    | error e => rfl
    | ok found =>
        cases found with
        | none => rfl
        | some token => rfl

/-- `login`, where there is no token. -/
theorem login_eq {w : AuthWorld} (h : w.auth.token = "") :
    w.login = ((loginToken w.reply).isSome, w.afterLogin) := by
  rw [login_stores, h]
  rfl

/-- `login` after the token has been cleared. -/
theorem relogin_eq (w : AuthWorld) :
    (w.setToken "").login = ((loginToken w.reply).isSome, w.afterLogin) :=
  login_eq (w := w.setToken "") rfl

omit [JsonLibrary] in
theorem answered_cons (replies : List HttpResponse) (p : Post) (posts : List Post) :
    answered replies (p :: posts)
      = (p, replies.headD .failed) :: answered replies.tail posts := by
  cases replies <;> rfl

omit [JsonLibrary] in
/-- One exchange, and then others. -/
theorem exchanges_cons {w w₁ w' : AuthWorld} {p : Post} {log : List AnsweredPost}
    (hposts : w₁.posts = w.posts ++ [p]) (hreplies : w₁.replies = w.replies.tail)
    (h : Exchanges w₁ log w') : Exchanges w ((p, w.reply) :: log) w' where
  posts := by rw [h.posts, hposts, List.map_cons, List.append_assoc]; rfl
  answers := by
    rw [List.map_cons, answered_cons, ← hreplies, ← h.answers]
    rfl
  replies := by rw [h.replies, hreplies, List.length_cons, List.drop_tail]

omit [JsonLibrary] in
theorem exchanges_settled {w w' : AuthWorld} (h : w.Settled w') : Exchanges w [] w' :=
  ⟨by rw [h.posts]; exact (List.append_nil _).symm, rfl, h.replies⟩

omit [JsonLibrary] in
theorem answered_append (replies : List HttpResponse) (posts more : List Post) :
    answered replies (posts ++ more)
      = answered replies posts ++ answered (replies.drop posts.length) more := by
  induction posts generalizing replies with
  | nil => rfl
  | cons p posts ih =>
      rw [List.cons_append, answered_cons, answered_cons, ih, List.length_cons, List.drop_tail]
      rfl

omit [JsonLibrary] in
theorem exchanges_append {w w₁ w' : AuthWorld} {log rest : List AnsweredPost}
    (h : Exchanges w log w₁) (hrest : Exchanges w₁ rest w') : Exchanges w (log ++ rest) w' where
  posts := by rw [hrest.posts, h.posts, List.map_append, List.append_assoc]
  answers := by
    have hanswers := hrest.answers
    rw [h.replies] at hanswers
    rw [List.map_append, answered_append, ← h.answers, List.length_map, ← hanswers]
  replies := by rw [hrest.replies, h.replies, List.drop_drop, List.length_append]

omit [JsonLibrary] in
theorem signup_eq (w : AuthWorld) : w.signup
    = (w.reply.statusCode == 201 || w.reply.statusCode == 409, w.exchanged w.signupPost) := by
  simp only [AuthWorld.signup, post_eq]
  rfl

omit [JsonLibrary] in
theorem verifyCode_eq (w : AuthWorld) :
    w.verifyCode = (w.reply.statusCode == 200, w.exchanged w.verifyPost) := by
  simp only [AuthWorld.verifyCode, post_eq]
  rfl

/-- The request of `vechile_login`. -/
def vehicleLoginPost (w : AuthWorld) : Post :=
  { path := vehicleLoginPath, headers := w.auth.jsonHeaders
    body := .object [
      ("apiKey", .str w.auth.vechileApiKey), ("apiSecret", .str w.auth.vechileApiSecret)]
    sources := w.sources }

/-- The vehicle is logged in with a token, which is saved. -/
def afterVehicleLogin (w : AuthWorld) (token : String) : AuthWorld :=
  let w := ((w.exchanged (vehicleLoginPost w)).setAccessToken token).save
  { w with auth := { w.auth with vechileAuthenticated := true }, session := some token }

/-- The `try` block of `vechile_login` sends one request, and takes the token its reply brings. -/
theorem postVehicleLogin_eq (w : AuthWorld) :
    w.postVehicleLogin = ((loginToken w.reply).isSome,
      ((loginToken w.reply).map (afterVehicleLogin w)).getD
        (w.exchanged (vehicleLoginPost w))) := by
  unfold AuthWorld.postVehicleLogin
  simp only [post_eq, loginToken]
  split
  · rfl
  · cases readLogin w.reply.body with
    | error e => rfl
    | ok found =>
        cases found with
        | none => rfl
        | some token => rfl

/-! ## Branches that send nothing -/

omit [JsonLibrary] in
theorem settled_refl (w : AuthWorld) : w.Settled w := ⟨rfl, rfl, rfl, rfl⟩

theorem load_settled (w : AuthWorld) : w.Settled w.loadVehicleCredentials.2 := by
  rw [load_spec]
  exact ⟨rfl, rfl, rfl, rfl⟩

theorem save_settled (w : AuthWorld) : w.Settled w.save := by
  obtain ⟨file, saves, h⟩ := save_spec w
  rw [h]
  exact ⟨rfl, rfl, rfl, rfl⟩

theorem capture_settled (w : AuthWorld) (body : Bytes) :
    w.Settled (w.captureCredentials body).2 := by
  rw [capture_spec]
  split
  · obtain ⟨token, json, posts, replies⟩ := save_settled (w.afterRead .created (some body))
    exact ⟨token, json, posts, replies⟩
  · exact ⟨rfl, rfl, rfl, rfl⟩

/-! ## Calls -/

/-- One level of `create_vehicle`, where there is something to send. -/
theorem attempt_ready (again : Bool → Bool → AuthWorld → Bool × AuthWorld) (l n : Bool)
    {w : AuthWorld} (hready : w.Ready) :
    w.attempt again l n =
      if w.reply.statusCode = 201 then
        w.afterVehicle.setRegistered.captureCredentials w.reply.body
      else if w.reply.statusCode = 409 then
        match w.afterVehicle.loadVehicleCredentials with
        | (false, w') => (false, w')
        | (true, w') => (true, w'.setRegistered)
      else if w.reply.statusCode = 401 then
        if l then (false, w.afterVehicle)
        else
          match (w.afterVehicle.setToken "").login with
          | (false, w') => (false, w')
          | (true, w') => again true false w'
      else if !w.reply.success then
        if n then (false, w.afterVehicle) else again l true w.afterVehicle
      else (false, w.afterVehicle) := by
  have hnew : ¬ w.auth.vehicleRegistered = true := by simp [hready.1]
  have hheaders : w.ensureAuthHeaders
      = { w with auth := { w.auth with authHeaders := w.bearer } } := if_neg hready.2
  rw [AuthWorld.attempt, if_neg hnew, if_neg hready.2, hheaders]
  simp only [post_eq]
  rfl

theorem attempt_run {again : Bool → Bool → AuthWorld → Bool × AuthWorld} {l n : Bool}
    (hlogin : l = false → ∀ w, ∃ log, CreateRun true false w log (again true false w).2)
    (hnetwork : n = false → ∀ w, ∃ log, CreateRun l true w log (again l true w).2)
    (w : AuthWorld) : ∃ log, CreateRun l n w log (w.attempt again l n).2 := by
  by_cases hreg : w.auth.vehicleRegistered = true
  · refine ⟨[], ?_⟩
    rw [AuthWorld.attempt, if_pos hreg]
    exact .skipped (.inl hreg)
  by_cases htoken : w.auth.token = ""
  · refine ⟨[], ?_⟩
    rw [AuthWorld.attempt, if_neg hreg, if_pos htoken]
    exact .skipped (.inr htoken)
  have hready : w.Ready := ⟨Bool.not_eq_true _ ▸ hreg, htoken⟩
  rw [attempt_ready again l n hready]
  by_cases h201 : w.reply.statusCode = 201
  · rw [if_pos h201]
    obtain ⟨token, json, posts, replies⟩ :=
      capture_settled w.afterVehicle.setRegistered w.reply.body
    refine ⟨_, .settled hready (fun h => ?_) (fun h => absurd h201 h.1)
      ⟨token, json, posts, replies⟩⟩
    exact absurd (h201.symm.trans h) (by decide)
  rw [if_neg h201]
  by_cases h409 : w.reply.statusCode = 409
  · rw [if_pos h409]
    have hload := load_settled w.afterVehicle
    have hend : w.reply.statusCode = 401 → l = true := fun h =>
      absurd (h409.symm.trans h) (by decide)
    rcases hloaded : w.afterVehicle.loadVehicleCredentials with ⟨ok, w'⟩
    rw [hloaded] at hload
    cases ok with
    | false => exact ⟨_, .settled hready hend (fun h => absurd h409 h.2.1) hload⟩
    | true =>
        obtain ⟨token, json, posts, replies⟩ := hload
        exact ⟨_, .settled hready hend (fun h => absurd h409 h.2.1) ⟨token, json, posts, replies⟩⟩
  rw [if_neg h409]
  by_cases h401 : w.reply.statusCode = 401
  · rw [if_pos h401]
    have hend : NetworkFailure w.reply → n = true := fun h => absurd h401 h.2.2.1
    cases l with
    | true => exact ⟨_, .settled hready (fun _ => rfl) hend (settled_refl _)⟩
    | false =>
        rw [if_neg Bool.false_ne_true, relogin_eq]
        cases hreply : loginToken w.afterVehicle.reply with
        | none => exact ⟨_, .refused hready h401 hreply⟩
        | some token =>
            obtain ⟨log, hlog⟩ := hlogin rfl w.afterVehicle.afterLogin
            exact ⟨_, .relogged hready h401 hreply hlog⟩
  rw [if_neg h401]
  have hend : w.reply.statusCode = 401 → l = true := fun h => absurd h h401
  cases hsuccess : w.reply.success with
  | true =>
      have hfailed : NetworkFailure w.reply → n = true := fun h =>
        absurd (hsuccess.symm.trans h.2.2.2) (by decide)
      exact ⟨_, .settled hready hend hfailed (settled_refl _)⟩
  | false =>
      rw [if_pos (by rfl)]
      cases n with
      | true => exact ⟨_, .settled hready hend (fun _ => rfl) (settled_refl _)⟩
      | false =>
          obtain ⟨log, hlog⟩ := hnetwork rfl w.afterVehicle
          exact ⟨_, .retried hready ⟨h201, h409, h401, hsuccess⟩ hlog⟩

/--
**A call of `create_vehicle`, as what it sends and gets.** It calls itself with
fewer retries left, so the levels are gone through from the last one.
-/
theorem createVehicle_run (l n : Bool) (w : AuthWorld) :
    ∃ log, CreateRun l n w log (w.createVehicle l n).2 := by
  have hno : ∀ {P : Prop}, true = false → P := fun h => absurd h (by decide)
  have hnone : ∀ w : AuthWorld, ∃ log, CreateRun true true w log (w.createVehicle true true).2 := by
    intro w
    rw [createVehicle_eq]
    exact attempt_run (l := true) (n := true) hno hno w
  have hnetwork : ∀ w : AuthWorld,
      ∃ log, CreateRun true false w log (w.createVehicle true false).2 := by
    intro w
    rw [createVehicle_eq]
    exact attempt_run (l := true) (n := false) hno (fun _ => hnone) w
  have hlogin : ∀ w : AuthWorld,
      ∃ log, CreateRun false true w log (w.createVehicle false true).2 := by
    intro w
    rw [createVehicle_eq]
    exact attempt_run (l := false) (n := true) (fun _ => hnetwork) hno w
  cases l with
  | true => cases n with
    | true => exact hnone w
    | false => exact hnetwork w
  | false => cases n with
    | true => exact hlogin w
    | false =>
        rw [createVehicle_eq]
        exact attempt_run (l := false) (n := false) (fun _ => hnetwork) (fun _ => hlogin) w

/-- Everything that is sent is in it, with its reply. -/
theorem createRun_exchanges {l n : Bool} {w w' : AuthWorld} {log : List AnsweredPost}
    (h : CreateRun l n w log w') : Exchanges w log w' := by
  induction h with
  | skipped _ => exact exchanges_settled (settled_refl _)
  | settled _ _ _ h => exact exchanges_cons rfl rfl (exchanges_settled h)
  | refused _ _ _ =>
      exact exchanges_cons rfl rfl (exchanges_cons rfl rfl (exchanges_settled (settled_refl _)))
  | relogged _ _ _ _ ih => exact exchanges_cons rfl rfl (exchanges_cons rfl rfl ih)
  | retried _ _ _ ih => exact exchanges_cons rfl rfl ih

end CloudGateway.Proof
