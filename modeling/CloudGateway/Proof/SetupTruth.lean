import CloudGateway.Proof.Exchanges
import CloudGateway.Proof.JsonAccess
import CloudGateway.Services.AuthSession

/-!
# What `setup` says about the session

Nothing that a request does can get out of `setup`, and it sends its four requests
in order at most. What it returns is whether a login has succeeded, which is
whether there is a token, unless the token that a login has brought is empty:
`login` does not look at it.
-/

namespace CloudGateway.Services

open Transport JsonLibrary

/-- The token that `login` stores, if it succeeds. -/
def Answer.token [JsonLibrary] : Answer → Option String
  | reply resp => loginToken resp
  | notDumped => none
  | thrown => none

/-- `signup` succeeds. -/
def Answer.admits : Answer → Bool
  | reply resp => resp.statusCode == 201 || resp.statusCode == 409
  | notDumped => false
  | thrown => false

/-- `verify_code` succeeds. -/
def Answer.verifies : Answer → Bool
  | reply resp => resp.statusCode == 200
  | notDumped => false
  | thrown => false

namespace AuthSession

/-- What comes of request number `i`. -/
def nth (s : AuthSession) (i : Nat) : Answer := s.answers.getD i (.reply .failed)

/-- A request has been made, and this is the new token; nothing is sent of what is not dumped. -/
def after (s : AuthSession) (p : Post) (token : String) : AuthSession :=
  { s with
    auth := { s.auth with token := token }
    answers := s.answers.tail
    posts := if s.nth 0 = .notDumped then s.posts else s.posts ++ [p] }

/-- The request of `login`. -/
def loginPost (s : AuthSession) : Post :=
  { path := "/api/auth/login", headers := s.auth.jsonHeaders
    body := .object [
      ("email", .str s.auth.config.adminEmail),
      ("password", .str s.auth.config.adminPassword)]
    sources := s.sources }

/-- The request of `signup`. -/
def signupPost (s : AuthSession) : Post :=
  { path := "/api/auth/admin/signup", headers := s.auth.jsonHeaders
    body := .object [
      ("email", .str s.auth.config.adminEmail),
      ("password", .str s.auth.config.adminPassword),
      ("firstName", .str s.auth.config.adminFirstName),
      ("lastName", .str s.auth.config.adminLastName),
      ("phoneNumber", .str s.auth.config.adminPhone)]
    sources := s.sources }

/-- The request of `verify_code`. -/
def verifyPost (s : AuthSession) : Post :=
  { path := "/api/auth/verify-code", headers := s.auth.jsonHeaders
    body := .object [
      ("email", .str s.auth.config.adminEmail), ("code", .str s.auth.config.verifyCode)]
    sources := s.sources }

/-- The service with what it needs of a world in which nothing but the parsing throws. -/
def ofWorld (w : AuthWorld) : AuthSession :=
  { auth := w.auth, answers := w.replies.map .reply, posts := w.posts, sources := w.sources }

end AuthSession

end CloudGateway.Services

namespace CloudGateway.Proof

open Services Transport JsonLibrary

/-! ## Throwing and catching -/

section Throwing

variable {α β : Type} (s : AuthSession)

theorem pure_run (a : α) : (pure a : Throwing α) s = (.ok a, s) := rfl

theorem get_run : (get : Throwing AuthSession) s = (.ok s, s) := rfl

theorem bind_run (x : Throwing α) (f : α → Throwing β) :
    (x >>= f) s =
      match x s with
      | (.error e, s') => (.error e, s')
      | (.ok a, s') => f a s' := by
  show (match x s with | (r, s') => ExceptT.bindCont f r s') = _
  rcases x s with ⟨r, s'⟩
  cases r <;> rfl

/-- A `try` block whose handler returns `false` lets nothing out. -/
theorem tried_run (body : Throwing Bool) :
    (tryCatch body (fun _ => pure false) : Throwing Bool) s =
      match body s with
      | (.error _, s') => (.ok false, s')
      | (.ok b, s') => (.ok b, s') := by
  simp only [tryCatch, tryCatchThe, MonadExceptOf.tryCatch, ExceptT.tryCatch, ExceptT.mk, bind,
    StateT.bind]
  rcases body s with ⟨r, s'⟩
  cases r <;> rfl

theorem ite_run (c : Prop) [Decidable c] (x y : Throwing α) :
    (if c then x else y : Throwing α) s = if c then x s else y s := by
  split <;> rfl

end Throwing

/-! ## The requests -/

theorem post_run (path : String) (headers : Headers) (body : Json) (s : AuthSession) :
    AuthSession.post path headers body s =
      match s.nth 0 with
      | .reply resp => (.ok resp, s.after ⟨path, headers, body, s.sources⟩ s.auth.token)
      | .notDumped =>
          (.error (.json .typeError), s.after ⟨path, headers, body, s.sources⟩ s.auth.token)
      | .thrown => (.error .other, s.after ⟨path, headers, body, s.sources⟩ s.auth.token) := by
  obtain ⟨auth, answers, posts, sources⟩ := s
  cases answers with
  | nil => rfl
  | cons a rest => cases a <;> rfl

theorem signup_run (s : AuthSession) :
    AuthSession.signup s = (.ok (s.nth 0).admits, s.after s.signupPost s.auth.token) := by
  rw [AuthSession.signup, tried_run, bind_run, get_run]
  simp only
  rw [bind_run, post_run]
  cases s.nth 0 with
  | notDumped => rfl
  | thrown => rfl
  | reply resp =>
      simp only [ite_run, Answer.admits]
      by_cases h201 : resp.statusCode = 201
      · rw [if_pos h201, h201]
        rfl
      · by_cases h409 : resp.statusCode = 409
        · rw [if_neg h201, if_pos h409, h409]
          rfl
        · rw [if_neg h201, if_neg h409, beq_eq_false_iff_ne.mpr h201, beq_eq_false_iff_ne.mpr h409]
          rfl

theorem verifyCode_run (s : AuthSession) :
    AuthSession.verifyCode s = (.ok (s.nth 0).verifies, s.after s.verifyPost s.auth.token) := by
  rw [AuthSession.verifyCode, tried_run, bind_run, get_run]
  simp only
  rw [bind_run, post_run]
  cases s.nth 0 with
  | notDumped => rfl
  | thrown => rfl
  | reply resp =>
      simp only [ite_run, Answer.verifies]
      by_cases h200 : resp.statusCode = 200
      · rw [if_pos h200, h200]
        rfl
      · rw [if_neg h200, beq_eq_false_iff_ne.mpr h200]
        rfl

variable [JsonLibrary]

theorem login_run (s : AuthSession) :
    AuthSession.login s
      = (.ok (s.nth 0).token.isSome, s.after s.loginPost ((s.nth 0).token.getD s.auth.token)) := by
  rw [AuthSession.login, tried_run, bind_run, get_run]
  simp only
  rw [bind_run, post_run]
  cases hanswer : s.nth 0 with
  | notDumped => rfl
  | thrown => rfl
  | reply resp =>
      simp only [ite_run, Answer.token, loginToken]
      by_cases hfailed : (!resp.success || resp.body.isEmpty) = true
      · rw [if_pos hfailed, if_pos hfailed]
        rfl
      · rw [if_neg hfailed, if_neg hfailed, bind_run]
        cases readLogin resp.body with
        | error e => rfl
        | ok found =>
            cases found with
            | none => rfl
            | some token => rfl

/-! ## `setup` -/

/-- Where the requests of `setup` go. -/
def setupPaths : List String :=
  ["/api/auth/login", "/api/auth/admin/signup", "/api/auth/verify-code", "/api/auth/login"]

/-- The token that is stored: by the first login, or by the second one if it gets to that. -/
def brought (s : AuthSession) : Option String :=
  (s.nth 0).token.or
    (if (s.nth 1).admits && (s.nth 2).verifies then (s.nth 3).token else none)

/-- `setup` returns, and says whether there is a token now. -/
structure TellsTheTruth (s : AuthSession) : Prop where
  /-- No exception gets out. -/
  returns : ∃ b, (AuthSession.setup s).1 = .ok b
  /-- The requests are made in order, and no others. -/
  sends : ∃ sent, (AuthSession.setup s).2.posts = s.posts ++ sent
    ∧ (sent.map Post.path).Sublist setupPaths
  /-- With a token there are none. -/
  rests : s.auth.token ≠ "" → (AuthSession.setup s).2.posts = s.posts
  truthful : (AuthSession.setup s).1 = .ok true ↔ (AuthSession.setup s).2.auth.token ≠ ""

/-- There is no token, and the one that is stored is empty. -/
def EmptyToken (s : AuthSession) : Prop := s.auth.token = "" ∧ brought s = some ""

/-- What has been sent, and where it went. -/
def Sends (s s' : AuthSession) (paths : List String) : Prop :=
  ∃ sent, s'.posts = s.posts ++ sent ∧ (sent.map Post.path).Sublist paths

omit [JsonLibrary] in
theorem sends_after (s : AuthSession) (path : String) {p : Post} (hpath : p.path = path)
    (token : String) : Sends s (s.after p token) [path] := by
  by_cases h : s.nth 0 = .notDumped
  · refine ⟨[], ?_, List.nil_sublist _⟩
    rw [List.append_nil]
    exact if_pos h
  · exact ⟨[p], if_neg h, hpath ▸ List.Sublist.refl _⟩

omit [JsonLibrary] in
theorem sends_append {s s₁ s' : AuthSession} {paths more : List String} (h : Sends s s₁ paths)
    (hmore : Sends s₁ s' more) : Sends s s' (paths ++ more) := by
  obtain ⟨sent, hposts, hpaths⟩ := h
  obtain ⟨sent', hposts', hpaths'⟩ := hmore
  refine ⟨sent ++ sent', by rw [hposts', hposts, List.append_assoc], ?_⟩
  rw [List.map_append]
  exact hpaths.append hpaths'

omit [JsonLibrary] in
/-- Each request takes one answer. -/
theorem nth_after (s : AuthSession) (p : Post) (token : String) (i : Nat) :
    (s.after p token).nth i = s.nth (i + 1) := by
  rw [AuthSession.nth, AuthSession.nth]
  show s.answers.tail.getD i _ = _
  cases s.answers <;> rfl

omit [JsonLibrary] in
/-- Fewer requests are some of the four. -/
theorem sends_some {s s' : AuthSession} {paths : List String} (h : Sends s s' paths)
    (hpaths : paths.Sublist setupPaths) : Sends s s' setupPaths := by
  obtain ⟨sent, hposts, hsent⟩ := h
  exact ⟨sent, hposts, hsent.trans hpaths⟩

/-- Without a token `setup` asks for one, and ends with what is brought. -/
theorem setup_asks {s : AuthSession} (htoken : s.auth.token = "") :
    ∃ s', AuthSession.setup s = (.ok (brought s).isSome, s') ∧ s'.auth.token = (brought s).getD ""
      ∧ Sends s s' setupPaths := by
  have hlogin := login_run s
  have hfirst := sends_after s "/api/auth/login" (p := s.loginPost) rfl
    ((s.nth 0).token.getD s.auth.token)
  rw [AuthSession.setup, bind_run, get_run]
  simp only [ite_run, bind_run, hlogin, pure_run]
  rw [if_neg (not_not.mpr htoken), brought]
  cases hbrought : (s.nth 0).token with
  | some token =>
      rw [hbrought] at hfirst
      exact ⟨_, rfl, rfl, sends_some hfirst (by decide)⟩
  | none =>
      rw [hbrought, Option.getD_none] at hfirst
      rw [Option.getD_none, Option.none_or, if_neg (by decide)]
      generalize hs₁ : s.after s.loginPost s.auth.token = s₁ at hfirst ⊢
      have htoken₁ : s₁.auth.token = "" := hs₁ ▸ htoken
      have hnth₁ : ∀ i, s₁.nth i = s.nth (i + 1) := hs₁ ▸ nth_after s s.loginPost s.auth.token
      have hsecond := sends_append hfirst
        (sends_after s₁ "/api/auth/admin/signup" (p := s₁.signupPost) rfl s₁.auth.token)
      rw [signup_run, hnth₁ 0]
      cases (s.nth 1).admits with
      | false => exact ⟨_, rfl, htoken₁, sends_some hsecond (by decide)⟩
      | true =>
          simp only [Bool.not_true, Bool.false_eq_true, if_false, Bool.true_and]
          generalize hs₂ : s₁.after s₁.signupPost s₁.auth.token = s₂ at hsecond ⊢
          have htoken₂ : s₂.auth.token = "" := hs₂ ▸ htoken₁
          have hnth₂ : ∀ i, s₂.nth i = s.nth (i + 2) := fun i =>
            (hs₂ ▸ nth_after s₁ s₁.signupPost s₁.auth.token i).trans (hnth₁ (i + 1))
          have hthird := sends_append hsecond
            (sends_after s₂ "/api/auth/verify-code" (p := s₂.verifyPost) rfl s₂.auth.token)
          rw [verifyCode_run, hnth₂ 0]
          cases (s.nth 2).verifies with
          | false => exact ⟨_, rfl, htoken₂, sends_some hthird (by decide)⟩
          | true =>
              simp only [Bool.not_true, Bool.false_eq_true, if_false, if_true]
              generalize hs₃ : s₂.after s₂.verifyPost s₂.auth.token = s₃ at hthird ⊢
              have htoken₃ : s₃.auth.token = "" := hs₃ ▸ htoken₂
              have hnth₃ : ∀ i, s₃.nth i = s.nth (i + 3) := fun i =>
                (hs₃ ▸ nth_after s₂ s₂.verifyPost s₂.auth.token i).trans (hnth₂ (i + 1))
              rw [login_run, hnth₃ 0, htoken₃]
              have hfourth := sends_append hthird
                (sends_after s₃ "/api/auth/login" (p := s₃.loginPost) rfl ((s.nth 3).token.getD ""))
              cases (s.nth 3).token with
              | none => exact ⟨_, rfl, rfl, sends_some hfourth (by decide)⟩
              | some token => exact ⟨_, rfl, rfl, sends_some hfourth (by decide)⟩

/-! ### Where nothing but the parsing throws -/

omit [JsonLibrary] in
theorem ofWorld_nth (w : AuthWorld) : (AuthSession.ofWorld w).nth 0 = .reply w.reply := by
  rw [AuthSession.nth, AuthWorld.reply]
  show (w.replies.map Answer.reply).getD 0 _ = _
  cases w.replies <;> rfl

omit [JsonLibrary] in
theorem ofWorld_after (w : AuthWorld) (p : Post) (token : String) :
    (AuthSession.ofWorld w).after p token
      = AuthSession.ofWorld ((w.exchanged p).setToken token) := by
  rw [AuthSession.after, ofWorld_nth, if_neg (by simp)]
  show AuthSession.mk _ (w.replies.map Answer.reply).tail _ _ = _
  rw [← List.map_tail]
  rfl

theorem login_ofWorld (w : AuthWorld) :
    AuthSession.login (.ofWorld w) = (.ok w.login.1, .ofWorld w.login.2) := by
  rw [login_run, ofWorld_nth, ofWorld_after, login_stores]
  rfl

omit [JsonLibrary] in
theorem signup_ofWorld (w : AuthWorld) :
    AuthSession.signup (.ofWorld w) = (.ok w.signup.1, .ofWorld w.signup.2) := by
  rw [signup_run, ofWorld_nth, ofWorld_after, signup_eq]
  rfl

omit [JsonLibrary] in
theorem verifyCode_ofWorld (w : AuthWorld) :
    AuthSession.verifyCode (.ofWorld w) = (.ok w.verifyCode.1, .ofWorld w.verifyCode.2) := by
  rw [verifyCode_run, ofWorld_nth, ofWorld_after, verifyCode_eq]
  rfl

/-- **Where only the parsing throws, this is the `setup` of a world.** -/
theorem setup_ofWorld (w : AuthWorld) :
    AuthSession.setup (.ofWorld w) = (.ok w.setup.1, .ofWorld w.setup.2) := by
  rw [AuthSession.setup, AuthWorld.setup, bind_run, get_run]
  simp only [ite_run, bind_run, login_ofWorld, pure_run]
  by_cases htoken : w.auth.token ≠ ""
  · rw [if_pos htoken]
    exact if_pos htoken
  · rw [if_neg htoken]
    refine (if_neg htoken).trans ?_
    rcases w.login with ⟨b, w₁⟩
    cases b with
    | true => rfl
    | false =>
        simp only [Bool.false_eq_true, if_false, signup_ofWorld]
        rcases w₁.signup with ⟨b, w₂⟩
        cases b with
        | false => rfl
        | true =>
            simp only [Bool.not_true, Bool.false_eq_true, if_false, verifyCode_ofWorld]
            rcases w₂.verifyCode with ⟨b, w₃⟩
            cases b with
            | false => rfl
            | true =>
                simp only [Bool.not_true, Bool.false_eq_true, if_false, login_ofWorld]
                rcases w₃.login with ⟨b, w₄⟩
                cases b <;> rfl

/-- With a token it does nothing. -/
theorem setup_rests {s : AuthSession} (htoken : s.auth.token ≠ "") :
    AuthSession.setup s = (.ok true, s) := by
  rw [AuthSession.setup, bind_run, get_run]
  simp only [ite_run]
  rw [if_pos htoken, pure_run]

/--
**`setup` tells the truth exactly if the token that is stored is not empty.** The
rest it does in any case: no exception gets out, the requests are made in order, and
with a token there are none.
-/
theorem tells_the_truth_iff (s : AuthSession) : TellsTheTruth s ↔ ¬ EmptyToken s := by
  by_cases htoken : s.auth.token = ""
  · obtain ⟨s', hsetup, htoken', hsends⟩ := setup_asks htoken
    have htruth : ((brought s).isSome = true ↔ (brought s).getD "" ≠ "") ↔ brought s ≠ some "" := by
      cases brought s with
      | none => simp
      | some token => simp
    constructor
    · intro h he
      have htruthful := h.truthful
      rw [hsetup, htoken', he.2] at htruthful
      exact absurd (htruthful.mp rfl) (by simp)
    · intro hne
      have hbrought : brought s ≠ some "" := fun h => hne ⟨htoken, h⟩
      refine ⟨⟨_, by rw [hsetup]⟩, by rw [hsetup]; exact hsends, fun h => absurd htoken h, ?_⟩
      rw [hsetup, htoken', ← htruth.mpr hbrought]
      exact ⟨fun h => Except.ok.inj h, fun h => congrArg Except.ok h⟩
  · refine ⟨fun _ he => htoken he.1, fun _ => ?_⟩
    have hsetup := setup_rests htoken
    refine ⟨⟨true, by rw [hsetup]⟩, ⟨[], ?_, List.nil_sublist _⟩, fun _ => by rw [hsetup], ?_⟩
    · rw [hsetup, List.append_nil]
    · rw [hsetup]
      exact ⟨fun _ => htoken, fun _ => rfl⟩

omit [JsonLibrary] in
/-- A reply that says `success` with an empty token: `setup` returns `true`, and there is none. -/
theorem not_tellsTheTruth : ¬ ∀ (_ : JsonLibrary) (s : AuthSession), TellsTheTruth s := by
  intro h
  let loggedIn := utf8 "\x7b\"success\":true,\"data\":\x7b\"accessToken\":\"\"\x7d\x7d"
  let _ : JsonLibrary := libraryOf (fun _ => "") [
    (loggedIn, .obj [("data", .obj [("accessToken", .str "")]), ("success", .bool true)])]
  let s : AuthSession :=
    { auth := .new {}, answers := [.reply ⟨200, loggedIn⟩], posts := []
      sources := { key := none, secret := none } }
  have hreturned : (AuthSession.setup s).1 = .ok true := by rfl
  have htoken : (AuthSession.setup s).2.auth.token = "" := by decide
  exact (h _ s).truthful.mp hreturned htoken

end CloudGateway.Proof
