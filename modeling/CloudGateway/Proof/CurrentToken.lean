import CloudGateway.Proof.ServiceRuns

/-!
# The token a vehicle is registered with

The headers of the request are a copy of the token, made when there is one; when
the token is cleared the old copy stays. It is never sent: whenever a request goes
out there is a token, and the copy has just been made from it. The token in turn is
what the last login has brought, since a login that fails leaves it empty.
-/

namespace CloudGateway.Services

open Transport JsonLibrary

/--
A request carries the token of the last login before it. That login has succeeded,
so no login has failed since the last one that has not.
-/
def SentWith [JsonLibrary] (before : List AnsweredPost) (p : Post) : Prop :=
  ∃ earlier login resp between token,
    before = earlier ++ (login, resp) :: between
      ∧ login.path = "/api/auth/login" ∧ (∀ e ∈ between, e.1.path ≠ "/api/auth/login")
      ∧ loginToken resp = some token ∧ token ≠ ""
      ∧ p.headers.lookup "Authorization" = some ("Bearer " ++ token)

/-- Every registration is sent with the token of the last login before it. -/
def UsesCurrentToken [JsonLibrary] (log : List AnsweredPost) : Prop :=
  ∀ before p resp after, log = before ++ (p, resp) :: after → p.path = "/api/vehicles" →
    SentWith before p

end CloudGateway.Services

namespace CloudGateway.Proof

open Services Transport JsonLibrary Reactive

variable [JsonLibrary]

/-- What the last login has brought; nothing if it has failed. -/
def currentToken (log : List AnsweredPost) : String :=
  log.foldl (fun token e =>
    if e.1.path = "/api/auth/login" then (loginToken e.2).getD "" else token) ""

theorem currentToken_snoc (log : List AnsweredPost) (p : Post) (resp : HttpResponse) :
    currentToken (log ++ [(p, resp)])
      = if p.path = "/api/auth/login" then (loginToken resp).getD "" else currentToken log := by
  rw [currentToken, List.foldl_append]
  rfl

/-- A token comes from the last login, which has succeeded. -/
theorem exists_login {log : List AnsweredPost} (h : currentToken log ≠ "") :
    ∃ earlier login resp between, log = earlier ++ (login, resp) :: between
      ∧ login.path = "/api/auth/login" ∧ (∀ e ∈ between, e.1.path ≠ "/api/auth/login")
      ∧ loginToken resp = some (currentToken log) := by
  induction log using List.reverseRecOn with
  | nil => exact absurd rfl h
  | append_singleton log e ih =>
      obtain ⟨p, resp⟩ := e
      rw [currentToken_snoc] at h ⊢
      by_cases hpath : p.path = "/api/auth/login"
      · rw [if_pos hpath] at h ⊢
        refine ⟨log, p, resp, [], rfl, hpath, fun _ he => absurd he List.not_mem_nil, ?_⟩
        cases hread : loginToken resp with
        | none => rw [hread] at h; exact absurd rfl h
        | some token => rfl
      · rw [if_neg hpath] at h ⊢
        obtain ⟨earlier, login, resp', between, hlog, hlogin, hbetween, htoken⟩ := ih h
        refine ⟨earlier, login, resp', between ++ [(p, resp)], ?_, hlogin, ?_, htoken⟩
        · rw [hlog, List.append_assoc, List.cons_append]
        · intro e he
          rcases List.mem_append.mp he with he | he
          · exact hbetween e he
          · rw [List.mem_singleton.mp he]
            exact hpath

/-- The token in memory is the one of the log. -/
structure TokenCurrent (log : List AnsweredPost) (w : AuthWorld) : Prop where
  token : w.auth.token = currentToken log
  sent : UsesCurrentToken log

/-- A request that is neither a login nor a registration. -/
theorem tokenCurrent_other {log : List AnsweredPost} {w : AuthWorld} {p : Post}
    (h : TokenCurrent log w) (hlogin : p.path ≠ "/api/auth/login")
    (hvehicle : p.path ≠ "/api/vehicles") :
    TokenCurrent (log ++ [(p, w.reply)]) (w.exchanged p) := by
  refine ⟨?_, eachSent_snoc _ h.sent (fun hpath => absurd hpath hvehicle)⟩
  rw [currentToken_snoc, if_neg hlogin]
  exact h.token

/-- A registration is sent with the token in memory. -/
theorem tokenCurrent_vehicle {log : List AnsweredPost} {w w' : AuthWorld} (h : TokenCurrent log w)
    (hready : w.Ready) (hsame : w'.auth.token = w.auth.token) :
    TokenCurrent (log ++ [(w.vehiclePost, w.reply)]) w' := by
  refine ⟨?_, eachSent_snoc _ h.sent (fun _ => ?_)⟩
  · rw [currentToken_snoc]
    exact hsame.trans h.token
  · have htoken : currentToken log ≠ "" := h.token ▸ hready.2
    obtain ⟨earlier, login, resp, between, hlog, hlogin, hbetween, hresp⟩ := exists_login htoken
    refine ⟨earlier, login, resp, between, _, hlog, hlogin, hbetween, hresp, htoken, ?_⟩
    show (AuthWorld.bearer w).lookup "Authorization" = _
    rw [AuthWorld.bearer, Headers.set, List.lookup_cons, h.token]
    rfl

theorem tokenCurrent_effect {log new : List AnsweredPost} {w w' : AuthWorld}
    (h : TokenCurrent log w) (he : ServiceEffect w new w') : TokenCurrent (log ++ new) w' := by
  have hsilent : w'.auth.token = w.auth.token → TokenCurrent (log ++ []) w' := by
    intro hsame
    rw [List.append_nil]
    exact ⟨hsame.trans h.token, h.sent⟩
  cases he with
  | login =>
      refine ⟨?_, eachSent_snoc _ h.sent (fun hpath => absurd hpath (by
        simp [AuthWorld.loginPost]))⟩
      rw [currentToken_snoc]
      rfl
  | signup =>
      exact tokenCurrent_other h (by simp [AuthWorld.signupPost]) (by simp [AuthWorld.signupPost])
  | verify =>
      exact tokenCurrent_other h (by simp [AuthWorld.verifyPost]) (by simp [AuthWorld.verifyPost])
  | vehicle hready => exact tokenCurrent_vehicle h hready rfl
  | created hready _ => exact tokenCurrent_vehicle h hready rfl
  | vehicleLogin _ _ _ =>
      exact tokenCurrent_other h (by simp [vehicleLoginPost, vehicleLoginPath])
        (by simp [vehicleLoginPost, vehicleLoginPath])
  | registered => exact hsilent rfl
  | loaded => exact hsilent rfl
  | authenticated => exact hsilent rfl
  | outside => exact hsilent rfl

theorem tokenCurrent_run {log new : List AnsweredPost} {w w' : AuthWorld}
    (h : TokenCurrent log w) (hrun : ServiceRun w new w') : TokenCurrent (log ++ new) w' := by
  induction hrun generalizing log with
  | nil => rwa [List.append_nil]
  | cons he _ ih =>
      rw [← List.append_assoc]
      exact ih (tokenCurrent_effect h he)

/-- What holds of the log so far, holds of it to the end. -/
theorem tokenCurrent_calls {log : List AnsweredPost} {w : AuthWorld} (h : TokenCurrent log w)
    (actions : List AuthWorld.Action) : UsesCurrentToken (log ++ exchangeLog w actions) := by
  induction actions generalizing log w with
  | nil =>
      rw [exchangeLog, List.append_nil]
      exact h.sent
  | cons a rest ih =>
      cases hstep : w.step a with
      | none =>
          simp only [exchangeLog, hstep, List.append_nil]
          exact h.sent
      | some w' =>
          obtain ⟨_, file, replies, saves, hrun⟩ := step_log hstep
          have hgiven : TokenCurrent log
              { w with file := file, replies := replies, saves := saves } := ⟨h.token, h.sent⟩
          simp only [exchangeLog, hstep]
          rw [← List.append_assoc]
          exact ih (tokenCurrent_run hgiven hrun)

/--
**A vehicle is always registered with the current token:** every `POST` to
`/api/vehicles`, in any sequence of calls with any replies, carries what the last
login has brought, and there has been one that brought something. That the log has
all posts in it, and nothing else, is `exchangeLog_posts`.
-/
theorem registration_uses_current_token (config : Config) (actions : List AuthWorld.Action) :
    UsesCurrentToken (exchangeLog (.start config) actions) := by
  have hstart : TokenCurrent [] (AuthWorld.start config) := ⟨rfl, eachSent_nil _⟩
  exact tokenCurrent_calls hstart actions

end CloudGateway.Proof
