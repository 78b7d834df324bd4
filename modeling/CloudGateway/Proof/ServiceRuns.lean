import CloudGateway.Proof.CredentialPair
import CloudGateway.Proof.Exchanges

/-!
# The calls as what they send

`ServiceEffect` is one thing a call does, together with the request it sends and the
reply to it, if it sends one. Every call is a `ServiceRun`, so what holds of all that
is sent, and of what it is sent with, is shown for one effect at a time.

`exchangeLog` is a sequence of calls as its requests, each with its reply.
-/

namespace CloudGateway.Services

open Transport JsonLibrary

/-- The replies a call is given. -/
def AuthWorld.Action.replies : Action → List HttpResponse
  | setup replies => replies
  | createVehicle _ _ replies _ => replies
  | vechileLogin replies _ => replies
  | replaceFile _ => []

/-- What is sent in a sequence of calls, each request with its reply. -/
def exchangeLog [JsonLibrary] (w : AuthWorld) : List AuthWorld.Action → List AnsweredPost
  | [] => []
  | a :: rest =>
      match w.step a with
      | none => []
      | some w' => answered a.replies (w'.posts.drop w.posts.length) ++ exchangeLog w' rest

end CloudGateway.Services

namespace CloudGateway.Proof

open Services Transport JsonLibrary Reactive

variable [JsonLibrary]

/-- One thing the calls do. -/
inductive ServiceEffect (w : AuthWorld) : List AnsweredPost → AuthWorld → Prop where
  | login : ServiceEffect w [(w.loginPost, w.reply)] w.afterLogin
  | signup : ServiceEffect w [(w.signupPost, w.reply)] (w.exchanged w.signupPost)
  | verify : ServiceEffect w [(w.verifyPost, w.reply)] (w.exchanged w.verifyPost)
  | vehicle (hready : w.Ready) : ServiceEffect w [(w.vehiclePost, w.reply)] w.afterVehicle
  /-- The vehicle has been created, and the body of the response is read. -/
  | created (hready : w.Ready) (hcreated : w.reply.statusCode = 201) :
      ServiceEffect w [(w.vehiclePost, w.reply)]
        (w.afterVehicle.setRegistered.afterRead .created (some w.reply.body))
  | registered : ServiceEffect w [] w.setRegistered
  | loaded : ServiceEffect w [] (w.afterRead .loaded w.file)
  /-- The key and the secret are there, or have been read. -/
  | vehicleLogin (hauth : w.auth.vechileAuthenticated = false)
      (hkey : w.auth.vechileApiKey = "" → w.sources.key ≠ none)
      (hsecret : w.auth.vechileApiSecret = "" → w.sources.secret ≠ none) :
      ServiceEffect w [(vehicleLoginPost w, w.reply)] (w.exchanged (vehicleLoginPost w))
  | authenticated (token : String) : ServiceEffect w [] { w with
      auth := { w.auth with vechileAccessToken := token, vechileAuthenticated := true }
      session := some token }
  /-- The file is saved, or a call is noted. -/
  | outside (file : Option Bytes) (saves : List SaveOutcome) (creations : List Creation) :
      ServiceEffect w [] { w with file := file, saves := saves, creations := creations }

/-- One after the other. -/
inductive ServiceRun : AuthWorld → List AnsweredPost → AuthWorld → Prop where
  | nil {w : AuthWorld} : ServiceRun w [] w
  | cons {w w₁ w' : AuthWorld} {log rest : List AnsweredPost} (h : ServiceEffect w log w₁)
      (hrest : ServiceRun w₁ rest w') : ServiceRun w (log ++ rest) w'

/-- A call has sent something, and got as far as here. -/
def Proceeds (w w' : AuthWorld) : Prop := ∃ log, ServiceRun w log w'

variable {w w₁ w' : AuthWorld} {log rest : List AnsweredPost}

theorem ServiceRun.trans (h : ServiceRun w log w₁) (hrest : ServiceRun w₁ rest w') :
    ServiceRun w (log ++ rest) w' := by
  induction h with
  | nil => exact hrest
  | cons he _ ih =>
      rw [List.append_assoc]
      exact .cons he (ih hrest)

theorem Proceeds.refl (w : AuthWorld) : Proceeds w w := ⟨[], .nil⟩

theorem ServiceEffect.proceeds (h : ServiceEffect w log w') : Proceeds w w' := ⟨_, .cons h .nil⟩

theorem Proceeds.trans (h : Proceeds w w₁) (hrest : Proceeds w₁ w') : Proceeds w w' := by
  obtain ⟨log, hlog⟩ := h
  obtain ⟨rest, hmore⟩ := hrest
  exact ⟨log ++ rest, hlog.trans hmore⟩

/-! ## The calls -/

theorem login_proceeds (h : w.auth.token = "") : Proceeds w w.login.2 := by
  rw [login_eq h]
  exact ServiceEffect.login.proceeds

theorem relogin_proceeds (w : AuthWorld) : Proceeds w (w.setToken "").login.2 := by
  rw [relogin_eq]
  exact ServiceEffect.login.proceeds

theorem load_proceeds (w : AuthWorld) : Proceeds w w.loadVehicleCredentials.2 := by
  rw [load_spec]
  exact ServiceEffect.loaded.proceeds

theorem save_proceeds (w : AuthWorld) : Proceeds w w.save := by
  obtain ⟨file, saves, h⟩ := save_spec w
  rw [h]
  exact (ServiceEffect.outside file saves w.creations).proceeds

theorem setup_proceeds (w : AuthWorld) : Proceeds w w.setup.2 := by
  unfold AuthWorld.setup
  split
  · exact .refl w
  rename_i htoken
  rw [login_eq (not_not.mp htoken)]
  have hfirst : Proceeds w w.afterLogin := ServiceEffect.login.proceeds
  cases hreply : loginToken w.reply with
  | some token => exact hfirst
  | none =>
      -- the login has failed, so there is still no token when it is made again
      have hempty : w.afterLogin.auth.token = "" := congrArg (Option.getD · "") hreply
      let signedUp := w.afterLogin.exchanged w.afterLogin.signupPost
      let verified := signedUp.exchanged signedUp.verifyPost
      have hsignup : Proceeds w signedUp := hfirst.trans ServiceEffect.signup.proceeds
      have hverify : Proceeds w verified := hsignup.trans ServiceEffect.verify.proceeds
      have hlogin : Proceeds w verified.login.2 :=
        hverify.trans (login_proceeds (w := verified) hempty)
      simp only [Option.isSome_none, signup_eq]
      cases (w.afterLogin.reply.statusCode == 201 || w.afterLogin.reply.statusCode == 409) with
      | false => exact hsignup
      | true =>
          simp only [verifyCode_eq]
          cases (signedUp.reply.statusCode == 200) with
          | false => exact hverify
          | true => exact hlogin

/-- The 201 branch: what the response has brought may be saved. -/
theorem capture_proceeds (hready : w.Ready) (hcreated : w.reply.statusCode = 201) :
    Proceeds w (w.afterVehicle.setRegistered.captureCredentials w.reply.body).2 := by
  rw [capture_spec]
  have hread := (ServiceEffect.created hready hcreated).proceeds
  split
  · exact hread.trans (save_proceeds _)
  · exact hread

theorem attempt_proceeds {again : Bool → Bool → AuthWorld → Bool × AuthWorld}
    (hagain : ∀ l n w, Proceeds w (again l n w).2) (l n : Bool) (w : AuthWorld) :
    Proceeds w (w.attempt again l n).2 := by
  by_cases hreg : w.auth.vehicleRegistered = true
  · rw [AuthWorld.attempt, if_pos hreg]
    exact .refl w
  by_cases htoken : w.auth.token = ""
  · rw [AuthWorld.attempt, if_neg hreg, if_pos htoken]
    exact .refl w
  have hready : w.Ready := ⟨Bool.not_eq_true _ ▸ hreg, htoken⟩
  have hsent : Proceeds w w.afterVehicle := (ServiceEffect.vehicle hready).proceeds
  rw [attempt_ready again l n hready]
  split
  · rename_i hcreated
    exact capture_proceeds hready hcreated
  split
  · have hload := hsent.trans (load_proceeds w.afterVehicle)
    split
    · rename_i w' h
      rwa [h] at hload
    · rename_i w' h
      rw [h] at hload
      exact hload.trans ServiceEffect.registered.proceeds
  split
  · split
    · exact hsent
    · have hlogin := hsent.trans (relogin_proceeds w.afterVehicle)
      split
      · rename_i w' h
        rwa [h] at hlogin
      · rename_i w' h
        rw [h] at hlogin
        exact hlogin.trans (hagain _ _ _)
  split
  · split
    · exact hsent
    · exact hsent.trans (hagain _ _ _)
  · exact hsent

theorem createVehicle_proceeds (l n : Bool) (w : AuthWorld) :
    Proceeds w (w.createVehicle l n).2 := by
  have hwithin : ∀ depth l n w, Proceeds w (AuthWorld.createVehicleWithin depth l n w).2 := by
    intro depth
    induction depth with
    | zero => exact fun _ _ w => .refl w
    | succ depth ih => exact attempt_proceeds ih
  exact hwithin 4 l n w

theorem postVehicleLogin_proceeds (hauth : w.auth.vechileAuthenticated = false)
    (hkey : w.auth.vechileApiKey = "" → w.sources.key ≠ none)
    (hsecret : w.auth.vechileApiSecret = "" → w.sources.secret ≠ none) :
    Proceeds w w.postVehicleLogin.2 := by
  have hsent := (ServiceEffect.vehicleLogin hauth hkey hsecret).proceeds
  rw [postVehicleLogin_eq]
  cases loginToken w.reply with
  | none => exact hsent
  | some token =>
      obtain ⟨file, saves, h⟩ := save_spec ((w.exchanged (vehicleLoginPost w)).setAccessToken token)
      have hlogged := hsent.trans (ServiceEffect.authenticated token).proceeds
      have hsaved := hlogged.trans
        (ServiceEffect.outside file saves w.creations).proceeds
      show Proceeds w (afterVehicleLogin w token)
      rw [afterVehicleLogin, h]
      exact hsaved

theorem vechileLogin_proceeds (w : AuthWorld) : Proceeds w w.vechileLogin.2 := by
  unfold AuthWorld.vechileLogin
  split
  · exact .refl w
  rename_i hauth
  have hauth : w.auth.vechileAuthenticated = false := Bool.not_eq_true _ ▸ hauth
  split
  · rw [load_spec]
    have hload : Proceeds w (w.afterRead .loaded w.file) := ServiceEffect.loaded.proceeds
    cases hok : (w.reading .loaded w.file).succeeded with
    | false => exact hload
    | true =>
        -- both have just been read, so they are not sent without a source
        obtain ⟨_, hkey, hsecret⟩ := pair_of_succeeded hok
        refine hload.trans (postVehicleLogin_proceeds hauth (fun _ => ?_) (fun _ => ?_))
        · simp only [AuthWorld.afterRead, hkey, if_true]
          exact Option.some_ne_none _
        · simp only [AuthWorld.afterRead, hsecret, if_true]
          exact Option.some_ne_none _
  · rename_i hpair
    obtain ⟨hkey, hsecret⟩ := not_or.mp hpair
    exact postVehicleLogin_proceeds hauth (fun h => absurd h hkey) (fun h => absurd h hsecret)

/-! ## Sequences of calls -/

theorem serviceEffect_exchanges (h : ServiceEffect w log w') : Exchanges w log w' := by
  cases h with
  | login => exact exchanges_cons rfl rfl (exchanges_settled (settled_refl _))
  | signup => exact exchanges_cons rfl rfl (exchanges_settled (settled_refl _))
  | verify => exact exchanges_cons rfl rfl (exchanges_settled (settled_refl _))
  | vehicle _ => exact exchanges_cons rfl rfl (exchanges_settled (settled_refl _))
  | created _ _ => exact exchanges_cons rfl rfl (exchanges_settled (settled_refl _))
  | vehicleLogin _ _ _ => exact exchanges_cons rfl rfl (exchanges_settled (settled_refl _))
  | registered => exact exchanges_settled ⟨rfl, rfl, rfl, rfl⟩
  | loaded => exact exchanges_settled ⟨rfl, rfl, rfl, rfl⟩
  | authenticated => exact exchanges_settled ⟨rfl, rfl, rfl, rfl⟩
  | outside => exact exchanges_settled ⟨rfl, rfl, rfl, rfl⟩

theorem serviceRun_exchanges (h : ServiceRun w log w') : Exchanges w log w' := by
  induction h with
  | nil => exact exchanges_settled (settled_refl _)
  | cons he _ ih => exact exchanges_append (serviceEffect_exchanges he) ih

/-- A step is a run, from the state with what the step is given, and takes its replies in order. -/
theorem step_proceeds {a : AuthWorld.Action} (h : w.step a = some w') :
    ∃ file replies saves log,
      ServiceRun { w with file := file, replies := replies, saves := saves } log w'
        ∧ log = answered a.replies (log.map Prod.fst) := by
  have hgiven : ∀ {saves : List SaveOutcome} {w₁ : AuthWorld},
      Proceeds (w.given a.replies saves) w₁ → ∃ file replies saves log,
        ServiceRun { w with file := file, replies := replies, saves := saves } log w₁
          ∧ log = answered a.replies (log.map Prod.fst) := by
    rintro saves w₁ ⟨log, hrun⟩
    exact ⟨w.file, a.replies, saves, log, hrun, (serviceRun_exchanges hrun).answers⟩
  cases a with
  | setup replies =>
      obtain rfl := Option.some.inj h
      exact hgiven (setup_proceeds (w.given replies []))
  | createVehicle l n replies saves =>
      obtain rfl := Option.some.inj h
      exact hgiven ((createVehicle_proceeds l n (w.given replies saves)).trans
        (ServiceEffect.outside _ _ _).proceeds)
  | vechileLogin replies saves =>
      obtain rfl := Option.some.inj h
      exact hgiven (vechileLogin_proceeds (w.given replies saves))
  | replaceFile file =>
      obtain rfl := Option.some.inj h
      exact ⟨file, w.replies, w.saves, [], .nil, rfl⟩

/-- What a step adds to the log is what it sends. -/
theorem step_log {a : AuthWorld.Action} (h : w.step a = some w') :
    w'.posts = w.posts ++ (answered a.replies (w'.posts.drop w.posts.length)).map Prod.fst
      ∧ ∃ file replies saves,
        ServiceRun { w with file := file, replies := replies, saves := saves }
          (answered a.replies (w'.posts.drop w.posts.length)) w' := by
  obtain ⟨file, replies, saves, log, hrun, hanswers⟩ := step_proceeds h
  have hposts : w'.posts = w.posts ++ log.map Prod.fst := (serviceRun_exchanges hrun).posts
  rw [hposts, List.drop_left, ← hanswers]
  exact ⟨rfl, file, replies, saves, hrun⟩

/-- Every request of a log meets a condition, which may look at the log before it. -/
def EachSent (P : List AnsweredPost → Post → Prop) (log : List AnsweredPost) : Prop :=
  ∀ before p resp after, log = before ++ (p, resp) :: after → P before p

omit [JsonLibrary] in
theorem eachSent_nil (P : List AnsweredPost → Post → Prop) : EachSent P [] :=
  fun _ _ _ _ h => absurd h.symm (by simp)

omit [JsonLibrary] in
theorem EachSent.mono {P Q : List AnsweredPost → Post → Prop} (h : EachSent P log)
    (himp : ∀ before p, P before p → Q before p) : EachSent Q log :=
  fun before p resp after hlog => himp before p (h before p resp after hlog)

omit [JsonLibrary] in
/-- One more request. -/
theorem eachSent_snoc {P : List AnsweredPost → Post → Prop} {p : Post} (resp : HttpResponse)
    (h : EachSent P log) (hp : P log p) : EachSent P (log ++ [(p, resp)]) := by
  intro before q resp' after hlog
  rcases List.eq_nil_or_concat after with rfl | ⟨after', e, rfl⟩
  · obtain ⟨rfl, hlast⟩ := List.append_inj' hlog rfl
    obtain rfl := congrArg Prod.fst (List.cons.inj hlast).1
    exact hp
  · rw [List.concat_eq_append, ← List.cons_append, ← List.append_assoc] at hlog
    obtain ⟨rfl, _⟩ := List.append_inj' hlog rfl
    exact h before q resp' after' rfl

end CloudGateway.Proof
