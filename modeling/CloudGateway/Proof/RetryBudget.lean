import CloudGateway.Proof.Exchanges
import CloudGateway.Proof.JsonAccess

/-!
# How often `create_vehicle` retries

Each of the two retries is to be made once. The retry after a network failure
remembers whether there has been a login, but the retry after a login calls
`create_vehicle(true)` and so forgets whether there has been a network failure:
a failure, a 401 with a login that succeeds, and another failure make two network
retries and four requests. No other order of replies does.
-/

namespace CloudGateway.Proof

open Services Transport JsonLibrary

variable [JsonLibrary]

/-! ## The budget -/

/-- How often a request to `/api/vehicles` comes directly after one to `first`. -/
def retriesAfter (first : String) : List String → Nat
  | path :: next :: rest =>
      (if path = first ∧ next = "/api/vehicles" then 1 else 0) + retriesAfter first (next :: rest)
  | _ => 0

/-- What a call may send: one retry of each kind, and so no more than four requests. -/
structure WithinBudget (paths : List String) : Prop where
  login : retriesAfter "/api/auth/login" paths ≤ 1
  network : retriesAfter "/api/vehicles" paths ≤ 1
  vehicles : paths.count "/api/vehicles" ≤ 3
  logins : paths.count "/api/auth/login" ≤ 1

instance (paths : List String) : Decidable (WithinBudget paths) :=
  decidable_of_iff (retriesAfter "/api/auth/login" paths ≤ 1
      ∧ retriesAfter "/api/vehicles" paths ≤ 1 ∧ paths.count "/api/vehicles" ≤ 3
      ∧ paths.count "/api/auth/login" ≤ 1)
    ⟨fun ⟨login, network, vehicles, logins⟩ => ⟨login, network, vehicles, logins⟩,
      fun h => ⟨h.login, h.network, h.vehicles, h.logins⟩⟩

/-- Where the requests go that are sent between two states. -/
def sentPaths (w w' : AuthWorld) : List String :=
  (w'.posts.drop w.posts.length).map Post.path

/-- `create_vehicle()` returns, at any bound on its depth from 4 on, and keeps to the budget. -/
structure RetryBudget (w : AuthWorld) : Prop where
  returns : ∀ depth, 4 ≤ depth →
    AuthWorld.createVehicleWithin depth false false w = w.createVehicle false false
  budget : WithinBudget (sentPaths w (w.createVehicle false false).2)

/-- The reply to the request number `i`. -/
def nthReply (w : AuthWorld) (i : Nat) : HttpResponse := w.replies.getD i .failed

/--
A failure, then a 401, then a login that brings a token, and then another failure,
in a state in which there is something to send.
-/
structure Overruns (w : AuthWorld) : Prop where
  ready : w.Ready
  failed : NetworkFailure (nthReply w 0)
  expired : (nthReply w 1).statusCode = 401
  login : ∃ token, loginToken (nthReply w 2) = some token ∧ token ≠ ""
  again : NetworkFailure (nthReply w 3)

/-! ## Calls -/

/-- Where the requests of a call go. -/
def paths (log : List AnsweredPost) : List String := log.map (fun e => e.1.path)

omit [JsonLibrary] in
theorem sentPaths_eq {w w' : AuthWorld} {log : List AnsweredPost} (h : Exchanges w log w') :
    sentPaths w w' = paths log := by
  rw [sentPaths, h.posts, List.drop_left, List.map_map]
  rfl

omit [JsonLibrary] in
theorem reply_eq (w : AuthWorld) : w.reply = nthReply w 0 := by
  rw [AuthWorld.reply, nthReply]
  cases w.replies <;> rfl

omit [JsonLibrary] in
theorem nthReply_succ {w w' : AuthWorld} (h : w'.replies = w.replies.tail) (i : Nat) :
    nthReply w' i = nthReply w (i + 1) := by
  rw [nthReply, nthReply, h]
  cases w.replies <;> rfl

omit [JsonLibrary] in
@[simp] theorem paths_nil : paths [] = [] := rfl

omit [JsonLibrary] in
@[simp] theorem paths_vehicle (w : AuthWorld) (resp : HttpResponse) (log : List AnsweredPost) :
    paths ((w.vehiclePost, resp) :: log) = "/api/vehicles" :: paths log := rfl

omit [JsonLibrary] in
@[simp] theorem paths_login (w : AuthWorld) (resp : HttpResponse) (log : List AnsweredPost) :
    paths ((w.loginPost, resp) :: log) = "/api/auth/login" :: paths log := rfl

theorem afterLogin_token {w : AuthWorld} {token : String} (h : loginToken w.reply = some token) :
    w.afterLogin.auth.token = token := by
  show (loginToken w.reply).getD "" = token
  rw [h]
  rfl

/-- The replies, as the next ones after a retry and a login. -/
theorem replies_after (w : AuthWorld) :
    w.afterVehicle.reply = nthReply w 1 ∧ w.afterVehicle.afterVehicle.reply = nthReply w 2
      ∧ w.afterVehicle.afterVehicle.afterLogin.reply = nthReply w 3 := by
  have h₁ : ∀ i, nthReply w.afterVehicle i = nthReply w (i + 1) := nthReply_succ rfl
  have h₂ : ∀ i, nthReply w.afterVehicle.afterVehicle i = nthReply w.afterVehicle (i + 1) :=
    nthReply_succ rfl
  have h₃ : ∀ i, nthReply w.afterVehicle.afterVehicle.afterLogin i
      = nthReply w.afterVehicle.afterVehicle (i + 1) := nthReply_succ rfl
  exact ⟨(reply_eq _).trans (h₁ 0), ((reply_eq _).trans (h₂ 0)).trans (h₁ 1),
    (((reply_eq _).trans (h₃ 0)).trans (h₂ 1)).trans (h₁ 2)⟩

/-- With no retry left there is one request at most. -/
theorem spent_run {w w' : AuthWorld} {log : List AnsweredPost} (h : CreateRun true true w log w') :
    paths log = [] ∨ paths log = ["/api/vehicles"] := by
  cases h with
  | skipped _ => exact .inl rfl
  | settled _ _ _ _ => exact .inr rfl

/-- After a login there are two only if the first one fails. -/
theorem relogged_run {w w' : AuthWorld} {log : List AnsweredPost}
    (h : CreateRun true false w log w') :
    paths log = [] ∨ paths log = ["/api/vehicles"]
      ∨ (paths log = ["/api/vehicles", "/api/vehicles"] ∧ w.Ready ∧ NetworkFailure w.reply) := by
  cases h with
  | skipped _ => exact .inl rfl
  | settled _ _ _ _ => exact .inr (.inl rfl)
  | retried hready hfailed h =>
      rcases spent_run h with hpaths | hpaths
      · exact .inr (.inl (congrArg (_ :: ·) hpaths))
      · exact .inr (.inr ⟨congrArg (_ :: ·) hpaths, hready, hfailed⟩)

/-- Where the login brings a token, there are at most two requests after it. -/
theorem expired_run {w w' : AuthWorld} {log : List AnsweredPost}
    (h : CreateRun false true w log w') :
    paths log ∈ [[], ["/api/vehicles"], ["/api/vehicles", "/api/auth/login"],
        ["/api/vehicles", "/api/auth/login", "/api/vehicles"]]
      ∨ (paths log = ["/api/vehicles", "/api/auth/login", "/api/vehicles", "/api/vehicles"]
        ∧ w.reply.statusCode = 401
        ∧ (∃ token, loginToken w.afterVehicle.reply = some token ∧ token ≠ "")
        ∧ NetworkFailure w.afterVehicle.afterLogin.reply) := by
  cases h with
  | skipped _ => exact .inl (by decide)
  | settled _ _ _ _ => exact .inl (by rw [paths_vehicle, paths_nil]; decide)
  | refused _ _ _ => exact .inl (by rw [paths_vehicle, paths_login, paths_nil]; decide)
  | relogged _ hexpired hlogin h =>
      rcases relogged_run h with hpaths | hpaths | ⟨hpaths, hagain, hfailed⟩
      · exact .inl (by rw [paths_vehicle, paths_login, hpaths]; decide)
      · exact .inl (by rw [paths_vehicle, paths_login, hpaths]; decide)
      · refine .inr ⟨by rw [paths_vehicle, paths_login, hpaths], hexpired, ⟨_, hlogin, ?_⟩, hfailed⟩
        exact afterLogin_token hlogin ▸ hagain.2

/-- **A call keeps to the budget, or the replies are those that overrun it.** -/
theorem call_run {w w' : AuthWorld} {log : List AnsweredPost} (h : CreateRun false false w log w') :
    WithinBudget (paths log) ∨ Overruns w := by
  cases h with
  | skipped _ => exact .inl (by decide)
  | settled _ _ _ _ => exact .inl (by rw [paths_vehicle, paths_nil]; decide)
  | refused _ _ _ => exact .inl (by rw [paths_vehicle, paths_login, paths_nil]; decide)
  | relogged _ _ _ h =>
      refine .inl ?_
      rcases relogged_run h with hpaths | hpaths | ⟨hpaths, _⟩
      · rw [paths_vehicle, paths_login, hpaths]; decide
      · rw [paths_vehicle, paths_login, hpaths]; decide
      · rw [paths_vehicle, paths_login, hpaths]; decide
  | retried hready hfailed h =>
      rcases expired_run h with hpaths | ⟨_, hexpired, hlogin, hagain⟩
      · refine .inl ?_
        rw [paths_vehicle]
        have hall : ∀ p ∈ [[], ["/api/vehicles"], ["/api/vehicles", "/api/auth/login"],
            ["/api/vehicles", "/api/auth/login", "/api/vehicles"]],
            WithinBudget ("/api/vehicles" :: p) := by decide
        exact hall _ hpaths
      · -- the requests that make four
        obtain ⟨h₁, h₂, h₃⟩ := replies_after w
        exact .inr ⟨hready, reply_eq w ▸ hfailed, h₁ ▸ hexpired, h₂ ▸ hlogin, h₃ ▸ hagain⟩

/-! ### The replies that overrun -/

/-- A failure is followed by another request, where the retry is left. -/
theorem run_failed {l : Bool} {w w' : AuthWorld} {log : List AnsweredPost}
    (h : CreateRun l false w log w') (hready : w.Ready) (hfailed : NetworkFailure w.reply) :
    ∃ rest, log = (w.vehiclePost, w.reply) :: rest ∧ CreateRun l true w.afterVehicle rest w' := by
  cases h with
  | skipped h => exact absurd h (not_or.mpr ⟨by simp [hready.1], hready.2⟩)
  | settled _ _ hend _ => exact absurd (hend hfailed) (by decide)
  | refused _ hexpired _ => exact absurd hexpired hfailed.2.2.1
  | relogged _ hexpired _ _ => exact absurd hexpired hfailed.2.2.1
  | retried _ _ h => exact ⟨_, rfl, h⟩

/-- A 401 is followed by a login and another request, where the login brings a token. -/
theorem run_expired {n : Bool} {w w' : AuthWorld} {log : List AnsweredPost} {token : String}
    (h : CreateRun false n w log w') (hready : w.Ready) (hexpired : w.reply.statusCode = 401)
    (hlogin : loginToken w.afterVehicle.reply = some token) :
    ∃ rest, log = (w.vehiclePost, w.reply) :: (w.afterVehicle.loginPost, w.afterVehicle.reply)
        :: rest
      ∧ CreateRun true false w.afterVehicle.afterLogin rest w' := by
  cases h with
  | skipped h => exact absurd h (not_or.mpr ⟨by simp [hready.1], hready.2⟩)
  | settled _ hend _ _ => exact absurd (hend hexpired) (by decide)
  | refused _ _ hnone => exact absurd (hnone.symm.trans hlogin) (by simp)
  | relogged _ _ _ h => exact ⟨_, rfl, h⟩
  | retried _ hfailed _ => exact absurd hexpired hfailed.2.2.1

/-- Where there is something to send, it is sent. -/
theorem run_ready {l n : Bool} {w w' : AuthWorld} {log : List AnsweredPost}
    (h : CreateRun l n w log w') (hready : w.Ready) :
    ∃ rest, log = (w.vehiclePost, w.reply) :: rest := by
  cases h with
  | skipped h => exact absurd h (not_or.mpr ⟨by simp [hready.1], hready.2⟩)
  | settled _ _ _ _ => exact ⟨_, rfl⟩
  | refused _ _ _ => exact ⟨_, rfl⟩
  | relogged _ _ _ _ => exact ⟨_, rfl⟩
  | retried _ _ _ => exact ⟨_, rfl⟩

/-- Then four requests are sent. -/
theorem run_overruns {w w' : AuthWorld} {log : List AnsweredPost}
    (h : CreateRun false false w log w') (ho : Overruns w) :
    3 < (paths log).count "/api/vehicles" := by
  obtain ⟨h₁, h₂, h₃⟩ := replies_after w
  obtain ⟨token, hlogin, htoken⟩ := ho.login
  obtain ⟨log₁, rfl, hrun₁⟩ := run_failed h ho.ready ((reply_eq w).symm ▸ ho.failed)
  obtain ⟨log₂, rfl, hrun₂⟩ :=
    run_expired hrun₁ ho.ready (h₁.symm ▸ ho.expired) (h₂.symm ▸ hlogin)
  have hready : w.afterVehicle.afterVehicle.afterLogin.Ready :=
    ⟨ho.ready.1, (afterLogin_token (h₂.symm ▸ hlogin)).symm ▸ htoken⟩
  obtain ⟨log₃, rfl, hrun₃⟩ := run_failed hrun₂ hready (h₃.symm ▸ ho.again)
  obtain ⟨log₄, rfl⟩ := run_ready hrun₃ hready
  simp only [paths_vehicle, paths_login, List.count_cons]
  simp

/-- A bound on the depth of 4 or more is never reached. -/
theorem createVehicle_returns {depth : Nat} (h : 4 ≤ depth) :
    AuthWorld.createVehicleWithin depth false false
      = (fun w => w.createVehicle false false) := by
  induction depth, h using Nat.le_induction with
  | base => rfl
  | succ depth h ih => exact (createVehicleWithin_succ (by simp [retriesLeft]; omega)).symm.trans ih

/--
**`create_vehicle()` keeps to its budget exactly if there is no failure before and
after a login.**
-/
theorem retry_budget_iff (w : AuthWorld) : RetryBudget w ↔ ¬ Overruns w := by
  obtain ⟨log, hrun⟩ := createVehicle_run false false w
  have hsent : sentPaths w (w.createVehicle false false).2 = paths log :=
    sentPaths_eq (createRun_exchanges hrun)
  constructor
  · intro hbudget ho
    have hmany := run_overruns hrun ho
    have hfew := hbudget.budget.vehicles
    rw [hsent] at hfew
    omega
  · intro ho
    refine ⟨fun depth h => congrFun (createVehicle_returns h) w, ?_⟩
    rw [hsent]
    exact (call_run hrun).resolve_right ho

omit [JsonLibrary] in
/-- The connection fails, the token has expired, and the connection fails again. -/
theorem not_retryBudget : ¬ ∀ (_ : JsonLibrary) (w : AuthWorld), RetryBudget w := by
  intro h
  let loggedIn := utf8 "\x7b\"success\":true,\"data\":\x7b\"accessToken\":\"T\"\x7d\x7d"
  let _ : JsonLibrary := libraryOf (fun _ => "") [
    (loggedIn, .obj [("data", .obj [("accessToken", .str "T")]), ("success", .bool true)])]
  let w := ((AuthWorld.start {}).given [⟨200, loggedIn⟩] []).setup.2.given
    [.failed, ⟨401, []⟩, ⟨200, loggedIn⟩, .failed, ⟨201, []⟩] []
  have hmany : ¬ (sentPaths w (w.createVehicle false false).2).count "/api/vehicles" ≤ 3 := by
    decide
  exact hmany (h _ w).budget.vehicles

end CloudGateway.Proof
