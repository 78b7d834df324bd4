import CloudGateway.Services.AuthServices
import Mathlib.Logic.Relation

/-!
# What the calls of `AuthService` do to the credentials

A read of credentials assigns the key, then the secret, then the token, and stops
where something throws. `afterRead` is where it leaves the world, in one record;
`load_spec` and `capture_spec` say that the code gets there.

Every call is then a sequence of effects (`AuthEffect`), and the invariants of the
credentials are shown for one effect at a time.
-/

namespace CloudGateway.Services

open JsonLibrary

variable [JsonLibrary]

namespace CredentialRead

/-- The document the key and the secret are read from. -/
def document (r : CredentialRead) : Except JsonException Json :=
  match r.text, r.origin with
  | none, _ => .error .parseError
  | some text, .created => createdDocument text
  | some text, .loaded => parse text

/-- Everything that is read, if nothing throws; a 201 response has no token. -/
def result (r : CredentialRead) : Except JsonException (String × String × Option String) := do
  let key ← readApiKey r.document
  let secret ← readApiSecret r.document
  match r.origin with
  | .created => return (key, secret, none)
  | .loaded => return (key, secret, some (← readAccessToken r.document))

/-- The key and the secret of a read in which nothing throws. -/
def pair (r : CredentialRead) : Option (String × String) :=
  r.result.toOption.map (fun (key, secret, _) => (key, secret))

/-- Nothing throws. -/
def succeeded (r : CredentialRead) : Bool := r.pair.isSome

/-- The token `load_vehicle_credentials` has read, if it succeeds. -/
def storedToken (r : CredentialRead) : Option String :=
  r.result.toOption.bind (fun (_, _, token) => token)

/-- The key is read, and something throws after that. -/
def halfway (r : CredentialRead) : Bool := (readApiKey r.document).isOk && !r.succeeded

/-- The key in memory after the read. -/
def keyAfter (r : CredentialRead) : String :=
  (readApiKey r.document).toOption.getD r.before.vechileApiKey

/-- The read assigns the secret. -/
def assignsSecret (r : CredentialRead) : Bool :=
  (readApiKey r.document).isOk && (readApiSecret r.document).isOk

/-- The secret in memory after the read. -/
def secretAfter (r : CredentialRead) : String :=
  if r.assignsSecret then (readApiSecret r.document).toOption.getD r.before.vechileApiSecret
  else r.before.vechileApiSecret

end CredentialRead

namespace AuthWorld

/-- The read of a text that begins here. -/
def reading (w : AuthWorld) (origin : Origin) (text : Option Bytes) : CredentialRead :=
  { origin := origin, text := text, before := w.auth, session := w.session }

/-- What the read of a text leaves behind. -/
def afterRead (w : AuthWorld) (origin : Origin) (text : Option Bytes) : AuthWorld :=
  let r := w.reading origin text
  { w with
    auth := { w.auth with
      vechileApiKey := r.keyAfter
      vechileApiSecret := r.secretAfter
      vechileAccessToken := r.storedToken.getD w.auth.vechileAccessToken }
    reads := w.reads ++ [r]
    sources := {
      key := if (readApiKey r.document).isOk then some w.reads.length else w.sources.key
      secret := if r.assignsSecret then some w.reads.length else w.sources.secret } }

end AuthWorld

end CloudGateway.Services

namespace CloudGateway.Proof

open Services Transport JsonLibrary

variable [JsonLibrary]

/-! ## Reads -/

omit [JsonLibrary] in
theorem assignPair_error {w : AuthWorld} {j : Except JsonException Json} {e : JsonException}
    (hkey : readApiKey j = .error e) : w.assignPair j = (false, w) := by
  simp only [AuthWorld.assignPair, hkey]

omit [JsonLibrary] in
theorem assignPair_half {w : AuthWorld} {j : Except JsonException Json} {e : JsonException}
    {key : String} (hkey : readApiKey j = .ok key) (hsecret : readApiSecret j = .error e) :
    w.assignPair j = (false, w.setApiKey key) := by
  simp only [AuthWorld.assignPair, hkey, hsecret]

omit [JsonLibrary] in
theorem assignPair_ok {w : AuthWorld} {j : Except JsonException Json} {key secret : String}
    (hkey : readApiKey j = .ok key) (hsecret : readApiSecret j = .ok secret) :
    w.assignPair j = (true, (w.setApiKey key).setApiSecret secret) := by
  simp only [AuthWorld.assignPair, hkey, hsecret]

omit [JsonLibrary] in
/-- The number of the read that has just begun. -/
theorem beginRead_last (w : AuthWorld) (origin : Origin) (text : Option Bytes) :
    (w.beginRead origin text).reads.length - 1 = w.reads.length := by
  simp [AuthWorld.beginRead]

/-- Where the read leaves the world if the key cannot be read. -/
theorem afterRead_error {w : AuthWorld} {origin : Origin} {text : Option Bytes} {e : JsonException}
    (hkey : readApiKey (w.reading origin text).document = .error e) :
    w.afterRead origin text = w.beginRead origin text
      ∧ (w.reading origin text).succeeded = false := by
  simp only [AuthWorld.afterRead, CredentialRead.succeeded, CredentialRead.pair,
    CredentialRead.storedToken, CredentialRead.result, CredentialRead.keyAfter,
    CredentialRead.secretAfter, CredentialRead.assignsSecret, hkey]
  exact ⟨rfl, rfl⟩

/-- Where it leaves the world if the secret cannot be read. -/
theorem afterRead_half {w : AuthWorld} {origin : Origin} {text : Option Bytes} {e : JsonException}
    {key : String} (hkey : readApiKey (w.reading origin text).document = .ok key)
    (hsecret : readApiSecret (w.reading origin text).document = .error e) :
    w.afterRead origin text = (w.beginRead origin text).setApiKey key
      ∧ (w.reading origin text).succeeded = false := by
  simp only [AuthWorld.afterRead, CredentialRead.succeeded, CredentialRead.pair,
    CredentialRead.storedToken, CredentialRead.result, CredentialRead.keyAfter,
    CredentialRead.secretAfter, CredentialRead.assignsSecret, hkey, hsecret,
    AuthWorld.setApiKey, beginRead_last]
  exact ⟨rfl, rfl⟩

/-- Where it leaves the world if both can be read: the token changes if there is one. -/
theorem afterRead_assigned {w : AuthWorld} {origin : Origin} {text : Option Bytes}
    {key secret : String} (hkey : readApiKey (w.reading origin text).document = .ok key)
    (hsecret : readApiSecret (w.reading origin text).document = .ok secret) :
    w.afterRead origin text
      = (((w.beginRead origin text).setApiKey key).setApiSecret secret).setAccessToken
          ((w.reading origin text).storedToken.getD w.auth.vechileAccessToken) := by
  simp only [AuthWorld.afterRead, CredentialRead.keyAfter, CredentialRead.secretAfter,
    CredentialRead.assignsSecret, hkey, hsecret, AuthWorld.setApiKey, AuthWorld.setApiSecret,
    AuthWorld.setAccessToken, beginRead_last]
  rfl

/-- What is left to read in a file is the token. -/
theorem result_loaded {w : AuthWorld} {text : Option Bytes} {key secret : String}
    (hkey : readApiKey (w.reading .loaded text).document = .ok key)
    (hsecret : readApiSecret (w.reading .loaded text).document = .ok secret) :
    (w.reading .loaded text).result
      = readAccessToken (w.reading .loaded text).document >>= fun token =>
          pure (key, secret, some token) := by
  rw [CredentialRead.result, hkey, hsecret]
  rfl

/-- Where it leaves the world if both can be read, and the token, in a file, cannot. -/
theorem afterRead_pair {w : AuthWorld} {text : Option Bytes} {e : JsonException}
    {key secret : String} (hkey : readApiKey (w.reading .loaded text).document = .ok key)
    (hsecret : readApiSecret (w.reading .loaded text).document = .ok secret)
    (htoken : readAccessToken (w.reading .loaded text).document = .error e) :
    w.afterRead .loaded text = ((w.beginRead .loaded text).setApiKey key).setApiSecret secret
      ∧ (w.reading .loaded text).succeeded = false := by
  have hresult : (w.reading .loaded text).result = .error e := by
    rw [result_loaded hkey hsecret, htoken]
    rfl
  rw [afterRead_assigned hkey hsecret, CredentialRead.storedToken, CredentialRead.succeeded,
    CredentialRead.pair, hresult]
  exact ⟨rfl, rfl⟩

/-- Where it leaves the world if everything in a file can be read. -/
theorem afterRead_loaded {w : AuthWorld} {text : Option Bytes} {key secret token : String}
    (hkey : readApiKey (w.reading .loaded text).document = .ok key)
    (hsecret : readApiSecret (w.reading .loaded text).document = .ok secret)
    (htoken : readAccessToken (w.reading .loaded text).document = .ok token) :
    w.afterRead .loaded text
        = (((w.beginRead .loaded text).setApiKey key).setApiSecret secret).setAccessToken token
      ∧ (w.reading .loaded text).succeeded = true := by
  have hresult : (w.reading .loaded text).result = .ok (key, secret, some token) := by
    rw [result_loaded hkey hsecret, htoken]
    rfl
  rw [afterRead_assigned hkey hsecret, CredentialRead.storedToken, CredentialRead.succeeded,
    CredentialRead.pair, hresult]
  exact ⟨rfl, rfl⟩

/-- Where it leaves the world if both can be read from a response. -/
theorem afterRead_created {w : AuthWorld} {text : Option Bytes} {key secret : String}
    (hkey : readApiKey (w.reading .created text).document = .ok key)
    (hsecret : readApiSecret (w.reading .created text).document = .ok secret) :
    w.afterRead .created text = ((w.beginRead .created text).setApiKey key).setApiSecret secret
      ∧ (w.reading .created text).succeeded = true := by
  have hresult : (w.reading .created text).result = .ok (key, secret, none) := by
    rw [CredentialRead.result, hkey, hsecret]
    rfl
  rw [afterRead_assigned hkey hsecret, CredentialRead.storedToken, CredentialRead.succeeded,
    CredentialRead.pair, hresult]
  exact ⟨rfl, rfl⟩

/-- `load_vehicle_credentials` is a read of the file. -/
theorem load_spec (w : AuthWorld) :
    w.loadVehicleCredentials
      = ((w.reading .loaded w.file).succeeded, w.afterRead .loaded w.file) := by
  cases hfile : w.file with
  | none =>
      obtain ⟨hafter, hsucceeded⟩ :=
        afterRead_error (show readApiKey (w.reading .loaded none).document = .error .parseError
          from rfl)
      simp only [AuthWorld.loadVehicleCredentials, hfile, hafter, hsucceeded]
  | some text =>
      have hdoc : (w.reading .loaded (some text)).document = parse text := rfl
      simp only [AuthWorld.loadVehicleCredentials, hfile]
      cases hkey : readApiKey (parse text) with
      | error e =>
          obtain ⟨hafter, hsucceeded⟩ := afterRead_error (hdoc.symm ▸ hkey)
          simp only [assignPair_error hkey, hafter, hsucceeded]
      | ok key =>
          cases hsecret : readApiSecret (parse text) with
          | error e =>
              obtain ⟨hafter, hsucceeded⟩ := afterRead_half (hdoc.symm ▸ hkey) (hdoc.symm ▸ hsecret)
              simp only [assignPair_half hkey hsecret, hafter, hsucceeded]
          | ok secret =>
              cases htoken : readAccessToken (parse text) with
              | error e =>
                  obtain ⟨hafter, hsucceeded⟩ := afterRead_pair (hdoc.symm ▸ hkey)
                    (hdoc.symm ▸ hsecret) (hdoc.symm ▸ htoken)
                  simp only [assignPair_ok hkey hsecret, hafter, hsucceeded]
              | ok token =>
                  obtain ⟨hafter, hsucceeded⟩ := afterRead_loaded (hdoc.symm ▸ hkey)
                    (hdoc.symm ▸ hsecret) (hdoc.symm ▸ htoken)
                  simp only [assignPair_ok hkey hsecret, hafter, hsucceeded]

/-- The `try` block of the 201 branch is a read of the body, and a save if that succeeds. -/
theorem capture_spec (w : AuthWorld) (body : Bytes) :
    w.captureCredentials body
      = if (w.reading .created (some body)).succeeded
        then (true, (w.afterRead .created (some body)).save)
        else (false, w.afterRead .created (some body)) := by
  have hdoc : (w.reading .created (some body)).document = createdDocument body := rfl
  simp only [AuthWorld.captureCredentials]
  cases hkey : readApiKey (createdDocument body) with
  | error e =>
      obtain ⟨hafter, hsucceeded⟩ := afterRead_error (hdoc.symm ▸ hkey)
      simp only [assignPair_error hkey, hafter, hsucceeded, Bool.false_eq_true, if_false]
  | ok key =>
      cases hsecret : readApiSecret (createdDocument body) with
      | error e =>
          obtain ⟨hafter, hsucceeded⟩ := afterRead_half (hdoc.symm ▸ hkey) (hdoc.symm ▸ hsecret)
          simp only [assignPair_half hkey hsecret, hafter, hsucceeded, Bool.false_eq_true, if_false]
      | ok secret =>
          obtain ⟨hafter, hsucceeded⟩ := afterRead_created (hdoc.symm ▸ hkey) (hdoc.symm ▸ hsecret)
          simp only [assignPair_ok hkey hsecret, hafter, hsucceeded, if_true]

/-! ## Effects -/

/-- The path a vehicle logs in at. -/
def vehicleLoginPath : String := "/api/auth/vehicle/login"

/-- The steps of which the calls are made. -/
inductive AuthEffect (w : AuthWorld) : AuthWorld → Prop where
  /-- The token of the admin, and the headers made from it. -/
  | admin {token : String} {headers : Headers} :
      AuthEffect w { w with auth := { w.auth with token := token, authHeaders := headers } }
  /-- A request that is not a login of the vehicle. -/
  | request {path : String} {headers : Headers} {body : Json} {replies : List HttpResponse}
      (hpath : path ≠ vehicleLoginPath) :
      AuthEffect w { w with
        posts := w.posts ++ [⟨path, headers, body, w.sources⟩], replies := replies }
  /-- A login of the vehicle, with a pair that is there or has just been read. -/
  | vehicleLogin {replies : List HttpResponse}
      (hauth : w.auth.vechileAuthenticated = false)
      (hpair : (w.auth.vechileApiKey ≠ "" ∧ w.auth.vechileApiSecret ≠ "")
        ∨ ∃ r, w.reads.getLast? = some r ∧ r.succeeded = true) :
      AuthEffect w { w with
        posts := w.posts ++ [⟨vehicleLoginPath, w.auth.jsonHeaders, .object [
          ("apiKey", .str w.auth.vechileApiKey), ("apiSecret", .str w.auth.vechileApiSecret)],
          w.sources⟩]
        replies := replies }
  /-- The file, and what the environment will do. -/
  | outside {file : Option Bytes} {replies : List HttpResponse} {saves : List SaveOutcome} :
      AuthEffect w { w with file := file, replies := replies, saves := saves }
  /-- A 201 response. -/
  | created {body : Bytes} (hnew : w.auth.vehicleRegistered = false) :
      AuthEffect w (w.setRegistered.afterRead .created (some body))
  /-- A 409 response, with a file that can be read. -/
  | existed (hnew : w.auth.vehicleRegistered = false)
      (hok : (w.reading .loaded w.file).succeeded = true) :
      AuthEffect w (w.afterRead .loaded w.file).setRegistered
  /-- The file is read for a login. -/
  | loaded (hauth : w.auth.vechileAuthenticated = false)
      (hok : (w.reading .loaded w.file).succeeded = true) :
      AuthEffect w (w.afterRead .loaded w.file)
  /-- The file cannot be read. -/
  | loadFailed (hfail : (w.reading .loaded w.file).succeeded = false) :
      AuthEffect w (w.afterRead .loaded w.file)
  /-- The vehicle is logged in. -/
  | authenticated {token : String} (hauth : w.auth.vechileAuthenticated = false) :
      AuthEffect w { w with
        auth := { w.auth with vechileAccessToken := token, vechileAuthenticated := true }
        session := some token }

/-- Any number of effects, one after the other. -/
abbrev AuthEffects : AuthWorld → AuthWorld → Prop := Relation.ReflTransGen AuthEffect

omit [JsonLibrary] in
theorem post_spec {w w' : AuthWorld} {path : String} {headers : Headers} {body : Json}
    {resp : HttpResponse} (h : w.post path headers body = (resp, w')) :
    ∃ replies, w' = { w with
      posts := w.posts ++ [⟨path, headers, body, w.sources⟩], replies := replies } := by
  obtain ⟨auth, file, replies, saves, posts, reads, sources, creations, session⟩ := w
  cases replies with
  | nil => exact ⟨[], (congrArg Prod.snd h).symm⟩
  | cons r rest => exact ⟨rest, (congrArg Prod.snd h).symm⟩

/-- A save changes the file at most. -/
theorem save_spec (w : AuthWorld) :
    ∃ file saves, w.save = { w with file := file, saves := saves } := by
  unfold AuthWorld.save AuthWorld.nextSave AuthWorld.saveVehicleCredentials
  cases w.saves with
  | nil => exact ⟨_, w.saves, rfl⟩
  | cons outcome rest =>
      cases outcome with
      | unopened => exact ⟨w.file, rest, rfl⟩
      | opened n => exact ⟨_, rest, rfl⟩

theorem save_effect (w : AuthWorld) : AuthEffect w w.save := by
  obtain ⟨file, saves, h⟩ := save_spec w
  rw [h]
  exact .outside

/-! ### What the admin does -/

/-- Effects beside the vehicle: nothing is read, and it is as registered as before. -/
structure Aside (w w' : AuthWorld) : Prop where
  effects : AuthEffects w w'
  reads : w'.reads = w.reads
  registered : w'.auth.vehicleRegistered = w.auth.vehicleRegistered

theorem Aside.refl (w : AuthWorld) : Aside w w := ⟨.refl, rfl, rfl⟩

theorem Aside.trans {w w' w'' : AuthWorld} (h : Aside w w') (h' : Aside w' w'') : Aside w w'' :=
  ⟨h.effects.trans h'.effects, h'.reads.trans h.reads, h'.registered.trans h.registered⟩

/-- A request that is not a login of the vehicle. -/
theorem request_aside {w w' : AuthWorld} {path : String} {headers : Headers} {body : Json}
    {resp : HttpResponse} (h : w.post path headers body = (resp, w'))
    (hpath : path ≠ vehicleLoginPath) : Aside w w' := by
  obtain ⟨replies, rfl⟩ := post_spec h
  exact ⟨.single (.request hpath), rfl, rfl⟩

theorem setToken_aside (w : AuthWorld) (token : String) : Aside w (w.setToken token) :=
  ⟨.single .admin, rfl, rfl⟩

theorem ensureAuthHeaders_aside (w : AuthWorld) : Aside w w.ensureAuthHeaders := by
  unfold AuthWorld.ensureAuthHeaders
  split
  · exact .refl w
  · exact ⟨.single .admin, rfl, rfl⟩

theorem login_aside (w : AuthWorld) : Aside w w.login.2 := by
  unfold AuthWorld.login
  split
  rename_i resp w₁ hpost
  have hsent := request_aside hpost (by decide)
  split
  · exact hsent
  · split
    · exact hsent
    · exact hsent
    · exact hsent.trans (setToken_aside _ _)

theorem signup_aside (w : AuthWorld) : Aside w w.signup.2 := by
  unfold AuthWorld.signup
  split
  rename_i resp w₁ hpost
  exact request_aside hpost (by decide)

theorem verifyCode_aside (w : AuthWorld) : Aside w w.verifyCode.2 := by
  unfold AuthWorld.verifyCode
  split
  rename_i resp w₁ hpost
  exact request_aside hpost (by decide)

theorem setup_aside (w : AuthWorld) : Aside w w.setup.2 := by
  unfold AuthWorld.setup
  split
  · exact .refl w
  · have hlogin := login_aside w
    split
    · rename_i w₁ h
      rwa [h] at hlogin
    · rename_i w₁ h
      rw [h] at hlogin
      have hsignup := signup_aside w₁
      split
      · rename_i w₂ h
        rw [h] at hsignup
        exact hlogin.trans hsignup
      · rename_i w₂ h
        rw [h] at hsignup
        have hverify := verifyCode_aside w₂
        split
        · rename_i w₃ h
          rw [h] at hverify
          exact hlogin.trans (hsignup.trans hverify)
        · rename_i w₃ h
          rw [h] at hverify
          exact hlogin.trans (hsignup.trans (hverify.trans (login_aside w₃)))

/-! ### Registration -/

/-- How many times `create_vehicle` can still call itself. -/
def retriesLeft (retryAfterLogin retryAfterNetwork : Bool) : Nat :=
  (if retryAfterLogin then 0 else 2) + (if retryAfterNetwork then 0 else 1)

/-- `create_vehicle` calls itself after a login, or after a failure of the network. -/
theorem attempt_congr {again again' : Bool → Bool → AuthWorld → Bool × AuthWorld} {l n : Bool}
    (hlogin : l = false → again true false = again' true false)
    (hnetwork : n = false → again l true = again' l true) (w : AuthWorld) :
    w.attempt again l n = w.attempt again' l n := by
  simp only [AuthWorld.attempt]
  cases l with
  | false => cases n with
    | false => rw [hlogin rfl, hnetwork rfl]
    | true => rw [hlogin rfl]; rfl
  | true => cases n with
    | false => rw [hnetwork rfl]; rfl
    | true => rfl

/-- A bound above the retries that are left is never reached. -/
theorem createVehicleWithin_succ {depth : Nat} {l n : Bool} (h : retriesLeft l n < depth) :
    AuthWorld.createVehicleWithin depth l n = AuthWorld.createVehicleWithin (depth + 1) l n := by
  induction depth generalizing l n with
  | zero => exact absurd h (Nat.not_lt_zero _)
  | succ depth ih =>
      funext w
      refine attempt_congr (fun hl => ih ?_) (fun hn => ih ?_) w
      · subst hl
        cases n <;> simp [retriesLeft] at h ⊢ <;> omega
      · subst hn
        cases l <;> simp [retriesLeft] at h ⊢ <;> omega

/-- `create_vehicle` is its body, with itself where it calls itself. -/
theorem createVehicle_eq (l n : Bool) (w : AuthWorld) :
    w.createVehicle l n = w.attempt AuthWorld.createVehicle l n := by
  refine attempt_congr (fun _ => ?_) (fun _ => ?_) w
  · exact createVehicleWithin_succ (by decide)
  · exact createVehicleWithin_succ (by cases l <;> decide)

/-- How `create_vehicle` can end, seen from `w`. -/
inductive CreateOutcome (w : AuthWorld) : Bool → AuthWorld → Prop where
  /-- The vehicle is registered already. -/
  | already {w₁ : AuthWorld} (h : Aside w w₁) (hreg : w₁.auth.vehicleRegistered = true) :
      CreateOutcome w true w₁
  /-- No token, no connection, or a response that is none of 201 and 409. -/
  | declined {w₁ : AuthWorld} (h : Aside w w₁) : CreateOutcome w false w₁
  /-- A 201 response with a key and a secret. -/
  | created {w₁ : AuthWorld} {body : Bytes} (h : Aside w w₁)
      (hnew : w₁.auth.vehicleRegistered = false)
      (hok : (w₁.setRegistered.reading .created (some body)).succeeded = true) :
      CreateOutcome w true (w₁.setRegistered.afterRead .created (some body)).save
  /-- A 201 response without them. -/
  | malformed {w₁ : AuthWorld} {body : Bytes} (h : Aside w w₁)
      (hnew : w₁.auth.vehicleRegistered = false)
      (hfail : (w₁.setRegistered.reading .created (some body)).succeeded = false) :
      CreateOutcome w false (w₁.setRegistered.afterRead .created (some body))
  /-- A 409 response, and the file can be read. -/
  | existed {w₁ : AuthWorld} (h : Aside w w₁) (hnew : w₁.auth.vehicleRegistered = false)
      (hok : (w₁.reading .loaded w₁.file).succeeded = true) :
      CreateOutcome w true (w₁.afterRead .loaded w₁.file).setRegistered
  /-- A 409 response, and it cannot. -/
  | unreadable {w₁ : AuthWorld} (h : Aside w w₁) (hnew : w₁.auth.vehicleRegistered = false)
      (hfail : (w₁.reading .loaded w₁.file).succeeded = false) :
      CreateOutcome w false (w₁.afterRead .loaded w₁.file)

/-- What comes before aside does not matter. -/
theorem Aside.outcome {w w₁ w' : AuthWorld} {returned : Bool} (h : Aside w w₁)
    (ho : CreateOutcome w₁ returned w') : CreateOutcome w returned w' := by
  cases ho with
  | already h' hreg => exact .already (h.trans h') hreg
  | declined h' => exact .declined (h.trans h')
  | created h' hnew hok => exact .created (h.trans h') hnew hok
  | malformed h' hnew hfail => exact .malformed (h.trans h') hnew hfail
  | existed h' hnew hok => exact .existed (h.trans h') hnew hok
  | unreadable h' hnew hfail => exact .unreadable (h.trans h') hnew hfail

theorem attempt_outcome {again : Bool → Bool → AuthWorld → Bool × AuthWorld}
    (hagain : ∀ l n w, CreateOutcome w (again l n w).1 (again l n w).2) (l n : Bool)
    (w : AuthWorld) : CreateOutcome w (w.attempt again l n).1 (w.attempt again l n).2 := by
  unfold AuthWorld.attempt
  split
  · rename_i hreg
    exact .already (.refl w) hreg
  rename_i hnew
  split
  · exact .declined (.refl w)
  simp only
  generalize hpost : AuthWorld.post _ _ _ _ = sent
  obtain ⟨resp, w₁⟩ := sent
  have hsent : Aside w w₁ :=
    (ensureAuthHeaders_aside w).trans (request_aside hpost (by decide))
  have hnew₁ : w₁.auth.vehicleRegistered = false := by
    rw [hsent.registered]
    exact Bool.not_eq_true _ ▸ hnew
  split
  · -- 201
    rw [capture_spec]
    split
    · exact .created hsent hnew₁ (by assumption)
    · exact .malformed hsent hnew₁ (by simp_all)
  split
  · -- 409
    rw [load_spec]
    cases hok : (w₁.reading .loaded w₁.file).succeeded with
    | true => exact .existed hsent hnew₁ hok
    | false => exact .unreadable hsent hnew₁ hok
  split
  · -- 401
    split
    · exact .declined hsent
    have hlogin := hsent.trans ((setToken_aside w₁ "").trans (login_aside _))
    split
    · rename_i w₂ h
      rw [h] at hlogin
      exact .declined hlogin
    · rename_i w₂ h
      rw [h] at hlogin
      exact hlogin.outcome (hagain _ _ _)
  split
  · split
    · exact .declined hsent
    · exact hsent.outcome (hagain _ _ _)
  · exact .declined hsent

/-- **How `create_vehicle` ends.** -/
theorem createVehicle_outcome (l n : Bool) (w : AuthWorld) :
    CreateOutcome w (w.createVehicle l n).1 (w.createVehicle l n).2 := by
  have hwithin : ∀ depth l n w, CreateOutcome w (AuthWorld.createVehicleWithin depth l n w).1
      (AuthWorld.createVehicleWithin depth l n w).2 := by
    intro depth
    induction depth with
    | zero => exact fun _ _ w => .declined (.refl w)
    | succ depth ih => exact attempt_outcome ih
  exact hwithin 4 l n w

theorem outcome_effects {w w' : AuthWorld} {returned : Bool} (h : CreateOutcome w returned w') :
    AuthEffects w w' := by
  cases h with
  | already h _ => exact h.effects
  | declined h => exact h.effects
  | created h hnew _ => exact (h.effects.tail (.created hnew)).tail (save_effect _)
  | malformed h hnew _ => exact h.effects.tail (.created hnew)
  | existed h hnew hok => exact h.effects.tail (.existed hnew hok)
  | unreadable h _ hfail => exact h.effects.tail (.loadFailed hfail)

/-! ### The vehicle's login -/

/-- The rest of `vechile_login`, once there is a pair to log in with. -/
theorem postVehicleLogin_effects {w : AuthWorld} (hauth : w.auth.vechileAuthenticated = false)
    (hpair : (w.auth.vechileApiKey ≠ "" ∧ w.auth.vechileApiSecret ≠ "")
      ∨ ∃ r, w.reads.getLast? = some r ∧ r.succeeded = true) :
    AuthEffects w w.postVehicleLogin.2 := by
  unfold AuthWorld.postVehicleLogin
  split
  rename_i resp w₁ hpost
  obtain ⟨replies, rfl⟩ := post_spec hpost
  have hsent : AuthEffects w { w with posts := _, replies := replies } :=
    .single (.vehicleLogin hauth hpair)
  split
  · exact hsent
  · split
    · exact hsent
    · exact hsent
    · rename_i token _
      simp only [AuthWorld.setAccessToken]
      generalize hset : ({ w with posts := _, auth := _, replies := _ } : AuthWorld) = w₁
      obtain ⟨file, saves, hsave⟩ := save_spec w₁
      rw [hsave, ← hset]
      exact (hsent.tail (.authenticated hauth)).tail .outside

theorem vechileLogin_effects (w : AuthWorld) : AuthEffects w w.vechileLogin.2 := by
  unfold AuthWorld.vechileLogin
  split
  · exact .refl
  rename_i hauth
  have hauth : w.auth.vechileAuthenticated = false := Bool.not_eq_true _ ▸ hauth
  split
  · rw [load_spec]
    cases hok : (w.reading .loaded w.file).succeeded with
    | false => exact .single (.loadFailed hok)
    | true =>
        have hlast :
            (w.afterRead .loaded w.file).reads.getLast? = some (w.reading .loaded w.file) :=
          List.getLast?_concat
        exact (Relation.ReflTransGen.single (.loaded hauth hok)).trans
          (postVehicleLogin_effects hauth (.inr ⟨_, hlast, hok⟩))
  · rename_i hpair
    exact postVehicleLogin_effects hauth (.inl (not_or.mp hpair))

/-! ### Histories -/

/-- Reads are added, and calls of `create_vehicle` are not noted. -/
theorem effect_history {w w' : AuthWorld} (h : AuthEffect w w') :
    (∃ new, w'.reads = w.reads ++ new) ∧ w'.creations = w.creations := by
  cases h with
  | created _ => exact ⟨⟨_, rfl⟩, rfl⟩
  | existed _ _ => exact ⟨⟨_, rfl⟩, rfl⟩
  | loaded _ _ => exact ⟨⟨_, rfl⟩, rfl⟩
  | loadFailed _ => exact ⟨⟨_, rfl⟩, rfl⟩
  | _ => exact ⟨⟨[], (List.append_nil _).symm⟩, rfl⟩

theorem effects_history {w w' : AuthWorld} (h : AuthEffects w w') :
    (∃ new, w'.reads = w.reads ++ new) ∧ w'.creations = w.creations := by
  induction h with
  | refl => exact ⟨⟨[], (List.append_nil _).symm⟩, rfl⟩
  | tail _ hlast ih =>
      obtain ⟨⟨new, hreads⟩, hcreations⟩ := ih
      obtain ⟨⟨more, hmore⟩, hsame⟩ := effect_history hlast
      exact ⟨⟨new ++ more, by rw [hmore, hreads, List.append_assoc]⟩, hsame.trans hcreations⟩

/-! ## Runs -/

theorem given_aside (w : AuthWorld) (replies : List HttpResponse) (saves : List SaveOutcome) :
    Aside w (w.given replies saves) :=
  ⟨.single .outside, rfl, rfl⟩

/-- A call of `create_vehicle` ends in one of its outcomes, and is noted. -/
theorem createVehicle_step {w w' : AuthWorld} {l n : Bool} {replies : List HttpResponse}
    {saves : List SaveOutcome} (h : w.step (.createVehicle l n replies saves) = some w') :
    ∃ returned w₁, CreateOutcome w returned w₁ ∧ w' = w.noteCreation returned w₁ := by
  obtain rfl := Option.some.inj h
  exact ⟨_, _, (given_aside w _ _).outcome (createVehicle_outcome l n _), rfl⟩

/-- A step is a sequence of effects, or a call of `create_vehicle`. -/
theorem auth_step_cases {w w' : AuthWorld} {a : AuthWorld.Action} (h : w.step a = some w') :
    AuthEffects w w'
      ∨ ∃ returned w₁, CreateOutcome w returned w₁ ∧ w' = w.noteCreation returned w₁ := by
  cases a with
  | setup replies =>
      obtain rfl := Option.some.inj h
      exact .inl ((given_aside w _ _).trans (setup_aside _)).effects
  | createVehicle l n replies saves => exact .inr (createVehicle_step h)
  | vechileLogin replies saves =>
      obtain rfl := Option.some.inj h
      exact .inl ((given_aside w _ _).effects.trans (vechileLogin_effects _))
  | replaceFile file =>
      obtain rfl := Option.some.inj h
      exact .inl (.single .outside)

/-- **What every effect keeps, every call keeps.** -/
theorem auth_invariant {config : Config} {P : AuthWorld → Prop} (hinit : P (.start config))
    (heffect : ∀ w w', P w → AuthEffect w w' → P w')
    (hnote : ∀ w creations, P w → P { w with creations := creations })
    {w : AuthWorld} (h : (AuthWorld.machine config).Reachable w) : P w := by
  have heffects : ∀ {w w'}, P w → AuthEffects w w' → P w' := by
    intro w w' hP h
    induction h with
    | refl => exact hP
    | tail _ hlast ih => exact heffect _ _ ih hlast
  refine h.invariant (P := P) hinit (fun w a w' _ hP _ hs => ?_)
  rcases auth_step_cases hs with hrun | ⟨returned, w₁, hout, rfl⟩
  · exact heffects hP hrun
  · exact hnote _ _ (heffects hP (outcome_effects hout))

end CloudGateway.Proof
