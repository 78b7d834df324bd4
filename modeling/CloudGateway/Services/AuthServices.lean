import CloudGateway.Infra.Config
import CloudGateway.Lib.Machine
import CloudGateway.Transport.HttpClient

/-!
# `AuthService`

The service gets a token for the backend, registers the vehicle, and logs the
vehicle in with the key and the secret the registration has brought. These two,
and the token of the vehicle, are kept in memory and in a file.

`AuthWorld` puts the service next to that file, to the replies the backend has
yet to give and to how far its saves have yet to get. Its histories say what was
given to `HttpClient::Post` and what was read; `sources` says which read last
assigned the key and which the secret. `AuthWorld.machine` takes each call of
`setup`, `create_vehicle` and `vechile_login` as one step, and anyone may replace the
file in between.
-/

namespace CloudGateway.Services

open Transport JsonLibrary

/-- The members of `AuthService`. -/
structure AuthService where
  config : Config
  token : String
  vehicleRegistered : Bool
  vechileApiKey : String
  vechileApiSecret : String
  vechileAccessToken : String
  vechileAuthenticated : Bool
  jsonHeaders : Headers
  authHeaders : Headers
deriving DecidableEq, Repr

/-- The constructor. -/
def AuthService.new (config : Config) : AuthService :=
  { config := config, token := "", vehicleRegistered := false, vechileApiKey := ""
    vechileApiSecret := "", vechileAccessToken := "", vechileAuthenticated := false
    jsonHeaders := [("Content-Type", "application/json")], authHeaders := [] }

/-- Where credentials are read from. -/
inductive Origin where
  /-- The body of a 201 response to `POST /api/vehicles`. -/
  | created
  /-- The file, in `load_vehicle_credentials`. -/
  | loaded
deriving DecidableEq, Repr

/-- One attempt to read credentials, and the members before it. -/
structure CredentialRead where
  origin : Origin
  /-- What is read; `none` if the file cannot be opened. -/
  text : Option Bytes
  before : AuthService
  /-- The token the vehicle is logged in with, if it is. -/
  session : Option String
deriving DecidableEq, Repr

/-- Which reads last assigned the key and the secret, by their place in the history. -/
structure Sources where
  key : Option Nat
  secret : Option Nat
deriving DecidableEq, Repr

/-- A POST. What is sent is `body.dump()`. -/
structure Post where
  /-- The URL after `base_url`. -/
  path : String
  headers : Headers
  body : Json
  /-- Where the key and the secret in memory come from. -/
  sources : Sources
deriving Repr

/-- How far `save_vehicle_credentials` gets. -/
inductive SaveOutcome where
  /-- The directory cannot be created, or the file cannot be opened. -/
  | unopened
  /-- The file is opened, which truncates it; so many bytes then arrive in it. -/
  | opened (written : Nat)
deriving DecidableEq, Repr

/-- A call of `create_vehicle` that has returned. -/
structure Creation where
  returned : Bool
  registeredBefore : Bool
  after : AuthService
  sources : Sources
  /-- The reads made by the call. -/
  reads : List CredentialRead
deriving DecidableEq, Repr

/-- The service and what is around it. -/
structure AuthWorld where
  auth : AuthService
  /-- The file at `kCredentialsPath`. -/
  file : Option Bytes
  /-- What the backend replies to the next requests of this call. -/
  replies : List HttpResponse
  /-- How far the next saves of this call get. -/
  saves : List SaveOutcome
  /-- History: the requests, in order. -/
  posts : List Post
  /-- History: the reads of credentials, in order. -/
  reads : List CredentialRead
  /-- History: where the key and the secret in memory come from. -/
  sources : Sources
  /-- History: the calls of `create_vehicle`, in order. -/
  creations : List Creation
  /-- History: the token the vehicle has been authenticated with. -/
  session : Option String
deriving Repr

section Reading

variable [JsonLibrary]

/-- The token in the reply to a login; `none` if the reply does not say `success`. -/
def readLogin (body : Bytes) : Except JsonException (Option String) := do
  let j ← parse body
  if !(← j.value "success" Json.getBool false) then
    return none
  let token ← (← (← j.at "data").at "accessToken").getString
  return some token

/-- `j.at("data")` of a 201 response. -/
def createdDocument (body : Bytes) : Except JsonException Json := do
  let j ← parse body
  j.at "data"

end Reading

/-- `….at("apiKey").get<std::string>()`. -/
def readApiKey (j : Except JsonException Json) : Except JsonException String := do
  (← (← j).at "apiKey").getString

/-- `….at("apiSecret").get<std::string>()`. -/
def readApiSecret (j : Except JsonException Json) : Except JsonException String := do
  (← (← j).at "apiSecret").getString

/-- `j.value("accessToken", "")`. -/
def readAccessToken (j : Except JsonException Json) : Except JsonException String := do
  (← j).value "accessToken" Json.getString ""

/-- The document `save_vehicle_credentials` writes. -/
def credentialsFields (a : AuthService) : List (String × Json) :=
  [("apiKey", .str a.vechileApiKey), ("apiSecret", .str a.vechileApiSecret),
   ("accessToken", .str a.vechileAccessToken)]

namespace AuthWorld

/-- Constructed, with no file. -/
def start (config : Config) : AuthWorld :=
  { auth := .new config, file := none, replies := [], saves := [], posts := [], reads := []
    sources := { key := none, secret := none }, creations := [], session := none }

/-! ## Requests -/

/--
`http_client_.Post`. When no reply is left there is no connection. This is one call of
the client: the requests it makes to follow redirects are not among `posts`.
-/
def post (w : AuthWorld) (path : String) (headers : Headers) (body : Json) :
    HttpResponse × AuthWorld :=
  let sent : Post := { path := path, headers := headers, body := body, sources := w.sources }
  let w := { w with posts := w.posts ++ [sent] }
  match w.replies with
  | [] => (.failed, w)
  | resp :: rest => (resp, { w with replies := rest })

/-- `token_ = token`. -/
def setToken (w : AuthWorld) (token : String) : AuthWorld :=
  { w with auth := { w.auth with token := token } }

/-- `ensure_auth_headers`. -/
def ensureAuthHeaders (w : AuthWorld) : AuthWorld :=
  if w.auth.token = "" then w
  else
    { w with auth := { w.auth with
        authHeaders := w.auth.jsonHeaders.set "Authorization" ("Bearer " ++ w.auth.token) } }

/-- `login`. -/
def login [JsonLibrary] (w : AuthWorld) : Bool × AuthWorld :=
  let (resp, w) := w.post "/api/auth/login" w.auth.jsonHeaders (.object [
    ("email", .str w.auth.config.adminEmail),
    ("password", .str w.auth.config.adminPassword)])
  if !resp.success || resp.body.isEmpty then (false, w)
  else
    match readLogin resp.body with
    | .error _ => (false, w)
    | .ok none => (false, w)
    | .ok (some token) => (true, w.setToken token)

/-- `verify_code`. -/
def verifyCode (w : AuthWorld) : Bool × AuthWorld :=
  let (resp, w) := w.post "/api/auth/verify-code" w.auth.jsonHeaders (.object [
    ("email", .str w.auth.config.adminEmail),
    ("code", .str w.auth.config.verifyCode)])
  (resp.statusCode == 200, w)

/-- `signup`. That the admin already exists is fine. -/
def signup (w : AuthWorld) : Bool × AuthWorld :=
  let (resp, w) := w.post "/api/auth/admin/signup" w.auth.jsonHeaders (.object [
    ("email", .str w.auth.config.adminEmail),
    ("password", .str w.auth.config.adminPassword),
    ("firstName", .str w.auth.config.adminFirstName),
    ("lastName", .str w.auth.config.adminLastName),
    ("phoneNumber", .str w.auth.config.adminPhone)])
  (resp.statusCode == 201 || resp.statusCode == 409, w)

/-- `setup`. -/
def setup [JsonLibrary] (w : AuthWorld) : Bool × AuthWorld :=
  if w.auth.token ≠ "" then (true, w)
  else
    match w.login with
    | (true, w) => (true, w)
    | (false, w) =>
        match w.signup with
        | (false, w) => (false, w)
        | (true, w) =>
            match w.verifyCode with
            | (false, w) => (false, w)
            | (true, w) => w.login

/-! ## The credentials file -/

/-- How far the next save gets. When nothing is said about it, all bytes arrive. -/
def nextSave [JsonLibrary] (w : AuthWorld) : SaveOutcome × AuthWorld :=
  match w.saves with
  | [] => (.opened (utf8 (dumpIndent 2 (.object (credentialsFields w.auth)))).length, w)
  | outcome :: rest => (outcome, { w with saves := rest })

/-- `save_vehicle_credentials`. The stream is not looked at after writing. -/
def saveVehicleCredentials [JsonLibrary] (w : AuthWorld) (outcome : SaveOutcome) :
    Bool × AuthWorld :=
  let text := utf8 (dumpIndent 2 (.object (credentialsFields w.auth)))
  match outcome with
  | .unopened => (false, w)
  | .opened written => (true, { w with file := some (text.take written) })

/-- `save_vehicle_credentials();`, as it is called: the result is dropped. -/
def save [JsonLibrary] (w : AuthWorld) : AuthWorld :=
  let (outcome, w) := w.nextSave
  (w.saveVehicleCredentials outcome).2

/-- A read begins. -/
def beginRead (w : AuthWorld) (origin : Origin) (text : Option Bytes) : AuthWorld :=
  let read : CredentialRead :=
    { origin := origin, text := text, before := w.auth, session := w.session }
  { w with reads := w.reads ++ [read] }

/-- `vechile_api_key_ = key`, by the last read. -/
def setApiKey (w : AuthWorld) (key : String) : AuthWorld :=
  { w with
    auth := { w.auth with vechileApiKey := key }
    sources := { w.sources with key := some (w.reads.length - 1) } }

/-- `vechile_api_secret_ = secret`, by the last read. -/
def setApiSecret (w : AuthWorld) (secret : String) : AuthWorld :=
  { w with
    auth := { w.auth with vechileApiSecret := secret }
    sources := { w.sources with secret := some (w.reads.length - 1) } }

/-- `vechile_access_token_ = token`. -/
def setAccessToken (w : AuthWorld) (token : String) : AuthWorld :=
  { w with auth := { w.auth with vechileAccessToken := token } }

/-- The key and then the secret are read and assigned, up to what throws. -/
def assignPair (w : AuthWorld) (j : Except JsonException Json) : Bool × AuthWorld :=
  match readApiKey j with
  | .error _ => (false, w)
  | .ok key =>
      let w := w.setApiKey key
      match readApiSecret j with
      | .error _ => (false, w)
      | .ok secret => (true, w.setApiSecret secret)

/-- `load_vehicle_credentials`. -/
def loadVehicleCredentials [JsonLibrary] (w : AuthWorld) : Bool × AuthWorld :=
  let file := w.file
  let w := w.beginRead .loaded file
  match file with
  | none => (false, w)
  | some text =>
      match w.assignPair (parse text) with
      | (false, w) => (false, w)
      | (true, w) =>
          match readAccessToken (parse text) with
          | .error _ => (false, w)
          | .ok token => (true, w.setAccessToken token)

/-! ## Registration -/

/-- `vehicle_registered_ = true`. -/
def setRegistered (w : AuthWorld) : AuthWorld :=
  { w with auth := { w.auth with vehicleRegistered := true } }

/-- The `try` block of the 201 branch. -/
def captureCredentials [JsonLibrary] (w : AuthWorld) (body : Bytes) : Bool × AuthWorld :=
  match (w.beginRead .created (some body)).assignPair (createdDocument body) with
  | (false, w) => (false, w)
  | (true, w) => (true, w.save)

/-- The body of `create_vehicle`; `again` is `create_vehicle` where it calls itself. -/
def attempt [JsonLibrary] (again : Bool → Bool → AuthWorld → Bool × AuthWorld)
    (retryAfterLogin retryAfterNetwork : Bool) (w : AuthWorld) : Bool × AuthWorld :=
  if w.auth.vehicleRegistered then (true, w)
  else if w.auth.token = "" then (false, w)
  else
    let w := w.ensureAuthHeaders
    let (resp, w) := w.post "/api/vehicles" w.auth.authHeaders (.object [
      ("vinNumber", .str w.auth.config.vinNumber), ("plateNo", .str w.auth.config.plateNo),
      ("color", .str w.auth.config.color), ("carCompany", .str w.auth.config.carCompany),
      ("model", .str w.auth.config.model), ("seats", .int w.auth.config.seatNo.toInt64)])
    -- vehicle created
    if resp.statusCode = 201 then w.setRegistered.captureCredentials resp.body
    -- vehicle already exists
    else if resp.statusCode = 409 then
      match w.loadVehicleCredentials with
      | (false, w) => (false, w)
      | (true, w) => (true, w.setRegistered)
    -- admin token expired
    else if resp.statusCode = 401 then
      if retryAfterLogin then (false, w)
      else
        match (w.setToken "").login with
        | (false, w) => (false, w)
        | (true, w) => again true false w
    else if !resp.success then
      if retryAfterNetwork then (false, w) else again retryAfterLogin true w
    else (false, w)

/-- `create_vehicle` with a bound on how deep it calls itself. -/
def createVehicleWithin [JsonLibrary] : Nat → Bool → Bool → AuthWorld → Bool × AuthWorld
  | 0, _, _, w => (false, w)
  | n + 1, l, r, w => attempt (createVehicleWithin n) l r w

/-- `create_vehicle`. It calls itself at most three levels deep: `createVehicle_eq`. -/
def createVehicle [JsonLibrary] (retryAfterLogin retryAfterNetwork : Bool) (w : AuthWorld) :
    Bool × AuthWorld :=
  createVehicleWithin 4 retryAfterLogin retryAfterNetwork w

/-! ## The vehicle's login -/

/-- The `try` block of `vechile_login`. -/
def postVehicleLogin [JsonLibrary] (w : AuthWorld) : Bool × AuthWorld :=
  let (resp, w) := w.post "/api/auth/vehicle/login" w.auth.jsonHeaders (.object [
    ("apiKey", .str w.auth.vechileApiKey), ("apiSecret", .str w.auth.vechileApiSecret)])
  if !resp.success || resp.body.isEmpty then (false, w)
  else
    match readLogin resp.body with
    | .error _ => (false, w)
    | .ok none => (false, w)
    | .ok (some token) =>
        let w := (w.setAccessToken token).save
        (true, { w with
          auth := { w.auth with vechileAuthenticated := true }
          session := some token })

/-- `vechile_login`. -/
def vechileLogin [JsonLibrary] (w : AuthWorld) : Bool × AuthWorld :=
  if w.auth.vechileAuthenticated then (true, w)
  else if w.auth.vechileApiKey = "" ∨ w.auth.vechileApiSecret = "" then
    match w.loadVehicleCredentials with
    | (false, w) => (false, w)
    | (true, w) => w.postVehicleLogin
  else w.postVehicleLogin

/-! ## Calls in any order -/

/-- What can happen to the service and its file. -/
inductive Action where
  | setup (replies : List HttpResponse)
  | createVehicle (retryAfterLogin retryAfterNetwork : Bool) (replies : List HttpResponse)
      (saves : List SaveOutcome)
  | vechileLogin (replies : List HttpResponse) (saves : List SaveOutcome)
  /-- Someone else writes or removes the file. -/
  | replaceFile (file : Option Bytes)
deriving DecidableEq, Repr

/-- What the environment does during a call. -/
def given (w : AuthWorld) (replies : List HttpResponse) (saves : List SaveOutcome) : AuthWorld :=
  { w with replies := replies, saves := saves }

/-- A call of `create_vehicle` in `w` has returned in `w'`. -/
def noteCreation (w : AuthWorld) (returned : Bool) (w' : AuthWorld) : AuthWorld :=
  let creation : Creation :=
    { returned := returned, registeredBefore := w.auth.vehicleRegistered, after := w'.auth
      sources := w'.sources, reads := w'.reads.drop w.reads.length }
  { w' with creations := w'.creations ++ [creation] }

/-- One step. -/
def step [JsonLibrary] (w : AuthWorld) (a : Action) : Option AuthWorld :=
  match a with
  | .setup replies => some (w.given replies []).setup.2
  | .createVehicle l n replies saves =>
      let (returned, w') := (w.given replies saves).createVehicle l n
      some (w.noteCreation returned w')
  | .vechileLogin replies saves => some (w.given replies saves).vechileLogin.2
  | .replaceFile file => some { w with file := file }

/-- The service, from its construction. -/
def machine [JsonLibrary] (config : Config) : Reactive.Machine AuthWorld Action where
  init := start config
  step := step

end AuthWorld

end CloudGateway.Services
