import CloudGateway.Services.AuthServices

/-!
# `setup`, with the exceptions in it

Everything `setup` calls has its body in a `try` block: the body of the request is
printed there, which throws if a string in it is not UTF-8, the request is sent,
which may throw too, and the reply is parsed. `AuthWorld.setup` is the same where
nothing but the parsing throws; here all of it may.
-/

namespace CloudGateway.Services

open Transport JsonLibrary

/-- What a `catch (const std::exception&)` catches here. -/
inductive StdException where
  | json (e : JsonException)
  | other
deriving DecidableEq, Repr

/-- What comes of a request. -/
inductive Answer where
  | reply (resp : HttpResponse)
  /-- `body.dump()` throws, and nothing is sent. -/
  | notDumped
  /-- `Post` throws. -/
  | thrown
deriving DecidableEq, Repr

/-- The service, what will come of its requests, and what it has sent. -/
structure AuthSession where
  auth : AuthService
  answers : List Answer
  /-- History: the requests, in order. -/
  posts : List Post
  /-- History, with which the requests are noted. -/
  sources : Sources
deriving Repr

/-- What may throw; the members keep what has been assigned before. -/
abbrev Throwing := ExceptT StdException (StateM AuthSession)

namespace AuthSession

/-- `http_client_.Post(path, headers, body.dump())`, one call with the redirects it follows. -/
def post (path : String) (headers : Headers) (body : Json) : Throwing HttpResponse := fun s =>
  let sent : List Post :=
    s.posts ++ [{ path := path, headers := headers, body := body, sources := s.sources }]
  match s.answers with
  | [] => (.ok .failed, { s with posts := sent })
  | .reply resp :: rest => (.ok resp, { s with answers := rest, posts := sent })
  | .notDumped :: rest => (.error (.json .typeError), { s with answers := rest })
  | .thrown :: rest => (.error .other, { s with answers := rest, posts := sent })

/-- What reading a document throws. -/
def reading {α : Type} : Except JsonException α → Throwing α
  | .ok a => pure a
  | .error e => throw (.json e)

/-- `token_ = token`. -/
def setToken (token : String) : Throwing Unit :=
  modify (fun s => { s with auth := { s.auth with token := token } })

/-- `login`. -/
def login [JsonLibrary] : Throwing Bool :=
  tryCatch
    (do
      let auth := (← get).auth
      let resp ← post "/api/auth/login" auth.jsonHeaders (.object [
        ("email", .str auth.config.adminEmail),
        ("password", .str auth.config.adminPassword)])
      if !resp.success || resp.body.isEmpty then return false
      match ← reading (readLogin resp.body) with
      | none => return false
      | some token =>
          setToken token
          return true)
    (fun _ => return false)

/-- `verify_code`. -/
def verifyCode : Throwing Bool :=
  tryCatch
    (do
      let auth := (← get).auth
      let resp ← post "/api/auth/verify-code" auth.jsonHeaders (.object [
        ("email", .str auth.config.adminEmail),
        ("code", .str auth.config.verifyCode)])
      if resp.statusCode = 200 then return true
      return false)
    (fun _ => return false)

/-- `signup`. -/
def signup : Throwing Bool :=
  tryCatch
    (do
      let auth := (← get).auth
      let resp ← post "/api/auth/admin/signup" auth.jsonHeaders (.object [
        ("email", .str auth.config.adminEmail),
        ("password", .str auth.config.adminPassword),
        ("firstName", .str auth.config.adminFirstName),
        ("lastName", .str auth.config.adminLastName),
        ("phoneNumber", .str auth.config.adminPhone)])
      if resp.statusCode = 201 then return true
      if resp.statusCode = 409 then return true
      return false)
    (fun _ => return false)

/-- `setup`. It has no `try` block of its own. -/
def setup [JsonLibrary] : Throwing Bool := do
  if (← get).auth.token ≠ "" then return true
  if ← login then return true
  if !(← signup) then return false
  if !(← verifyCode) then return false
  if ← login then return true
  return false

end AuthSession

end CloudGateway.Services
