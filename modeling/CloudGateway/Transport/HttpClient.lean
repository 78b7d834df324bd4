import CloudGateway.Transport.Url

/-!
# `HttpClient`

Of an `http_response` only the status and the body matter to the callers of the
client. `success` is not stored: wherever the client sets it, it is `false` with
status 0 or the range test on the status. The client itself also reads the headers
of a response, to follow redirects.

What the network does with a request is up to the server, which may answer each one
as it likes: `doRequest` is given that as a function of the requests so far, and
returns what it has sent next to its result.
-/

namespace CloudGateway.Transport

/-- Header names and their values, one value a name. -/
abbrev Headers := List (String × String)

/-- `headers[name] = value`. -/
def Headers.set (headers : Headers) (name value : String) : Headers :=
  (name, value) :: headers.filter (fun h => h.1 != name)

/-- `http_response`. -/
structure HttpResponse where
  statusCode : Int
  body : Bytes
deriving DecidableEq, Repr

namespace HttpResponse

/-- `success`. -/
def success (r : HttpResponse) : Bool := 200 ≤ r.statusCode && r.statusCode < 300

/-- No response at all: the host cannot be resolved, connected to, written to or read from. -/
def failed : HttpResponse := { statusCode := 0, body := [] }

end HttpResponse

/-! ## Redirects -/

/-- `std::map<std::string, std::string>`, by its entries. -/
abbrev HeaderMap := List (Bytes × Bytes)

/-- `http_response`, all of it. -/
structure FullResponse extends HttpResponse where
  headers : HeaderMap
  errorMessage : Bytes
deriving DecidableEq, Repr

/-- `http_options`. -/
structure HttpOptions where
  maxRedirects : Int := 5
  followRedirects : Bool := true
  restrictRedirectToSameHost : Bool := false
deriving DecidableEq, Repr

/-- The methods of the public functions, and the verbs they are sent with. -/
inductive Method where
  | get
  | post
  | put
  | patch
  | delete
  | head
deriving DecidableEq, Repr

/-- What `impl::do_request` is called with. -/
structure HttpRequest where
  url : Url
  method : Method
  body : Bytes
  headers : HeaderMap
deriving DecidableEq, Repr

/-- A request that has been sent, the URL it was for, and what came back. -/
structure Exchange where
  text : Bytes
  request : HttpRequest
  response : FullResponse
deriving DecidableEq, Repr

namespace FullResponse

/-- `is_redirect`. -/
def isRedirect (r : FullResponse) : Bool :=
  r.statusCode == 301 || r.statusCode == 302 || r.statusCode == 307 || r.statusCode == 308

/-- `get_headers`. The loop that is meant to ignore case compares the names as they are. -/
def getHeaders (r : FullResponse) (name : Bytes) : Option Bytes :=
  match r.headers.lookup name with
  | some value => some value
  | none => (r.headers.find? (fun h => h.1 == name)).map (·.2)

/-- Where a response redirects to, if it does and redirects are followed. -/
def location (r : FullResponse) (options : HttpOptions) : Option Bytes :=
  if options.followRedirects && r.isRedirect then
    match r.getHeaders (utf8 "Location") with
    | some value => some value
    | none => r.getHeaders (utf8 "location")
  else none

/-- 307 and 308 preserve the method and the body. -/
def preserves (r : FullResponse) : Bool := r.statusCode == 307 || r.statusCode == 308

/-- `redirect_method`. -/
def redirectMethod (r : FullResponse) (method : Method) : Method :=
  if r.preserves then method
  else if method = .post ∨ method = .put ∨ method = .patch then .get
  else method

/-- `redirect_body`. -/
def redirectBody (r : FullResponse) (body : Bytes) : Bytes :=
  if r.preserves then body else []

/-- The response to a URL that cannot be parsed. -/
def invalidUrl (url : Bytes) : FullResponse :=
  { HttpResponse.failed with headers := [], errorMessage := utf8 "Invalid URL: " ++ url }

end FullResponse

/--
`HttpClient::do_request`, with what has been sent. `redirects_remaining` is only
compared with 0 and counted down, so a negative one is as good as 0. The result is
`none` where `resolve_redirect` uses a parsed URL that is not there.
-/
def doRequest (options : HttpOptions) (server : List HttpRequest → FullResponse) (method : Method)
    (url : Bytes) (headers : HeaderMap) (body : Bytes) (redirectsRemaining : Nat)
    (sent : List Exchange) : Option FullResponse × List Exchange :=
  match parseUrl url with
  | none => (some (.invalidUrl url), sent)
  | some uri =>
      let request : HttpRequest := { url := uri, method := method, body := body, headers := headers }
      let response := server (sent.map (·.request) ++ [request])
      let sent := sent ++ [{ text := url, request := request, response := response }]
      match redirectsRemaining with
      | 0 => (some response, sent)
      | n + 1 =>
          match response.location options with
          | none => (some response, sent)
          | some location =>
              match resolveRedirect url location with
              | none => (none, sent)
              | some newUrl =>
                  doRequest options server (response.redirectMethod method) newUrl headers
                    (response.redirectBody body) n sent

/-- `HttpClient`, by its options. -/
structure HttpClient where
  options : HttpOptions
deriving DecidableEq, Repr

namespace HttpClient

variable (c : HttpClient) (server : List HttpRequest → FullResponse)

/-- What the public functions have in common. -/
def send (method : Method) (url : Bytes) (headers : HeaderMap) (body : Bytes) :
    Option FullResponse × List Exchange :=
  doRequest c.options server method url headers body c.options.maxRedirects.toNat []

/-- `Get`. -/
def get (url : Bytes) (headers : HeaderMap) := c.send server .get url headers []

/-- `Post`. -/
def post (url : Bytes) (headers : HeaderMap) (body : Bytes) := c.send server .post url headers body

/-- `Put`. -/
def put (url : Bytes) (headers : HeaderMap) (body : Bytes) := c.send server .put url headers body

/-- `Patch`. -/
def patch (url : Bytes) (headers : HeaderMap) (body : Bytes) :=
  c.send server .patch url headers body

/-- `Delete`. -/
def delete (url : Bytes) (headers : HeaderMap) := c.send server .delete url headers []

/-- `Head`. -/
def head (url : Bytes) (headers : HeaderMap) := c.send server .head url headers []

/-- A call of one of the public functions. -/
inductive Call where
  | get (url : Bytes) (headers : HeaderMap)
  | post (url : Bytes) (headers : HeaderMap) (body : Bytes)
  | put (url : Bytes) (headers : HeaderMap) (body : Bytes)
  | patch (url : Bytes) (headers : HeaderMap) (body : Bytes)
  | delete (url : Bytes) (headers : HeaderMap)
  | head (url : Bytes) (headers : HeaderMap)
deriving DecidableEq, Repr

/-- What the call returns, and what it has sent. -/
def call : Call → Option FullResponse × List Exchange
  | .get url headers => c.get server url headers
  | .post url headers body => c.post server url headers body
  | .put url headers body => c.put server url headers body
  | .patch url headers body => c.patch server url headers body
  | .delete url headers => c.delete server url headers
  | .head url headers => c.head server url headers

end HttpClient

end CloudGateway.Transport
