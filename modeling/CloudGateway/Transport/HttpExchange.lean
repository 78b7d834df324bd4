import CloudGateway.Transport.HttpClient

/-!
# `HttpClient::impl`

One exchange of the client: the connection is opened, the request written and the
response read, by calls of the resolver, of OpenSSL, of the sockets and of Beast. How
each of them ends, and what Beast's parser holds once a response has been read, are
up to the network, which may answer every call by all the calls before it. What Beast
makes of the header fields of a request is third-party code as well, and is taken as
two more members of `Network`.

The timeouts of the streams are left out: an operation that runs into one ends with
an error like any other.
-/

namespace CloudGateway.Transport

/-- `http_response` with the flag that is stored next to the status. -/
structure StoredResponse extends FullResponse where
  success : Bool
deriving DecidableEq, Repr

/-- A response to nothing, with the reason. -/
def StoredResponse.failed (message : Bytes) : StoredResponse :=
  { statusCode := 0, body := [], headers := [], errorMessage := message, success := false }

/-! ## The calls an exchange consists of -/

/-- `http::request<http::string_body>` -/
structure WireRequest where
  method : Method
  target : Bytes
  /-- The header fields, in the order in which they are written. -/
  fields : List (Bytes × Bytes)
  body : Bytes
deriving DecidableEq, Repr

inductive NetCall where
  | resolve (host port : Bytes)
  /-- The TLS context and the stream over it, as far as `native_handle`. -/
  | stream
  /-- `SSL_set_tlsext_host_name` -/
  | serverName (host : Bytes)
  | connect
  | handshake
  | write (request : WireRequest)
  /-- `http::read`, perhaps with a parser that skips the body. -/
  | read (skip : Bool)
deriving DecidableEq, Repr

/-- The errors that are told apart when a response is read. -/
inductive NetError where
  | endOfStream
  | eof
  | partialMessage
  | other
deriving DecidableEq, Repr

/-- How a call ends. An error comes with its `message()`, an exception with its `what()`. -/
inductive Reply where
  | ok
  | error (error : NetError) (message : Bytes)
  | threw (what : Bytes)
deriving DecidableEq, Repr

/-- `http::response_parser<http::string_body>` after a read. -/
structure Parser where
  isDone : Bool
  /-- `result_int` -/
  statusCode : Nat
  body : Bytes
  fields : List (Bytes × Bytes)
deriving DecidableEq, Repr

structure Network where
  /-- How the last of the calls made so far ends. -/
  reply : List NetCall → Reply
  /-- What the parser holds after them. -/
  parser : List NetCall → Parser
  /-- The fields after `req.set(name, value)`, or what it throws. -/
  set : List (Bytes × Bytes) → Bytes → Bytes → Except Bytes (List (Bytes × Bytes))
  /-- The fields after `req.prepare_payload()`, or what it throws. -/
  preparePayload : WireRequest → Except Bytes (List (Bytes × Bytes))

/-! ## Responses -/

/-- `headers[name] = value`, in a map ordered by the names. -/
def HeaderMap.insert : HeaderMap → Bytes → Bytes → HeaderMap
  | [], name, value => [(name, value)]
  | h :: headers, name, value =>
      if h.1 = name then (name, value) :: headers
      else if name < h.1 then (name, value) :: h :: headers
      else h :: HeaderMap.insert headers name value

/-- What is taken from a parser that is done, or as good as done. -/
def Parser.release (parser : Parser) : StoredResponse :=
  { statusCode := parser.statusCode
    body := parser.body
    headers := parser.fields.foldl (fun headers f => HeaderMap.insert headers f.1 f.2) []
    errorMessage := []
    success := 200 ≤ parser.statusCode && parser.statusCode < 300 }

/-- The message of a response when `e` has been caught. -/
def exceptionMessage (what : Bytes) : Bytes := utf8 "Exception: " ++ what

namespace Network

variable (net : Network)

/-! ## The request -/

/-- `for (auto& [k, v] : headers) req.set(k, v);` -/
def setAll (fields : List (Bytes × Bytes)) : HeaderMap → Except Bytes (List (Bytes × Bytes))
  | [] => .ok fields
  | h :: headers => net.set fields h.1 h.2 >>= fun fields => setAll fields headers

/-- `if (!body.empty()) { req.body() = body; req.prepare_payload(); }` -/
def setBody (wire : WireRequest) (body : Bytes) : Except Bytes WireRequest :=
  if body = [] then .ok wire
  else
    let wire := { wire with body := body }
    net.preparePayload wire >>= fun fields => .ok { wire with fields := fields }

/-- The request as `send_and_receive` puts it together. -/
def wireRequest (request : HttpRequest) : Except Bytes WireRequest := do
  let fields ← net.set [] (utf8 "Host") request.url.host
  let fields ← net.set fields (utf8 "User-Agent") (utf8 "VehicleGateway/2.0")
  let fields ← net.set fields (utf8 "Connection") (utf8 "close")
  let fields ← net.setAll fields request.headers
  net.setBody { method := request.method, target := request.url.path, fields := fields, body := [] }
    request.body

/-! ## `do_request` -/

/-- Makes a call and goes on, unless the call ends with an error or an exception. -/
def attempt (call : NetCall) (failure : Bytes → Bytes) (calls : List NetCall)
    (onward : List NetCall → StoredResponse × List NetCall) : StoredResponse × List NetCall :=
  match net.reply (calls ++ [call]) with
  | .ok => onward (calls ++ [call])
  | .error _ message => (.failed (failure message), calls ++ [call])
  | .threw what => (.failed (exceptionMessage what), calls ++ [call])

/-- The second half of `send_and_receive`, where not every error is one. -/
def receive (method : Method) (calls : List NetCall) : StoredResponse × List NetCall :=
  let calls := calls ++ [.read (method == .head)]
  match net.reply calls with
  | .ok => ((net.parser calls).release, calls)
  | .error error message =>
      if error ≠ .endOfStream ∧ error ≠ .eof then
        if error = .partialMessage ∧ (net.parser calls).isDone then
          ((net.parser calls).release, calls)
        else (.failed (utf8 "read failed: " ++ message), calls)
      else ((net.parser calls).release, calls)
  | .threw what => (.failed (exceptionMessage what), calls)

/-- `send_and_receive`, with what `do_request` makes of an exception. -/
def sendAndReceive (request : HttpRequest) (calls : List NetCall) :
    StoredResponse × List NetCall :=
  match net.wireRequest request with
  | .error what => (.failed (exceptionMessage what), calls)
  | .ok wire =>
      net.attempt (.write wire) (utf8 "write failed: " ++ ·) calls fun calls =>
        net.receive request.method calls

/-- `impl::do_request`, with the calls so far. -/
def doRequest (request : HttpRequest) (calls : List NetCall) : StoredResponse × List NetCall :=
  net.attempt (.resolve request.url.host request.url.port) (utf8 "DNS resolution failed: " ++ ·)
    calls fun calls =>
  if request.url.protocol = utf8 "https" then
    net.attempt .stream (fun _ => utf8 "Failed to initialize OpenSSL stream") calls fun calls =>
    net.attempt (.serverName request.url.host) (utf8 "SNI setup failed: " ++ ·) calls fun calls =>
    net.attempt .connect (utf8 "Connecting failed: " ++ ·) calls fun calls =>
    net.attempt .handshake (utf8 "SSL handshake failed: " ++ ·) calls fun calls =>
    net.sendAndReceive request calls
  else
    net.attempt .connect (utf8 "Connection failed: " ++ ·) calls fun calls =>
    net.sendAndReceive request calls

/-! ## `HttpClient` over the network -/

/-- `HttpClient::do_request`. -/
def clientDoRequest (options : HttpOptions) (method : Method) (url : Bytes) (headers : HeaderMap)
    (body : Bytes) (redirectsRemaining : Nat) (calls : List NetCall) :
    Option StoredResponse × List NetCall :=
  match parseUrl url with
  | none => (some (.failed (utf8 "Invalid URL: " ++ url)), calls)
  | some uri =>
      let request : HttpRequest :=
        { url := uri, method := method, body := body, headers := headers }
      let response := (net.doRequest request calls).1
      let calls := (net.doRequest request calls).2
      match redirectsRemaining with
      | 0 => (some response, calls)
      | n + 1 =>
          match response.location options with
          | none => (some response, calls)
          | some location =>
              match resolveRedirect url location with
              | none => (none, calls)
              | some newUrl =>
                  clientDoRequest options (response.redirectMethod method) newUrl headers
                    (response.redirectBody body) n calls

/-- What the public functions have in common. -/
def send (c : HttpClient) (method : Method) (url : Bytes) (headers : HeaderMap) (body : Bytes)
    (calls : List NetCall) : Option StoredResponse × List NetCall :=
  net.clientDoRequest c.options method url headers body c.options.maxRedirects.toNat calls

/-- A call of one of the public functions of the client `c`. -/
def call (c : HttpClient) : HttpClient.Call → List NetCall → Option StoredResponse × List NetCall
  | .get url headers => net.send c .get url headers []
  | .post url headers body => net.send c .post url headers body
  | .put url headers body => net.send c .put url headers body
  | .patch url headers body => net.send c .patch url headers body
  | .delete url headers => net.send c .delete url headers []
  | .head url headers => net.send c .head url headers []

/-- The public calls of a program, by its clients, one after the other. -/
def session : List (HttpClient × HttpClient.Call) → List NetCall → List NetCall
  | [], calls => calls
  | w :: work, calls => session work (net.call w.1 w.2 calls).2

end Network

end CloudGateway.Transport
