import CloudGateway.Json
import CloudGateway.Lib.Regex

/-!
# URLs in `HttpClient`

`parse_url` takes a URL apart with a regular expression, and `resolve_redirect`
puts a new one together from the URL of a request and a `Location`.
-/

namespace CloudGateway.Transport

open Regex

/-- `Url`. -/
structure Url where
  protocol : Bytes
  host : Bytes
  port : Bytes
  /-- The path and the query, as they are requested. -/
  path : Bytes
deriving DecidableEq, Repr

/-! ## `parse_url` -/

/-- `[^:/\?#]` -/
def isHostChar (b : UInt8) : Bool :=
  b != ':'.toUInt8 && b != '/'.toUInt8 && b != '?'.toUInt8 && b != '#'.toUInt8

/-- `\d` -/
def isDigit (b : UInt8) : Bool := '0'.toUInt8 ≤ b && b ≤ '9'.toUInt8

/-- `[^\?#]` -/
def isPathChar (b : UInt8) : Bool := b != '?'.toUInt8 && b != '#'.toUInt8

/-- `[^#]` -/
def isQueryChar (b : UInt8) : Bool := b != '#'.toUInt8

/-- `.`, which stands for anything but a line break. -/
def isAny (b : UInt8) : Bool := b != '\n'.toUInt8 && b != '\r'.toUInt8

/--
`^(https?)://([^:/\?#]+)(?::(\d+))?([^\?#]*)?(?:\?([^#]*))?(?:#(.*))?$`, where
`^` and `$` are what `regex_match` asks for anyway.
-/
def urlRegex : Regex UInt8 :=
  cat [
    group 1 (cat [lit (utf8 "http"), opt (lit (utf8 "s"))]),
    lit (utf8 "://"),
    group 2 (plus (set isHostChar)),
    opt (cat [lit (utf8 ":"), group 3 (plus (set isDigit))]),
    opt (group 4 (star (set isPathChar))),
    opt (cat [lit (utf8 "?"), group 5 (star (set isQueryChar))]),
    opt (cat [lit (utf8 "#"), group 6 (star (set isAny))])]

/-- The port of a protocol that has none in the URL. -/
def defaultPort (protocol : Bytes) : Bytes :=
  if protocol = utf8 "https" then utf8 "443" else utf8 "80"

/-- `parse_url`. -/
def parseUrl (url : Bytes) : Option Url :=
  (urlRegex.fullMatch url).map (fun m =>
    let path := if 0 < (m.text 4).length then m.text 4 else utf8 "/"
    { protocol := m.text 1
      host := m.text 2
      port := if 0 < (m.text 3).length then m.text 3 else defaultPort (m.text 1)
      path := if (m.text 5).isEmpty then path else path ++ utf8 "?" ++ m.text 5 })

/-! ## `resolve_redirect` -/

/-- The `Location` is a URL of its own. -/
def isAbsolute (location : Bytes) : Bool :=
  (utf8 "http://").isPrefixOf location || (utf8 "https://").isPrefixOf location

/-- Protocol, host and port, the port only where it is not the default. -/
def Url.root (u : Url) : Bytes :=
  u.protocol ++ utf8 "://" ++ u.host ++
    (if (u.protocol = utf8 "http" ∧ u.port ≠ utf8 "80")
        ∨ (u.protocol = utf8 "https" ∧ u.port ≠ utf8 "443") then utf8 ":" ++ u.port else [])

/-- `path` up to and with its last slash; `/` if it has none. -/
def directory (path : Bytes) : Bytes :=
  if '/'.toUInt8 ∈ path then (path.reverse.dropWhile (· != '/'.toUInt8)).reverse else utf8 "/"

/-- `resolve_redirect`; `none` where the result of `parse_url` is used and there is none. -/
def resolveRedirect (base location : Bytes) : Option Bytes :=
  if isAbsolute location then some location
  else
    (parseUrl base).map (fun u =>
      if location.head? = some '/'.toUInt8 then u.root ++ location
      else u.root ++ directory u.path ++ location)

end CloudGateway.Transport
