import CloudGateway.Json
import Mathlib.Data.List.DropRight

/-!
# `Config`

The settings the backend is called with. The other members of `Config` are the
addresses of the transports and are not used by the services. Before they are
read from the environment, a `.env` file is loaded into it. `Settings` has all the
members, as `from_env` reads them.
-/

namespace CloudGateway

structure Config where
  -- vehicle identity
  vinNumber : String := "ORIN_NANO_001"
  -- auth and HTTP backend
  baseUrl : String := "https://yaquod.duckdns.org"
  adminEmail : String := ""
  adminPassword : String := ""
  adminFirstName : String := ""
  adminLastName : String := ""
  adminPhone : String := ""
  verifyCode : String := ""
  -- vehicle registration
  plateNo : String := ""
  color : String := ""
  carCompany : String := ""
  model : String := ""
  seatNo : Int32 := 4
deriving DecidableEq, Repr, Inhabited

/-! ## The environment of the process -/

/-- Names and values, the first one of a name counting. -/
abbrev Environment := List (Bytes × Bytes)

/-- `std::getenv`. -/
def getenv (env : Environment) (name : Bytes) : Option Bytes := env.lookup name

/-- `s.c_str()`, as far as C reads it. -/
def cStr (s : Bytes) : Bytes := s.takeWhile (· != 0)

/-- `setenv(name, value, 0)`. A name that is empty or has an `=` is refused. -/
def setenv (name value : Bytes) (env : Environment) : Environment :=
  if name = [] ∨ '='.toUInt8 ∈ name ∨ (getenv env name).isSome = true then env
  else env ++ [(name, value)]

namespace ConfigDetail

/-- Space and tab. -/
def isBlank (b : UInt8) : Bool := b == ' '.toUInt8 || b == '\t'.toUInt8

/-- What is taken from the end of a value. -/
def isTrailing (b : UInt8) : Bool := b == '\r'.toUInt8 || b == '\n'.toUInt8 || isBlank b

/-- The lines that `std::getline` gives; a line break at the end begins no further one. -/
def lines : Bytes → List Bytes
  | [] => []
  | b :: text =>
      if b = '\n'.toUInt8 then [] :: lines text
      else
        match lines text with
        | [] => [[b]]
        | line :: rest => (b :: line) :: rest

/-- The value between two quotes of one kind, and any other value as it is. -/
def unquote (val : Bytes) : Bytes :=
  if 2 ≤ val.length
      ∧ ((val.head? = some '"'.toUInt8 ∧ val.getLast? = some '"'.toUInt8)
        ∨ (val.head? = some '\''.toUInt8 ∧ val.getLast? = some '\''.toUInt8)) then
    (val.drop 1).take (val.length - 2)
  else val

/-- The key and the value of a line, if it has any. -/
def assignment (line : Bytes) : Option (Bytes × Bytes) :=
  -- `line` from `begin` on
  let text := line.dropWhile isBlank
  if text = [] then none
  else if text.head? = some '#'.toUInt8 then none
  else if '='.toUInt8 ∉ text then none
  else
    let key := (text.takeWhile (· != '='.toUInt8)).rdropWhile isBlank
    let val := (text.dropWhile (· != '='.toUInt8)).tail.rdropWhile isTrailing
    if key = [] then none else some (key, unquote val)

/-- One line of the file. -/
def loadLine (env : Environment) (line : Bytes) : Environment :=
  match assignment line with
  | none => env
  | some (key, val) => setenv (cStr key) (cStr val) env

/-- `load_dotenv`, with what the file at the path holds; a missing one is a no-op. -/
def loadDotenv (file : Option Bytes) (env : Environment) : Environment :=
  match file with
  | none => env
  | some text => (lines text).foldl loadLine env

/-! ## Numbers in the environment -/

/-- `std::isspace`. -/
def isSpace (b : UInt8) : Bool := b == ' '.toUInt8 || ('\t'.toUInt8 ≤ b && b ≤ '\r'.toUInt8)

/-- `std::isdigit`. -/
def isDigit (b : UInt8) : Bool := '0'.toUInt8 ≤ b && b ≤ '9'.toUInt8

/-- The number that digits write. -/
def digitsValue (digits : Bytes) : Nat :=
  digits.foldl (fun n b => 10 * n + (b.toNat - '0'.toNat)) 0

/-- Whether a minus sign stands in front, and what follows the sign. -/
def splitSign : Bytes → Bool × Bytes
  | [] => (false, [])
  | b :: text =>
      if b = '-'.toUInt8 then (true, text)
      else if b = '+'.toUInt8 then (false, text)
      else (false, b :: text)

/--
`std::stoi`: white space, a sign and the digits up to the first other character.
It throws, here `none`, if there is no digit or the number does not fit an `int`.
-/
def stoi (s : Bytes) : Option Int32 :=
  let (negative, text) := splitSign (s.dropWhile isSpace)
  let digits := text.takeWhile isDigit
  let n : Int := if negative then -digitsValue digits else digitsValue digits
  if digits = [] then none
  else if h : Int32.minValue.toInt ≤ n ∧ n ≤ Int32.maxValue.toInt then some (.ofIntLE n h.1 h.2)
  else none

/-- `env_or`. -/
def envOr (env : Environment) (key : String) (fallback : Bytes) : Bytes :=
  match getenv env (utf8 key) with
  | none => fallback
  | some v => if v = [] then fallback else v

/-- `env_int`. -/
def envInt (env : Environment) (key : String) (fallback : Int32) : Int32 :=
  match getenv env (utf8 key) with
  | none => fallback
  | some v => if v = [] then fallback else (stoi v).getD fallback

/-- `env_double`; `stod` is `std::stod`, `none` where it throws. -/
def envDouble (stod : Bytes → Option Double) (env : Environment) (key : String)
    (fallback : Double) : Double :=
  match getenv env (utf8 key) with
  | none => fallback
  | some v => if v = [] then fallback else (stod v).getD fallback

end ConfigDetail

/-! ## `from_env` -/

/-- All members of `Config`, with their defaults. A variable may hold any bytes. -/
structure Settings where
  -- vehicle identity
  vinNumber : Bytes := utf8 "ORIN_NANO_001"
  -- MQTT
  mqttBroker : Bytes := utf8 "localhost"
  mqttPort : UInt16 := 1883
  mqttClientId : Bytes := utf8 "vehicle_gateway"
  autowareGrpcAddr : Bytes := utf8 "127.0.0.1:50051"
  -- gRPC
  grpcListen : Bytes := utf8 "0.0.0.0:50051"
  -- Zenoh
  zenohConnect : Bytes := utf8 "udp/127.0.0.1:7447"
  -- auth and HTTP backend
  baseUrl : Bytes := utf8 "https://yaquod.duckdns.org"
  adminEmail : Bytes := []
  adminPassword : Bytes := []
  adminFirstName : Bytes := []
  adminLastName : Bytes := []
  adminPhone : Bytes := []
  verifyCode : Bytes := []
  -- vehicle registration
  plateNo : Bytes := []
  color : Bytes := []
  carCompany : Bytes := []
  model : Bytes := []
  seatNo : Int32 := 4
  -- vehicle fixed start: 35.68677918 and 139.69154336
  startLat : Double := ⟨0x4041d7e86152d63c⟩
  startLon : Double := ⟨0x406176211f8a5ee9⟩
deriving DecidableEq, Repr

open ConfigDetail in
/-- `Config::from_env`, with the files that can be opened; the environment keeps what is loaded. -/
def fromEnv (files : Bytes → Option Bytes) (stod : Bytes → Option Double) (env : Environment) :
    Settings × Environment :=
  let env := loadDotenv (files (envOr env "GATEWAY_ENV_FILE" (utf8 ".env"))) env
  let c : Settings := {}
  ({ vinNumber := envOr env "VIN_NUMBER" c.vinNumber
     mqttBroker := envOr env "MQTT_BROKER" c.mqttBroker
     -- `static_cast<uint16_t>` of the `int`
     mqttPort := (envInt env "MQTT_PORT" (.ofNat c.mqttPort.toNat)).toUInt32.toUInt16
     mqttClientId := envOr env "MQTT_CLIENT_ID" c.mqttClientId
     autowareGrpcAddr := envOr env "AUTOWARE_GRPC_ADDR" c.autowareGrpcAddr
     grpcListen := envOr env "GRPC_LISTEN" c.grpcListen
     zenohConnect := envOr env "ZENOH_CONNECT" c.zenohConnect
     baseUrl := envOr env "BASE_URL" c.baseUrl
     adminEmail := envOr env "ADMIN_EMAIL" c.adminEmail
     adminPassword := envOr env "ADMIN_PASSWORD" c.adminPassword
     adminFirstName := envOr env "ADMIN_FIRST_NAME" c.adminFirstName
     adminLastName := envOr env "ADMIN_LAST_NAME" c.adminLastName
     adminPhone := envOr env "ADMIN_PHONE" c.adminPhone
     verifyCode := envOr env "VERIFY_CODE" c.verifyCode
     plateNo := envOr env "PLATE_NO" c.plateNo
     color := envOr env "COLOR" c.color
     carCompany := envOr env "CAR_COMPANY" c.carCompany
     model := envOr env "MODEL" c.model
     seatNo := envInt env "SEAT_NO" c.seatNo
     startLat := envDouble stod env "START_LAT" c.startLat
     startLon := envDouble stod env "START_LON" c.startLon }, env)

end CloudGateway
