import CloudGateway.Proof.Dotenv

/-!
# Where a setting comes from

`from_env` loads a file into the environment and then reads every member of
`Config` from there. Whatever bytes the file holds, a variable is then what the
environment has it, or else what the first line that assigns it says; and a member
is read from its variable, or has its default where that is unset, empty or not
the number it should be. So a variable that is set and empty hides the file as
well: its member gets the default.
-/

namespace CloudGateway.Proof

open ConfigDetail

/-! ## Any file -/

/-- The value that a line assigns to a variable, as far as C reads both. -/
def lineValue (key line : Bytes) : Option Bytes :=
  (assignment line).bind (fun a => if cStr a.1 = key then some (cStr a.2) else none)

/-- The value of the first line of a file that assigns a variable. -/
def fileValue (key : Bytes) (file : Option Bytes) : Option Bytes :=
  file.bind (fun text => (lines text).findSome? (lineValue key))

/-- What comes before an `=` has none. -/
theorem assignment_key {line key val : Bytes} (h : assignment line = some (key, val)) :
    '='.toUInt8 ∉ key := by
  unfold assignment at h
  simp only at h
  split at h
  · exact absurd h (by simp)
  split at h
  · exact absurd h (by simp)
  split at h
  · exact absurd h (by simp)
  split at h
  · exact absurd h (by simp)
  obtain ⟨rfl, _⟩ := Prod.mk.inj (Option.some.inj h)
  intro hmem
  have htake := List.mem_takeWhile_imp ((List.rdropWhile_prefix _ _).subset hmem)
  exact absurd htake (by decide)

/-- **A line sets the variable it assigns, if that is not set, and no other.** -/
theorem getenv_loadLine_any {key : Bytes} (hkey : key ≠ []) (env : Environment) (line : Bytes) :
    getenv (loadLine env line) key = (getenv env key).or (lineValue key line) := by
  rw [loadLine, lineValue]
  cases ha : assignment line with
  | none => exact (Option.or_none).symm
  | some a =>
      obtain ⟨name, val⟩ := a
      have heq : '='.toUInt8 ∉ cStr name :=
        fun h => assignment_key ha ((List.takeWhile_prefix _).subset h)
      show getenv (setenv (cStr name) (cStr val) env) key = _
      by_cases hname : cStr name = []
      · rw [setenv, if_pos (.inl hname), Option.bind_some,
          if_neg (fun h => hkey (h.symm.trans hname)), Option.or_none]
      · rw [getenv_setenv hname heq, Option.bind_some]
        simp only [eq_comm]

/-- **Loading any file is an overlay:** what is set stays, and the rest is what the file says. -/
theorem getenv_loadDotenv {key : Bytes} (hkey : key ≠ []) (file : Option Bytes)
    (env : Environment) :
    getenv (loadDotenv file env) key = (getenv env key).or (fileValue key file) := by
  cases file with
  | none => exact (Option.or_none).symm
  | some text =>
      rw [loadDotenv, fileValue, Option.bind_some]
      induction lines text generalizing env with
      | nil => exact (Option.or_none).symm
      | cons line rest ih =>
          have hfirst : (line :: rest).findSome? (lineValue key)
              = (lineValue key line).or (rest.findSome? (lineValue key)) := by
            rw [List.findSome?_cons]
            cases lineValue key line with
            | none => rfl
            | some v => rfl
          rw [List.foldl_cons, ih, getenv_loadLine_any hkey, Option.or_assoc, hfirst]

/-! ## The members -/

/-- A member of `Config`, its variable, and how that is read. -/
structure Member where
  {type : Type}
  get : Settings → type
  /-- Of the variable. -/
  name : String
  /-- `none` where reading the value throws. -/
  read : Bytes → Option type

/-- What a member is, if its variable has this value. -/
def Member.from (m : Member) (value : Option Bytes) : m.type :=
  (value.bind (fun v => if v = [] then none else m.read v)).getD (m.get {})

/-- A member that is a string. -/
def textMember (get : Settings → Bytes) (name : String) : Member := ⟨get, name, some⟩

/-- All members. -/
def members (stod : Bytes → Option Double) : List Member := [
  textMember (·.vinNumber) "VIN_NUMBER",
  textMember (·.mqttBroker) "MQTT_BROKER",
  ⟨(·.mqttPort), "MQTT_PORT", fun v => (stoi v).map (·.toUInt32.toUInt16)⟩,
  textMember (·.mqttClientId) "MQTT_CLIENT_ID",
  textMember (·.autowareGrpcAddr) "AUTOWARE_GRPC_ADDR",
  textMember (·.grpcListen) "GRPC_LISTEN",
  textMember (·.zenohConnect) "ZENOH_CONNECT",
  textMember (·.baseUrl) "BASE_URL",
  textMember (·.adminEmail) "ADMIN_EMAIL",
  textMember (·.adminPassword) "ADMIN_PASSWORD",
  textMember (·.adminFirstName) "ADMIN_FIRST_NAME",
  textMember (·.adminLastName) "ADMIN_LAST_NAME",
  textMember (·.adminPhone) "ADMIN_PHONE",
  textMember (·.verifyCode) "VERIFY_CODE",
  textMember (·.plateNo) "PLATE_NO",
  textMember (·.color) "COLOR",
  textMember (·.carCompany) "CAR_COMPANY",
  textMember (·.model) "MODEL",
  ⟨(·.seatNo), "SEAT_NO", stoi⟩,
  ⟨(·.startLat), "START_LAT", stod⟩,
  ⟨(·.startLon), "START_LON", stod⟩]

theorem envOr_eq (env : Environment) (get : Settings → Bytes) (name : String) :
    envOr env name (get {}) = (textMember get name).from (getenv env (utf8 name)) := by
  rw [envOr, Member.from]
  cases getenv env (utf8 name) with
  | none => rfl
  | some v => rw [Option.bind_some]; dsimp only; split <;> rfl

theorem envDouble_eq (stod : Bytes → Option Double) (env : Environment) (get : Settings → Double)
    (name : String) :
    envDouble stod env name (get {}) =
      (⟨get, name, stod⟩ : Member).from (getenv env (utf8 name)) := by
  rw [envDouble, Member.from]
  cases getenv env (utf8 name) with
  | none => rfl
  | some v => rw [Option.bind_some]; dsimp only; split <;> rfl

theorem envInt_eq (env : Environment) (get : Settings → Int32) (name : String) :
    envInt env name (get {}) = (⟨get, name, stoi⟩ : Member).from (getenv env (utf8 name)) := by
  rw [envInt, Member.from]
  cases getenv env (utf8 name) with
  | none => rfl
  | some v => rw [Option.bind_some]; dsimp only; split <;> rfl

/-- The port is read as an `int`, and what is read is cut down to 16 bits. -/
theorem envPort_eq (env : Environment) (name : String) :
    (envInt env name (.ofNat ({} : Settings).mqttPort.toNat)).toUInt32.toUInt16
      = (⟨(·.mqttPort), name, fun v => (stoi v).map (·.toUInt32.toUInt16)⟩ : Member).from
          (getenv env (utf8 name)) := by
  rw [envInt, Member.from]
  cases getenv env (utf8 name) with
  | none => rfl
  | some v =>
      rw [Option.bind_some]
      dsimp only
      split
      · rfl
      · cases stoi v <;> rfl

/-- `from_env` reads every member from the environment the file has been loaded into. -/
theorem fromEnv_members (files : Bytes → Option Bytes) (stod : Bytes → Option Double)
    (env : Environment) (m : Member) (h : m ∈ members stod) :
    m.get (fromEnv files stod env).1 =
      m.from (getenv (fromEnv files stod env).2 (utf8 m.name)) := by
  revert m
  simp only [members, List.forall_mem_cons]
  refine ⟨envOr_eq _ (·.vinNumber) _, envOr_eq _ (·.mqttBroker) _, envPort_eq _ _,
    envOr_eq _ (·.mqttClientId) _, envOr_eq _ (·.autowareGrpcAddr) _, envOr_eq _ (·.grpcListen) _,
    envOr_eq _ (·.zenohConnect) _, envOr_eq _ (·.baseUrl) _, envOr_eq _ (·.adminEmail) _,
    envOr_eq _ (·.adminPassword) _, envOr_eq _ (·.adminFirstName) _,
    envOr_eq _ (·.adminLastName) _, envOr_eq _ (·.adminPhone) _, envOr_eq _ (·.verifyCode) _,
    envOr_eq _ (·.plateNo) _, envOr_eq _ (·.color) _, envOr_eq _ (·.carCompany) _,
    envOr_eq _ (·.model) _, envInt_eq _ (·.seatNo) _, envDouble_eq stod _ (·.startLat) _,
    envDouble_eq stod _ (·.startLon) _, ?_⟩
  exact fun _ h => absurd h List.not_mem_nil

theorem members_named (stod : Bytes → Option Double) : ∀ m ∈ members stod, utf8 m.name ≠ [] := by
  simp only [members, List.forall_mem_cons]
  decide

/-- No member is left out. -/
theorem settings_ext (stod : Bytes → Option Double) {s t : Settings}
    (h : ∀ m ∈ members stod, m.get s = m.get t) : s = t := by
  simp only [members, List.forall_mem_cons] at h
  cases s
  cases t
  simp_all [textMember]

/--
**Environment, file, default.** For every environment, every file, of any bytes, and
every member of `Config`: `from_env` reads it from the value its variable has in the
environment, or else from what the first line of the file that assigns the variable
says; where there is neither, or the value is empty or cannot be read, the member
has its default. Which file that is, is up to the environment alone. The process is
left with exactly these values, and the settings are determined by them.
-/
theorem settings_layered (files : Bytes → Option Bytes) (stod : Bytes → Option Double)
    (env : Environment) :
    let file := files (envOr env "GATEWAY_ENV_FILE" (utf8 ".env"))
    (∀ m ∈ members stod, m.get (fromEnv files stod env).1
        = m.from ((getenv env (utf8 m.name)).or (fileValue (utf8 m.name) file)))
      ∧ (∀ key ≠ [], getenv (fromEnv files stod env).2 key
          = (getenv env key).or (fileValue key file))
      ∧ ∀ s, (∀ m ∈ members stod,
          m.get s = m.from ((getenv env (utf8 m.name)).or (fileValue (utf8 m.name) file))) →
          s = (fromEnv files stod env).1 := by
  intro file
  have hload : ∀ key ≠ [], getenv (fromEnv files stod env).2 key
      = (getenv env key).or (fileValue key file) :=
    fun key hkey => getenv_loadDotenv hkey file env
  have hmembers : ∀ m ∈ members stod, m.get (fromEnv files stod env).1
      = m.from ((getenv env (utf8 m.name)).or (fileValue (utf8 m.name) file)) := by
    intro m hm
    rw [fromEnv_members files stod env m hm, hload _ (members_named stod m hm)]
  refine ⟨hmembers, hload, fun s hs => settings_ext stod (fun m hm => ?_)⟩
  rw [hs m hm, hmembers m hm]

end CloudGateway.Proof
