import CloudGateway.Proof.Dotenv

/-!
# The MQTT port

Three conversions stand between the variable and the port. `std::stoi` reads the
number a text begins with and is content with whatever follows; a number that is
no `int` makes it throw, and the default is taken; any other is cut down to 16
bits without a check. So a text that is no port gives the default only if it
begins with no `int` at all, or with one that happens to be cut down to it.
-/

namespace CloudGateway.Proof

open ConfigDetail

/-! ## The number a text begins with -/

theorem isDigit_iff {b : UInt8} : isDigit b = true ↔ 48 ≤ b.toNat ∧ b.toNat ≤ 57 := by
  simp only [isDigit, Bool.and_eq_true, decide_eq_true_eq, UInt8.le_iff_toNat_le]
  exact Iff.rfl

theorem isSpace_iff {b : UInt8} :
    isSpace b = true ↔ b.toNat = 32 ∨ 9 ≤ b.toNat ∧ b.toNat ≤ 13 := by
  simp only [isSpace, Bool.or_eq_true, Bool.and_eq_true, decide_eq_true_eq, beq_iff_eq,
    UInt8.le_iff_toNat_le, ← UInt8.toNat_inj]
  exact Iff.rfl

/-- Neither a digit nor a sign is white space. -/
theorem isSpace_of_isDigit {b : UInt8} (h : isDigit b = true) : isSpace b = false := by
  have hdigit := isDigit_iff.mp h
  rw [Bool.eq_false_iff]
  intro hspace
  have := isSpace_iff.mp hspace
  omega

/-- A sign, or none. -/
def IsSign (sign : Bytes) : Prop := sign = [] ∨ sign = ['+'.toUInt8] ∨ sign = ['-'.toUInt8]

/-- A text is its sign and what follows it. -/
theorem splitSign_text (text : Bytes) :
    ∃ sign, IsSign sign ∧ text = sign ++ (splitSign text).2
      ∧ (splitSign text).1 = decide (sign = ['-'.toUInt8]) := by
  cases text with
  | nil => exact ⟨[], .inl rfl, rfl, by decide⟩
  | cons b text =>
      by_cases hminus : b = '-'.toUInt8
      · rw [splitSign, if_pos hminus]
        exact ⟨['-'.toUInt8], .inr (.inr rfl), by rw [hminus]; rfl, (decide_eq_true rfl).symm⟩
      · by_cases hplus : b = '+'.toUInt8
        · rw [splitSign, if_neg hminus, if_pos hplus]
          exact ⟨['+'.toUInt8], .inr (.inl rfl), by rw [hplus]; rfl,
            (decide_eq_false (by decide)).symm⟩
        · rw [splitSign, if_neg hminus, if_neg hplus]
          exact ⟨[], .inl rfl, rfl, (decide_eq_false (by decide)).symm⟩

/-- A sign in front of a digit is found. -/
theorem splitSign_sign {sign text : Bytes} (hsign : IsSign sign)
    (h : ∀ b ∈ text.head?, isDigit b = true) :
    splitSign (sign ++ text) = (decide (sign = ['-'.toUInt8]), text) := by
  rcases hsign with rfl | rfl | rfl
  · cases text with
    | nil => rfl
    | cons b text =>
        have hdigit := isDigit_iff.mp (h b rfl)
        have hminus : b ≠ '-'.toUInt8 := by rintro rfl; exact absurd hdigit.1 (by decide)
        have hplus : b ≠ '+'.toUInt8 := by rintro rfl; exact absurd hdigit.1 (by decide)
        rw [List.nil_append, splitSign, if_neg hminus, if_neg hplus]
        rfl
  · rfl
  · rfl

/-- The number `std::stoi` reads, whether it fits or not. -/
def leading (s : Bytes) : Option Int :=
  let (negative, text) := splitSign (s.dropWhile isSpace)
  let digits := text.takeWhile isDigit
  if digits = [] then none
  else some (if negative then -(digitsValue digits : Int) else digitsValue digits)

theorem stoi_eq_some_iff {s : Bytes} {m : Int32} : stoi s = some m ↔ leading s = some m.toInt := by
  have hstoi : stoi s = (leading s).bind (fun n =>
      if h : Int32.minValue.toInt ≤ n ∧ n ≤ Int32.maxValue.toInt then some (.ofIntLE n h.1 h.2)
      else none) := by
    simp only [stoi, leading]
    split <;> rfl
  rw [hstoi]
  cases leading s with
  | none => simp
  | some n =>
      simp only [Option.bind_some, Option.some.injEq]
      constructor
      · intro h
        split at h
        · rw [← Option.some.inj h, Int32.toInt_ofIntLE]
        · exact nomatch h
      · rintro rfl
        rw [dif_pos ⟨m.minValue_le_toInt, m.toInt_le⟩]
        exact congrArg some (Int32.toInt.inj Int32.toInt_ofIntLE)

/-- White space, a sign, and as many digits as there are, are the number `n`. -/
def Begins (s : Bytes) (n : Int) : Prop :=
  ∃ space sign digits rest, s = space ++ (sign ++ (digits ++ rest))
    ∧ (∀ b ∈ space, isSpace b = true) ∧ IsSign sign
    ∧ digits ≠ [] ∧ (∀ b ∈ digits, isDigit b = true)
    ∧ (∀ b ∈ rest.head?, isDigit b = false)
    ∧ n = if sign = ['-'.toUInt8] then -(digitsValue digits : Int) else digitsValue digits

/-- **`std::stoi` reads the number the text begins with.** -/
theorem leading_eq_some_iff {s : Bytes} {n : Int} : leading s = some n ↔ Begins s n := by
  constructor
  · intro h
    obtain ⟨sign, hsign, htext, hminus⟩ := splitSign_text (s.dropWhile isSpace)
    simp only [leading, hminus, decide_eq_true_eq] at h
    split at h
    · exact nomatch h
    rename_i hne
    refine ⟨s.takeWhile isSpace, sign, _, (splitSign (s.dropWhile isSpace)).2.dropWhile isDigit,
      ?_, fun b hb => List.mem_takeWhile_imp hb, hsign, hne,
      fun b hb => List.mem_takeWhile_imp hb, ?_, (Option.some.inj h).symm⟩
    · rw [List.takeWhile_append_dropWhile, ← htext, List.takeWhile_append_dropWhile]
    · intro b hb
      have hdrop := List.head?_dropWhile_not isDigit (splitSign (s.dropWhile isSpace)).2
      rw [Option.mem_def.mp hb] at hdrop
      simpa using hdrop
  · rintro ⟨space, sign, digits, rest, rfl, hspace, hsign, hne, hdigits, hrest, rfl⟩
    have hhead : ∀ b ∈ (digits ++ rest).head?, isDigit b = true := by
      intro b hb
      rw [List.head?_append_of_ne_nil _ hne] at hb
      exact hdigits b (List.mem_of_mem_head? hb)
    have hskip : (space ++ (sign ++ (digits ++ rest))).dropWhile isSpace
        = sign ++ (digits ++ rest) := by
      rw [List.dropWhile_append_of_pos hspace]
      rcases hsign with rfl | rfl | rfl
      · cases htext : digits ++ rest with
        | nil => rfl
        | cons b text =>
            rw [htext] at hhead
            exact List.dropWhile_cons_of_neg (by simp [isSpace_of_isDigit (hhead b rfl)])
      · exact List.dropWhile_cons_of_neg (by decide)
      · exact List.dropWhile_cons_of_neg (by decide)
    have htake : (digits ++ rest).takeWhile isDigit = digits := by
      rw [List.takeWhile_append_of_pos hdigits]
      cases rest with
      | nil => exact List.append_nil digits
      | cons b rest =>
          rw [List.takeWhile_cons_of_neg (by simp [hrest b rfl]), List.append_nil]
    simp only [leading, hskip, splitSign_sign hsign hhead, htake, if_neg hne, decide_eq_true_eq]

/-! ## The port -/

/-- A variable that is set keeps its value when a file is loaded. -/
theorem getenv_loadDotenv_of_set {env : Environment} {key v : Bytes} (h : getenv env key = some v)
    (file : Option Bytes) : getenv (loadDotenv file env) key = some v := by
  have hset : ∀ env name value, getenv env key = some v →
      getenv (setenv name value env) key = some v := by
    intro env name value h
    unfold setenv
    split
    · exact h
    · rw [getenv_append, h, Option.some_or]
  cases file with
  | none => exact h
  | some text =>
      rw [loadDotenv]
      induction lines text generalizing env with
      | nil => exact h
      | cons line rest ih =>
          rw [List.foldl_cons]
          refine ih ?_
          unfold loadLine
          split
          · exact h
          · exact hset env _ _ h

theorem stoi_nil : stoi [] = none := rfl

/-- The port is the number `std::stoi` reads, cut down to 16 bits, or the default if it throws. -/
theorem fromEnv_mqttPort {env : Environment} {s : Bytes}
    (h : getenv env (utf8 "MQTT_PORT") = some s) (files : Bytes → Option Bytes)
    (stod : Bytes → Option Double) :
    (fromEnv files stod env).1.mqttPort = ((stoi s).getD 1883).toUInt32.toUInt16 := by
  have hload := getenv_loadDotenv_of_set h
    (files (envOr env "GATEWAY_ENV_FILE" (utf8 ".env")))
  simp only [fromEnv, envInt, hload]
  split
  · rename_i hnil
    rw [hnil, stoi_nil]
    rfl
  · rfl

/-- Cutting an `int` down to 16 bits is taking it modulo `2^16`. -/
theorem toUInt16_toNat (m : Int32) : (m.toUInt32.toUInt16.toNat : Int) = m.toInt % 65536 := by
  have hbits : m.toUInt32.toNat = m.toBitVec.toNat := rfl
  rw [UInt32.toNat_toUInt16, hbits, Int32.toInt, BitVec.toInt_eq_toNat_bmod]
  have := m.toBitVec.isLt
  simp only [Int.bmod]
  omega

/-- The text is the decimal representation of a port, perhaps with leading zeros. -/
def IsPort (s : Bytes) : Prop := s ≠ [] ∧ (∀ b ∈ s, isDigit b = true) ∧ digitsValue s ≤ 65535

instance (s : Bytes) : Decidable (IsPort s) :=
  decidable_of_iff (s ≠ [] ∧ s.all isDigit = true ∧ digitsValue s ≤ 65535)
    (by rw [IsPort, List.all_eq_true])

/-- The port that is configured: the one the text represents, or the default. -/
def configuredPort (s : Bytes) : UInt16 := if IsPort s then .ofNat (digitsValue s) else 1883

/-- The text is a port, or the `int` it begins with, if any, ends in the same 16 bits as the default. -/
def PortOrNothing (s : Bytes) : Prop :=
  IsPort s ∨ ∀ m : Int32, Begins s m.toInt → m.toInt % 65536 = 1883

theorem begins_of_isPort {s : Bytes} (h : IsPort s) : Begins s (digitsValue s : Int) :=
  ⟨[], [], s, [], by simp, by simp, .inl rfl, h.1, h.2.1, by simp, (if_neg (by decide)).symm⟩

/--
**When the MQTT port is the configured one.** It is for a text that is a port, and
for one that begins with no `int`, or with one that is cut down to the default. Every
other text gives a port that is not the default, though the text is no port.
-/
theorem mqtt_port_iff {env : Environment} {s : Bytes}
    (h : getenv env (utf8 "MQTT_PORT") = some s) (files : Bytes → Option Bytes)
    (stod : Bytes → Option Double) :
    (fromEnv files stod env).1.mqttPort = configuredPort s ↔ PortOrNothing s := by
  rw [fromEnv_mqttPort h, ← UInt16.toNat_inj]
  by_cases hport : IsPort s
  · refine iff_of_true ?_ (.inl hport)
    obtain ⟨m, hm⟩ : ∃ m : Int32, m.toInt = digitsValue s := by
      have hle := hport.2.2
      exact ⟨.ofInt (digitsValue s), Int32.toInt_ofInt_of_le (by omega) (by omega)⟩
    have hstoi : stoi s = some m :=
      stoi_eq_some_iff.mpr (leading_eq_some_iff.mpr (hm ▸ begins_of_isPort hport))
    have hcut := toUInt16_toNat m
    have hle := hport.2.2
    rw [hstoi, Option.getD_some, configuredPort, if_pos hport, UInt16.toNat_ofNat']
    omega
  · rw [configuredPort, if_neg hport]
    have hiff : ∀ m : Int32, m.toUInt32.toUInt16.toNat = (1883 : UInt16).toNat
        ↔ m.toInt % 65536 = 1883 := by
      intro m
      have hcut := toUInt16_toNat m
      have hdefault : (1883 : UInt16).toNat = 1883 := rfl
      omega
    rw [hiff]
    constructor
    · intro hsame
      refine .inr (fun m hm => ?_)
      rwa [stoi_eq_some_iff.mpr (leading_eq_some_iff.mpr hm), Option.getD_some] at hsame
    · rintro (habsurd | hsame)
      · exact absurd habsurd hport
      · cases hstoi : stoi s with
        | none => rfl
        | some m => exact hsame m (leading_eq_some_iff.mp (stoi_eq_some_iff.mp hstoi))

/-- A port with a leading zero. -/
theorem mqtt_port_iff_zero :
    (fromEnv (fun _ => none) (fun _ => none) [(utf8 "MQTT_PORT", utf8 "08883")]).1.mqttPort
      = configuredPort (utf8 "08883") :=
  (mqtt_port_iff (by decide) _ _).mpr (.inl (by decide))

/-- One more than the largest port is port 0. -/
theorem not_mqttPort_configured :
    ¬ ∀ (files : Bytes → Option Bytes) (stod : Bytes → Option Double) (env : Environment)
      (s : Bytes), getenv env (utf8 "MQTT_PORT") = some s →
      (fromEnv files stod env).1.mqttPort = configuredPort s := by
  intro h
  have hport := h (fun _ => none) (fun _ => none) [(utf8 "MQTT_PORT", utf8 "65536")]
    (utf8 "65536") (by decide)
  rw [fromEnv_mqttPort (s := utf8 "65536") (by decide)] at hport
  exact absurd hport (by decide)

end CloudGateway.Proof
