import CloudGateway.Proof.AuthEffects
import CloudGateway.Proof.JsonAccess

/-!
# The credentials file across a save

`save_vehicle_credentials` truncates the file before it writes, and does not look
at the stream after writing. Whatever happens to a save, what is left of it is how
many bytes have arrived (`SaveOutcome`) and whether the process has stopped before
it could return. `restored` is what a new service then finds.
-/

namespace CloudGateway.Proof

open Services JsonLibrary

/-- The key, the secret and the token. -/
def triple (a : AuthService) : String × String × String :=
  (a.vechileApiKey, a.vechileApiSecret, a.vechileAccessToken)

variable [JsonLibrary]

/-- What `load_vehicle_credentials` of a new service restores from a file, if it returns `true`. -/
def restored (config : Config) (file : Option Bytes) : Option (String × String × String) :=
  let w : AuthWorld := { AuthWorld.start config with file := file }
  if w.loadVehicleCredentials.1 then some (triple w.loadVehicleCredentials.2.auth) else none

/-- What a save that runs to its end writes. -/
def savedText (a : AuthService) : Bytes := utf8 (dumpIndent 2 (.object (credentialsFields a)))

/--
A save that returns `true` has saved what is in memory; any other, also one in
which the process stops, has lost nothing.
-/
def Lossless (w : AuthWorld) (outcome : SaveOutcome) (stopped : Bool) : Prop :=
  let (returned, w') := w.saveVehicleCredentials outcome
  restored w.auth.config w'.file
    = if returned && !stopped then some (triple w.auth) else restored w.auth.config w.file

/--
The file is not opened; or every byte arrives, and if the process stops after
that, the file has had the same credentials before.
-/
def SavesAll (w : AuthWorld) (stopped : Bool) : SaveOutcome → Prop
  | .unopened => True
  | .opened written =>
      (savedText w.auth).length ≤ written
        ∧ (stopped = true → restored w.auth.config w.file = some (triple w.auth))

/-! ## What is restored -/

omit [JsonLibrary] in
theorem value_of_at {α : Type} {j v : Json} {key : String} (h : j.at key = .ok v)
    (read : Json → Except JsonException α) (fallback : α) :
    j.value key read fallback = read v := by
  obtain ⟨members, rfl, hlookup⟩ := at_ok_iff.mp h
  simp only [Json.value, hlookup]

/-- A file with the three members restores them. -/
theorem restored_of_members {config : Config} {text : Bytes} {j : Json}
    {key secret token : String} (hparse : parse text = .ok j)
    (hkey : j.at "apiKey" = .ok (.str key)) (hsecret : j.at "apiSecret" = .ok (.str secret))
    (htoken : j.at "accessToken" = .ok (.str token)) :
    restored config (some text) = some (key, secret, token) := by
  let w : AuthWorld := { AuthWorld.start config with file := some text }
  have hdoc : (w.reading .loaded (some text)).document = .ok j := hparse
  have hkey' : readApiKey (w.reading .loaded (some text)).document = .ok key := by
    rw [hdoc]
    exact bind_ok_iff.mpr ⟨j, rfl, bind_ok_iff.mpr ⟨_, hkey, rfl⟩⟩
  have hsecret' : readApiSecret (w.reading .loaded (some text)).document = .ok secret := by
    rw [hdoc]
    exact bind_ok_iff.mpr ⟨j, rfl, bind_ok_iff.mpr ⟨_, hsecret, rfl⟩⟩
  have htoken' : readAccessToken (w.reading .loaded (some text)).document = .ok token := by
    rw [hdoc]
    exact bind_ok_iff.mpr ⟨j, rfl, value_of_at htoken _ _⟩
  obtain ⟨hafter, hok⟩ := afterRead_loaded hkey' hsecret' htoken'
  have hload : w.loadVehicleCredentials
      = (true, (((w.beginRead .loaded (some text)).setApiKey key).setApiSecret
          secret).setAccessToken token) :=
    (load_spec w).trans (Prod.ext hok hafter)
  simp only [restored]
  rw [hload]
  rfl

/-- A file that cannot be parsed restores nothing. -/
theorem restored_of_error {config : Config} {text : Bytes} {e : JsonException}
    (hparse : parse text = .error e) : restored config (some text) = none := by
  let w : AuthWorld := { AuthWorld.start config with file := some text }
  have hkey : readApiKey (w.reading .loaded (some text)).document = .error e := by
    have hdoc : (w.reading .loaded (some text)).document = .error e := hparse
    rw [hdoc]
    rfl
  have hfail : w.loadVehicleCredentials.1 = false := by
    rw [load_spec]
    exact (afterRead_error hkey).2
  simp only [restored]
  rw [hfail]
  rfl

/-- What a save writes in full restores what was in memory. -/
theorem restored_savedText {a : AuthService} (config : Config)
    (hjson : Undoes (dumpIndent 2) (credentialsFields a)) :
    restored config (some (savedText a)) = some (triple a) := by
  have hparse := hjson (by simp [credentialsFields, Plain])
  have hat : ∀ {key v}, (key, v) ∈ credentialsFields a →
      (Json.object ((credentialsFields a).map (fun f => (f.1, reread f.2)))).at key
        = .ok (reread v) := fun h => reread_at (by simp [credentialsFields]) h
  exact restored_of_members hparse
    (hat (v := .str a.vechileApiKey) (by simp [credentialsFields]))
    (hat (v := .str a.vechileApiSecret) (by simp [credentialsFields]))
    (hat (v := .str a.vechileAccessToken) (by simp [credentialsFields]))

/--
**A save is lossless exactly if every byte arrives or the file is left alone.** A
save that truncates the file and then writes less has lost what was there, and
says `true` if it returns.
-/
theorem save_lossless_iff (w : AuthWorld) (outcome : SaveOutcome) (stopped : Bool)
    {earlier : String × String × String} (hearlier : restored w.auth.config w.file = some earlier)
    (hjson : Undoes (dumpIndent 2) (credentialsFields w.auth))
    (hcut : ∀ n < (savedText w.auth).length, ∃ e, parse ((savedText w.auth).take n) = .error e) :
    Lossless w outcome stopped ↔ SavesAll w stopped outcome := by
  cases outcome with
  | unopened => exact ⟨fun _ => trivial, fun _ => rfl⟩
  | opened written =>
      show restored w.auth.config (some ((savedText w.auth).take written))
          = (if (true && !stopped) = true then some (triple w.auth)
            else restored w.auth.config w.file) ↔ _
      rcases Nat.lt_or_ge written (savedText w.auth).length with hlt | hge
      · -- bytes are missing, so nothing can be restored
        obtain ⟨e, he⟩ := hcut written hlt
        rw [restored_of_error he, hearlier]
        refine ⟨fun h => ?_, fun h => absurd h.1 (by omega)⟩
        cases stopped with
        | true => exact nomatch h
        | false => exact nomatch h
      · rw [List.take_of_length_le hge, restored_savedText _ hjson]
        cases stopped with
        | true =>
            exact ⟨fun h => ⟨hge, fun _ => h.symm⟩, fun h => (h.2 rfl).symm⟩
        | false => exact ⟨fun _ => ⟨hge, fun h => Bool.noConfusion h⟩, fun _ => rfl⟩

omit [JsonLibrary] in
/-- A save of a new token, in full and after three bytes. -/
theorem save_lossless_iff_token :
    ∃ (_ : JsonLibrary) (w : AuthWorld),
      restored w.auth.config w.file = some ("K", "S", "T0") ∧ triple w.auth = ("K", "S", "T1")
      ∧ Lossless w (.opened 66) false ∧ ¬ Lossless w (.opened 3) false := by
  let stored := utf8
    "\x7b\"accessToken\":\"T0\",\"apiKey\":\"K\",\"apiSecret\":\"S\"\x7d"
  let saved :=
    "\x7b\n  \"accessToken\": \"T1\",\n  \"apiKey\": \"K\",\n  \"apiSecret\": \"S\"\n\x7d"
  let _ : JsonLibrary := libraryOf (fun _ => saved) [
    (utf8 saved, .obj [("accessToken", .str "T1"), ("apiKey", .str "K"), ("apiSecret", .str "S")]),
    (stored, .obj [("accessToken", .str "T0"), ("apiKey", .str "K"), ("apiSecret", .str "S")])]
  let w : AuthWorld := { AuthWorld.start {} with
    file := some stored
    auth := { AuthService.new {} with
      vechileApiKey := "K", vechileApiSecret := "S", vechileAccessToken := "T1" } }
  have hearlier : restored w.auth.config w.file = some ("K", "S", "T0") := by decide
  have hjson : Undoes (dumpIndent 2) (credentialsFields w.auth) := by
    intro _
    simp only [credentialsFields, List.map_cons, List.map_nil, reread, w]
    rfl
  have hcut : ∀ n < (savedText w.auth).length,
      ∃ e, parse ((savedText w.auth).take n) = .error e := by
    intro n hn
    have hother : ∀ n < (utf8 saved).length,
        (utf8 saved).take n ≠ utf8 saved ∧ (utf8 saved).take n ≠ stored := by decide
    obtain ⟨hsaved, hstored⟩ := hother n hn
    exact ⟨.parseError, parse_libraryOf_none
      (List.forall_mem_cons.mpr ⟨hsaved, List.forall_mem_singleton.mpr hstored⟩)⟩
  refine ⟨_, w, hearlier, rfl, ?_, ?_⟩
  · exact (save_lossless_iff w _ _ hearlier hjson hcut).mpr
      ⟨by decide, fun h => Bool.noConfusion h⟩
  · intro hlossless
    obtain ⟨hall, _⟩ := (save_lossless_iff w _ _ hearlier hjson hcut).mp hlossless
    exact absurd hall (by decide)

omit [JsonLibrary] in
/-- The disk is full: the save returns `true` and the file is empty. -/
theorem not_lossless :
    ¬ ∀ (_ : JsonLibrary) (w : AuthWorld) (outcome : SaveOutcome) (stopped : Bool),
      (restored w.auth.config w.file).isSome = true →
      Undoes (dumpIndent 2) (credentialsFields w.auth) → Lossless w outcome stopped := by
  intro h
  let stored := utf8
    "\x7b\"accessToken\":\"T0\",\"apiKey\":\"K\",\"apiSecret\":\"S\"\x7d"
  let saved :=
    "\x7b\n  \"accessToken\": \"T1\",\n  \"apiKey\": \"K\",\n  \"apiSecret\": \"S\"\n\x7d"
  let _ : JsonLibrary := libraryOf (fun _ => saved) [
    (utf8 saved, .obj [("accessToken", .str "T1"), ("apiKey", .str "K"), ("apiSecret", .str "S")]),
    (stored, .obj [("accessToken", .str "T0"), ("apiKey", .str "K"), ("apiSecret", .str "S")])]
  let w : AuthWorld := { AuthWorld.start {} with
    file := some stored
    auth := { AuthService.new {} with
      vechileApiKey := "K", vechileApiSecret := "S", vechileAccessToken := "T1" } }
  have hjson : Undoes (dumpIndent 2) (credentialsFields w.auth) := by
    intro _
    simp only [credentialsFields, List.map_cons, List.map_nil, reread, w]
    rfl
  have hlossless : Lossless w (.opened 0) false := h _ w (.opened 0) false (by decide) hjson
  have hempty : restored w.auth.config (some []) = none := by decide
  have hnone : restored w.auth.config (some []) = some (triple w.auth) := hlossless
  rw [hempty] at hnone
  exact absurd hnone (by simp)

end CloudGateway.Proof
