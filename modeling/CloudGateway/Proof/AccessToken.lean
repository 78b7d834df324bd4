import CloudGateway.Proof.CredentialPair

/-!
# The token the vehicle is authenticated with

A login stores its token in memory and tries to save it. The only thing that can
replace it afterwards is the file, read when the backend says that the vehicle
exists already; and that happens once, for then the vehicle is registered.
-/

namespace CloudGateway.Services.CredentialRead

variable [JsonLibrary]

/-- If the vehicle is authenticated, and a token is read, it is the same. -/
def keepsToken (r : CredentialRead) : Bool :=
  match r.session, r.storedToken with
  | some token, some stored => stored == token
  | _, _ => true

end CloudGateway.Services.CredentialRead

namespace CloudGateway.Proof

open Services Transport

variable [JsonLibrary]

/-- `vehicle_access_token()` is the token of the login that has authenticated the vehicle. -/
def TokenKept (w : AuthWorld) : Prop :=
  ∀ token, w.session = some token → w.auth.vechileAccessToken = token

/-! ## Reads -/

theorem storedToken_failed {r : CredentialRead} (h : r.succeeded = false) :
    r.storedToken = none := by
  cases hres : r.result with
  | ok x =>
      simp only [CredentialRead.succeeded, CredentialRead.pair, hres] at h
      exact Bool.noConfusion h
  | error e =>
      simp only [CredentialRead.storedToken, hres]
      rfl

/-- A read that succeeds has read a token exactly if it has read the file. -/
theorem storedToken_succeeded {r : CredentialRead} (h : r.succeeded = true) :
    r.storedToken.isSome = true ↔ r.origin = .loaded := by
  obtain ⟨key, secret, token, hres, _, _, htoken⟩ := result_of_succeeded h
  have hstored : r.storedToken = token := by
    simp only [CredentialRead.storedToken, hres]
    rfl
  rw [hstored]
  exact htoken

theorem storedToken_created {r : CredentialRead} (h : r.origin = .created) :
    r.storedToken = none := by
  cases hok : r.succeeded with
  | false => exact storedToken_failed hok
  | true =>
      rw [← Option.not_isSome_iff_eq_none, storedToken_succeeded hok, h]
      exact fun h => nomatch h

theorem keepsToken_none {r : CredentialRead} (h : r.storedToken = none) : r.keepsToken = true := by
  simp only [CredentialRead.keepsToken, h]
  cases r.session <;> rfl

/-! ## The invariant -/

/-- What the token has to do with the reads so far. -/
structure TokenHistory (w : AuthWorld) : Prop where
  session : w.session.isSome = w.auth.vechileAuthenticated
  kept : (∀ r ∈ w.reads, r.keepsToken = true) → TokenKept w
  /-- A read that has replaced the token was the last that could. -/
  lost : (∃ r ∈ w.reads, r.keepsToken = false) →
    w.auth.vehicleRegistered = true ∧ ¬ TokenKept w

omit [JsonLibrary] in
/-- An authentication is still to come, so there is no token to keep. -/
theorem tokenKept_none {w : AuthWorld} (h : w.session = none) : TokenKept w := by
  intro token htoken
  rw [h] at htoken
  exact nomatch htoken

theorem session_none {w : AuthWorld} (h : TokenHistory w)
    (hauth : w.auth.vechileAuthenticated = false) : w.session = none := by
  rw [← Option.isNone_iff_eq_none, ← Option.not_isSome, h.session, hauth]
  rfl

/-- While the token is kept, no read has replaced it. -/
theorem keepsToken_all {w : AuthWorld} (h : TokenHistory w)
    (hkept : w.auth.vehicleRegistered = false ∨ TokenKept w) :
    ∀ r ∈ w.reads, r.keepsToken = true := by
  intro r hr
  cases hkeep : r.keepsToken with
  | true => rfl
  | false =>
      obtain ⟨hreg, hlost⟩ := h.lost ⟨r, hr, hkeep⟩
      rcases hkept with hnew | hkept
      · rw [hreg] at hnew; exact Bool.noConfusion hnew
      · exact absurd hkept hlost

/-- Of reads that keep the token and one more, only that one can have replaced it. -/
theorem keepsToken_last {rs : List CredentialRead} {x : CredentialRead}
    (hall : ∀ r ∈ rs, r.keepsToken = true) (h : ∃ r ∈ rs ++ [x], r.keepsToken = false) :
    x.keepsToken = false := by
  obtain ⟨r, hr, hlost⟩ := h
  rcases List.mem_append.mp hr with hr | hr
  · rw [hall r hr] at hlost
    exact Bool.noConfusion hlost
  · rwa [List.mem_singleton.mp hr] at hlost

/-- A read that brings no token leaves the one that is there. -/
theorem tokenHistory_read {w : AuthWorld} (h : TokenHistory w) {origin : Origin}
    {text : Option Bytes} (hstored : (w.reading origin text).storedToken = none) :
    TokenHistory (w.afterRead origin text) := by
  have htoken : (w.afterRead origin text).auth.vechileAccessToken = w.auth.vechileAccessToken := by
    simp only [AuthWorld.afterRead, hstored, Option.getD_none]
  refine ⟨h.session, ?_, ?_⟩
  · intro hall token hsession
    rw [htoken]
    exact h.kept (fun r hr => hall r (List.mem_append_left _ hr)) token hsession
  · rintro ⟨r, hr, hlost⟩
    rcases List.mem_append.mp hr with hr | hr
    · obtain ⟨hreg, hgone⟩ := h.lost ⟨r, hr, hlost⟩
      refine ⟨hreg, fun hkept => hgone (fun token hsession => ?_)⟩
      rw [← htoken]
      exact hkept token hsession
    · obtain rfl := List.mem_singleton.mp hr
      rw [keepsToken_none hstored] at hlost
      exact Bool.noConfusion hlost

/-- A read of the file before the vehicle is authenticated replaces no token of a login. -/
theorem tokenHistory_early {w : AuthWorld} (h : TokenHistory w)
    (hauth : w.auth.vechileAuthenticated = false) :
    TokenHistory (w.afterRead .loaded w.file) := by
  have hsession := session_none h hauth
  have hall := keepsToken_all h (.inr (tokenKept_none hsession))
  refine ⟨h.session, fun _ => tokenKept_none hsession, fun hlost => ?_⟩
  have hread := keepsToken_last hall hlost
  simp [CredentialRead.keepsToken, AuthWorld.reading, hsession] at hread

/-- The read of the file of a vehicle that exists keeps the token or replaces it, for good. -/
theorem tokenHistory_existed {w : AuthWorld} (h : TokenHistory w)
    (hnew : w.auth.vehicleRegistered = false)
    (hok : (w.reading .loaded w.file).succeeded = true) :
    TokenHistory (w.afterRead .loaded w.file).setRegistered := by
  have hall := keepsToken_all h (.inl hnew)
  obtain ⟨stored, hstored⟩ :=
    Option.isSome_iff_exists.mp ((storedToken_succeeded hok).mpr rfl)
  have htoken : (w.afterRead .loaded w.file).auth.vechileAccessToken = stored := by
    simp only [AuthWorld.afterRead, hstored, Option.getD_some]
  have hkeeps : (w.reading .loaded w.file).keepsToken = true
      ↔ TokenKept (w.afterRead .loaded w.file).setRegistered := by
    show _ ↔ ∀ token, w.session = some token →
      (w.afterRead .loaded w.file).auth.vechileAccessToken = token
    simp only [CredentialRead.keepsToken, hstored, htoken]
    show (match w.session, some stored with
        | some token, some stored => stored == token
        | _, _ => true) = true ↔ _
    cases w.session with
    | none => simp
    | some token => simp
  refine ⟨h.session, ?_, ?_⟩
  · intro hkeep
    exact hkeeps.mp (hkeep _ (List.mem_append_right _ List.mem_cons_self))
  · refine fun hlost => ⟨rfl, fun hkept => ?_⟩
    have hread := keepsToken_last hall hlost
    rw [hkeeps.mpr hkept] at hread
    exact Bool.noConfusion hread

theorem tokenHistory_effect {w w' : AuthWorld} (h : TokenHistory w) (he : AuthEffect w w') :
    TokenHistory w' := by
  cases he with
  | admin => exact ⟨h.session, h.kept, h.lost⟩
  | request _ => exact ⟨h.session, h.kept, h.lost⟩
  | vehicleLogin _ _ => exact ⟨h.session, h.kept, h.lost⟩
  | outside => exact ⟨h.session, h.kept, h.lost⟩
  | created _ =>
      have hreg : TokenHistory w.setRegistered :=
        ⟨h.session, h.kept, fun hlost => ⟨rfl, (h.lost hlost).2⟩⟩
      exact tokenHistory_read hreg (storedToken_created rfl)
  | existed hnew hok => exact tokenHistory_existed h hnew hok
  | loaded hauth _ => exact tokenHistory_early h hauth
  | loadFailed hfail => exact tokenHistory_read h (storedToken_failed hfail)
  | authenticated hauth =>
      have hall := keepsToken_all h (.inr (tokenKept_none (session_none h hauth)))
      refine ⟨rfl, ?_, ?_⟩
      · exact fun _ token htoken => Option.some.inj htoken
      · rintro ⟨r, hr, hlost⟩
        rw [hall r hr] at hlost
        exact Bool.noConfusion hlost

theorem tokenHistory_reachable {config : Config} {w : AuthWorld}
    (h : (AuthWorld.machine config).Reachable w) : TokenHistory w := by
  refine auth_invariant (P := TokenHistory) ⟨rfl, ?_, ?_⟩ (fun _ _ => tokenHistory_effect) ?_ h
  · exact fun _ => tokenKept_none rfl
  · rintro ⟨r, hr, _⟩
    exact absurd hr List.not_mem_nil
  · exact fun _ _ h => ⟨h.session, h.kept, h.lost⟩

/--
**The token of the login is kept exactly if no read of the file replaces it.** A
read does so when it succeeds, after the vehicle has been authenticated, with
another token than the one of the login.
-/
theorem token_kept_iff {config : Config} {w : AuthWorld}
    (h : (AuthWorld.machine config).Reachable w) :
    TokenKept w ↔ ∀ r ∈ w.reads, r.keepsToken = true :=
  ⟨fun hkept => keepsToken_all (tokenHistory_reachable h) (.inr hkept),
    (tokenHistory_reachable h).kept⟩

omit [JsonLibrary] in
/-- The token of the login is saved, and read again when the vehicle exists already. -/
theorem token_kept_iff_saved :
    ∃ (_ : JsonLibrary) (w : AuthWorld), (AuthWorld.machine {}).Reachable w
      ∧ w.session = some "T" ∧ w.creations.map (fun c => c.returned) = [true]
      ∧ (TokenKept w ↔ ∀ r ∈ w.reads, r.keepsToken = true) ∧ TokenKept w := by
  let stored := utf8 "\x7b\"apiKey\":\"K\",\"apiSecret\":\"S\"\x7d"
  let loggedIn := utf8 "\x7b\"success\":true,\"data\":\x7b\"accessToken\":\"T\"\x7d\x7d"
  let saved := "\x7b\n  \"accessToken\": \"T\",\n  \"apiKey\": \"K\",\n  \"apiSecret\": \"S\"\n\x7d"
  let _ : JsonLibrary := libraryOf (fun _ => saved) [
    (stored, .obj [("apiKey", .str "K"), ("apiSecret", .str "S")]),
    (loggedIn, .obj [("data", .obj [("accessToken", .str "T")]), ("success", .bool true)]),
    (utf8 saved, .obj [("accessToken", .str "T"), ("apiKey", .str "K"), ("apiSecret", .str "S")])]
  obtain ⟨w, hr, hp⟩ := Reactive.Machine.exists_reachable_of_run (M := AuthWorld.machine {})
    (l := [.replaceFile (some stored), .vechileLogin [⟨200, loggedIn⟩] [],
      .setup [⟨200, loggedIn⟩], .createVehicle false false [⟨409, []⟩] []])
    (p := fun w => decide (w.session = some "T" ∧ w.creations.map (fun c => c.returned) = [true]
      ∧ w.reads.all (fun r => r.keepsToken) = true)) (by decide)
  obtain ⟨hsession, hreturned, hall⟩ := of_decide_eq_true hp
  have hiff := token_kept_iff hr
  exact ⟨_, w, hr, hsession, hreturned, hiff, hiff.mpr (List.all_eq_true.mp hall)⟩

omit [JsonLibrary] in
/-- The save of the token fails, and the file still has the one from before. -/
theorem not_tokenKept :
    ¬ ∀ (_ : JsonLibrary) (config : Config) (w : AuthWorld),
      (AuthWorld.machine config).Reachable w → TokenKept w := by
  intro h
  let stored := utf8
    "\x7b\"accessToken\":\"T0\",\"apiKey\":\"K\",\"apiSecret\":\"S\"\x7d"
  let loggedIn := utf8 "\x7b\"success\":true,\"data\":\x7b\"accessToken\":\"T1\"\x7d\x7d"
  let _ : JsonLibrary := libraryOf (fun _ => "") [
    (stored, .obj [("accessToken", .str "T0"), ("apiKey", .str "K"), ("apiSecret", .str "S")]),
    (loggedIn, .obj [("data", .obj [("accessToken", .str "T1")]), ("success", .bool true)])]
  obtain ⟨w, hr, hp⟩ := Reactive.Machine.exists_reachable_of_run (M := AuthWorld.machine {})
    (l := [.replaceFile (some stored), .vechileLogin [⟨200, loggedIn⟩] [.unopened],
      .setup [⟨200, loggedIn⟩], .createVehicle false false [⟨409, []⟩] []])
    (p := fun w => decide (w.session = some "T1" ∧ w.auth.vechileAccessToken = "T0")) (by decide)
  obtain ⟨hsession, htoken⟩ := of_decide_eq_true hp
  have hkept := h _ {} w hr "T1" hsession
  rw [htoken] at hkept
  exact absurd hkept (by decide)

end CloudGateway.Proof
