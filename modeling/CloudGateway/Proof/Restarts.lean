import CloudGateway.Proof.CredentialPair
import CloudGateway.Proof.CredentialsFile
import CloudGateway.Proof.CurrentToken
import CloudGateway.Services.Restarts

/-!
# Credentials across restarts

A vehicle is created once, and the backend never tells its key and secret again. So
they have to come from the file from then on, however often the process starts.
`Kept` is what makes that so: once a 201 response has brought a key and a secret,
the file holds the last such pair, and memory holds that pair or, after a restart,
nothing. It takes an undisturbed run: every save arrives, nobody else writes the
file, and no 201 response brings a key without a secret.
-/

namespace CloudGateway.Services

open Transport

/-- The pair that a 201 response has brought. -/
def CredentialRead.brought [JsonLibrary] (r : CredentialRead) : Option (String × String) :=
  if r.origin = .created then r.pair else none

/-- The pair that the last complete 201 response has brought, in whatever life of the process. -/
def AuthWorld.issued [JsonLibrary] (w : AuthWorld) : Option (String × String) :=
  (w.reads.filterMap CredentialRead.brought).getLast?

/-- How far the saves of a call get. -/
def AuthWorld.Action.saves : Action → List SaveOutcome
  | setup _ => []
  | createVehicle _ _ _ saves => saves
  | vechileLogin _ saves => saves
  | replaceFile _ => []

end CloudGateway.Services

namespace CloudGateway.Proof

open Services Transport JsonLibrary Reactive

/-- A 201 response that brings the key brings the secret as well. -/
def Whole [JsonLibrary] (resp : HttpResponse) : Prop :=
  resp.statusCode = 201 → (readApiKey (createdDocument resp.body)).isOk = true →
    (readApiSecret (createdDocument resp.body)).isOk = true

instance [JsonLibrary] (resp : HttpResponse) : Decidable (Whole resp) :=
  inferInstanceAs (Decidable (_ → _ → _))

variable [JsonLibrary]

/-- What a save of these credentials writes can be parsed again. -/
def Legible (a : AuthService) : Prop := Undoes (dumpIndent 2) (credentialsFields a)

/-- Nobody else writes the file, every save arrives in full, and every 201 response is whole. -/
def Undisturbed (w : AuthWorld) : Restarts.Action → Prop
  | .restart _ => True
  | .call a => (∀ file, a ≠ .replaceFile file) ∧ a.saves = [] ∧ (∀ resp ∈ a.replies, Whole resp)
      ∧ ∀ w', w.step a = some w' → Legible w'.auth

/-! ## The invariant -/

/-- The key and the secret in memory. -/
def memory (w : AuthWorld) : String × String := (w.auth.vechileApiKey, w.auth.vechileApiSecret)

/-- The file holds this pair, with some token. -/
def Filed (w : AuthWorld) (pair : String × String) : Prop :=
  ∃ a, Legible a ∧ (a.vechileApiKey, a.vechileApiSecret) = pair ∧ w.file = some (savedText a)

/-- The pair issued last is in the file, and nothing else in memory. -/
structure Kept (w : AuthWorld) : Prop where
  nothing : w.issued = none → w.file = none ∧ memory w = ("", "")
  pair : ∀ p, w.issued = some p → Filed w p ∧ (memory w = p ∨ memory w = ("", ""))

/-- Nothing that has to do with credentials has changed. -/
structure Apart (w w' : AuthWorld) : Prop where
  file : w'.file = w.file
  reads : w'.reads = w.reads
  memory : memory w' = memory w
  saves : w'.saves = w.saves
  replies : ∀ resp ∈ w'.replies, resp ∈ w.replies

/-- A call can go on from here. -/
structure Sound (w : AuthWorld) : Prop where
  kept : Kept w
  saves : w.saves = []
  whole : ∀ resp ∈ w.replies, Whole resp

section Apart

variable {w w' w'' : AuthWorld}

omit [JsonLibrary] in
theorem Apart.refl (w : AuthWorld) : Apart w w := ⟨rfl, rfl, rfl, rfl, fun _ h => h⟩

omit [JsonLibrary] in
theorem Apart.trans (h : Apart w w') (h' : Apart w' w'') : Apart w w'' :=
  ⟨h'.file.trans h.file, h'.reads.trans h.reads, h'.memory.trans h.memory, h'.saves.trans h.saves,
    fun resp hresp => h.replies resp (h'.replies resp hresp)⟩

theorem Apart.issued (h : Apart w w') : w'.issued = w.issued := by
  rw [AuthWorld.issued, h.reads, AuthWorld.issued]

theorem Apart.kept (h : Apart w w') (hw : Kept w) : Kept w' := by
  refine ⟨?_, ?_⟩
  · rw [h.issued, h.file, h.memory]
    exact hw.nothing
  · intro p
    rw [h.issued, Filed, h.file, h.memory]
    exact hw.pair p

theorem Apart.sound (h : Apart w w') (hw : Sound w) : Sound w' :=
  ⟨h.kept hw.kept, h.saves.trans hw.saves, fun resp hresp => hw.whole resp (h.replies resp hresp)⟩

omit [JsonLibrary] in
theorem exchanged_apart (w : AuthWorld) (p : Post) : Apart w (w.exchanged p) :=
  ⟨rfl, rfl, rfl, rfl, fun _ h => List.mem_of_mem_tail h⟩

omit [JsonLibrary] in
theorem afterVehicle_apart (w : AuthWorld) : Apart w w.afterVehicle :=
  ⟨rfl, rfl, rfl, rfl, fun _ h => List.mem_of_mem_tail h⟩

omit [JsonLibrary] in
theorem setToken_apart (w : AuthWorld) (token : String) : Apart w (w.setToken token) :=
  ⟨rfl, rfl, rfl, rfl, fun _ h => h⟩

theorem login_apart (w : AuthWorld) : Apart w w.login.2 := by
  rw [login_stores]
  exact (exchanged_apart w _).trans (setToken_apart _ _)

omit [JsonLibrary] in
theorem signup_apart (w : AuthWorld) : Apart w w.signup.2 := by
  rw [signup_eq]
  exact exchanged_apart w _

omit [JsonLibrary] in
theorem verifyCode_apart (w : AuthWorld) : Apart w w.verifyCode.2 := by
  rw [verifyCode_eq]
  exact exchanged_apart w _

theorem setup_apart (w : AuthWorld) : Apart w w.setup.2 := by
  unfold AuthWorld.setup
  split
  · exact .refl w
  have hlogin := login_apart w
  split
  · rename_i w₁ h
    rwa [h] at hlogin
  rename_i w₁ h
  rw [h] at hlogin
  have hsignup := hlogin.trans (signup_apart w₁)
  split
  · rename_i w₂ h
    rwa [h] at hsignup
  rename_i w₂ h
  rw [h] at hsignup
  have hverify := hsignup.trans (verifyCode_apart w₂)
  split
  · rename_i w₃ h
    rwa [h] at hverify
  · rename_i w₃ h
    rw [h] at hverify
    exact hverify.trans (login_apart w₃)

end Apart

/-! ## Reads and saves -/

/-- A save of which every byte arrives. -/
theorem save_full {w : AuthWorld} (h : w.saves = []) :
    w.save = { w with file := some (savedText w.auth) } := by
  unfold AuthWorld.save AuthWorld.nextSave AuthWorld.saveVehicleCredentials
  rw [h]
  simp only [List.take_length]
  rw [← h]
  rfl

/-- A saved file is read as the triple that was saved. -/
theorem savedText_reads {a : AuthService} (h : Legible a) :
    readApiKey (parse (savedText a)) = .ok a.vechileApiKey
      ∧ readApiSecret (parse (savedText a)) = .ok a.vechileApiSecret
      ∧ readAccessToken (parse (savedText a)) = .ok a.vechileAccessToken := by
  have hparse : parse (savedText a)
      = .ok (.object ((credentialsFields a).map (fun f => (f.1, reread f.2)))) :=
    h (by simp [credentialsFields, Plain])
  have hat : ∀ {key v}, (key, v) ∈ credentialsFields a →
      (Json.object ((credentialsFields a).map (fun f => (f.1, reread f.2)))).at key
        = .ok (reread v) := fun h => reread_at (by simp [credentialsFields]) h
  have hkey := @hat "apiKey" (.str a.vechileApiKey) (by simp [credentialsFields])
  have hsecret := @hat "apiSecret" (.str a.vechileApiSecret) (by simp [credentialsFields])
  have htoken := @hat "accessToken" (.str a.vechileAccessToken) (by simp [credentialsFields])
  rw [hparse]
  refine ⟨?_, ?_, ?_⟩
  · exact bind_ok_iff.mpr ⟨_, rfl, bind_ok_iff.mpr ⟨_, hkey, rfl⟩⟩
  · exact bind_ok_iff.mpr ⟨_, rfl, bind_ok_iff.mpr ⟨_, hsecret, rfl⟩⟩
  · exact bind_ok_iff.mpr ⟨_, rfl, value_of_at htoken _ _⟩

theorem brought_created (w : AuthWorld) (text : Option Bytes) :
    (w.reading .created text).brought = (w.reading .created text).pair := rfl

theorem brought_loaded (w : AuthWorld) (text : Option Bytes) :
    (w.reading .loaded text).brought = none := rfl

theorem issued_append {w w' : AuthWorld} {r : CredentialRead} (h : w'.reads = w.reads ++ [r]) :
    w'.issued = r.brought.or w.issued := by
  rw [AuthWorld.issued, h, List.filterMap_append, List.getLast?_append, AuthWorld.issued]
  cases hb : r.brought with
  | none => simp [hb]
  | some p => simp [hb]

omit [JsonLibrary] in
theorem memory_setAccessToken (w : AuthWorld) (token : String) :
    memory (w.setAccessToken token) = memory w := rfl

/-- **Loading the file:** it succeeds exactly if a pair has been issued, and brings that pair. -/
theorem load_kept {w : AuthWorld} (h : Kept w) :
    w.loadVehicleCredentials.1 = w.issued.isSome
      ∧ Kept w.loadVehicleCredentials.2
      ∧ w.loadVehicleCredentials.2.issued = w.issued
      ∧ ∀ p, w.issued = some p → memory w.loadVehicleCredentials.2 = p := by
  rw [load_spec]
  have hissued : (w.afterRead .loaded w.file).issued = w.issued := by
    rw [issued_append rfl, brought_loaded]
    rfl
  cases hnone : w.issued with
  | none =>
      obtain ⟨hfile, hmemory⟩ := h.nothing hnone
      have hkey : readApiKey (w.reading .loaded w.file).document = .error .parseError := by
        rw [hfile]
        rfl
      obtain ⟨hafter, hfail⟩ := afterRead_error hkey
      refine ⟨hfail, ?_, hissued.trans hnone, fun p hp => absurd hp (by simp)⟩
      refine ⟨fun _ => ?_, fun p hp => absurd (hissued.symm.trans hp) (by simp [hnone])⟩
      rw [hafter]
      exact ⟨hfile, hmemory⟩
  | some p =>
      obtain ⟨⟨a, hlegible, hpair, hfile⟩, hmemory⟩ := h.pair p hnone
      obtain ⟨hkey, hsecret, htoken⟩ := savedText_reads hlegible
      have hdoc : (w.reading .loaded w.file).document = parse (savedText a) := by
        rw [hfile]
        rfl
      obtain ⟨hafter, hok⟩ := afterRead_loaded (hdoc ▸ hkey) (hdoc ▸ hsecret) (hdoc ▸ htoken)
      have hread : memory (w.afterRead .loaded w.file) = p := by
        rw [hafter, memory_setAccessToken]
        exact hpair
      refine ⟨hok, ?_, hissued.trans hnone, ?_⟩
      · refine ⟨fun hn => absurd (hn.symm.trans (hissued.trans hnone)) (by simp), ?_⟩
        intro q hq
        obtain rfl := Option.some.inj ((hissued.trans hnone).symm.trans hq)
        exact ⟨⟨a, hlegible, hpair, hfile⟩, .inl hread⟩
      · intro q hq
        obtain rfl := Option.some.inj hq
        exact hread

/-- **A 201 response:** what it brings is in memory and in the file, or it brings nothing. -/
theorem capture_kept {w : AuthWorld} {resp : HttpResponse} (h : Kept w) (hsaves : w.saves = [])
    (hwhole : Whole resp) (hcreated : resp.statusCode = 201)
    (hlegible : Legible (w.captureCredentials resp.body).2.auth) :
    Kept (w.captureCredentials resp.body).2 := by
  rw [capture_spec] at hlegible ⊢
  cases hok : (w.reading .created (some resp.body)).succeeded with
  | true =>
      have hpair := (pair_of_succeeded hok).1
      have hsaved := save_full (w := w.afterRead .created (some resp.body)) hsaves
      rw [hok, if_pos rfl] at hlegible
      rw [if_pos rfl]
      have hissued : (w.afterRead .created (some resp.body)).save.issued
          = some (memory (w.afterRead .created (some resp.body))) := by
        rw [issued_append (w := w) (r := w.reading .created (some resp.body)) (by rw [hsaved]; rfl),
          brought_created, hpair]
        rfl
      have hfiled : Filed (w.afterRead .created (some resp.body)).save
          (memory (w.afterRead .created (some resp.body))) := by
        refine ⟨(w.afterRead .created (some resp.body)).save.auth, hlegible, ?_, ?_⟩
        · rw [hsaved]; rfl
        · rw [hsaved]
      refine ⟨fun hn => absurd (hn.symm.trans hissued) (by simp), fun p hp => ?_⟩
      obtain rfl := Option.some.inj (hissued.symm.trans hp)
      refine ⟨hfiled, .inl ?_⟩
      rw [hsaved]
      rfl
  | false =>
      rw [if_neg Bool.false_ne_true]
      have hhalf : (w.reading .created (some resp.body)).halfway = false := by
        cases hhalf : (w.reading .created (some resp.body)).halfway with
        | false => rfl
        | true =>
            rw [CredentialRead.halfway, Bool.and_eq_true] at hhalf
            obtain ⟨key, hkey⟩ := ok_of_isOk hhalf.1
            obtain ⟨secret, hsecret⟩ := ok_of_isOk (hwhole hcreated hhalf.1)
            rw [(afterRead_created hkey hsecret).2] at hok
            exact Bool.noConfusion hok
      obtain ⟨hkey, hsecret, _⟩ := unchanged_of_key (key_of_not_halfway hok hhalf)
      have hissued : (w.afterRead .created (some resp.body)).issued = w.issued := by
        have hnone : (w.reading .created (some resp.body)).brought = none := by
          rw [CredentialRead.succeeded] at hok
          rw [brought_created, ← Option.not_isSome_iff_eq_none, hok]
          exact Bool.false_ne_true
        rw [issued_append rfl, hnone]
        rfl
      have hmemory : memory (w.afterRead .created (some resp.body)) = memory w :=
        Prod.ext hkey hsecret
      refine ⟨?_, fun p => ?_⟩
      · rw [hissued, hmemory]
        exact h.nothing
      · rw [hissued, hmemory]
        exact h.pair p

/-! ## Registration -/

theorem Sound.reply {w : AuthWorld} (h : Sound w) : Whole w.reply := by
  rw [AuthWorld.reply]
  cases hreplies : w.replies with
  | nil => exact fun h201 => absurd h201 (by decide)
  | cons resp rest => exact h.whole resp (hreplies ▸ List.mem_cons_self)

omit [JsonLibrary] in
theorem setRegistered_apart (w : AuthWorld) : Apart w w.setRegistered :=
  ⟨rfl, rfl, rfl, rfl, fun _ h => h⟩

theorem afterLogin_apart (w : AuthWorld) : Apart w w.afterLogin :=
  (exchanged_apart w _).trans (setToken_apart _ _)

theorem attempt_kept {again : Bool → Bool → AuthWorld → Bool × AuthWorld}
    (hagain : ∀ l n w, Sound w → Legible (again l n w).2.auth → Kept (again l n w).2)
    (l n : Bool) {w : AuthWorld} (hw : Sound w) (hlegible : Legible (w.attempt again l n).2.auth) :
    Kept (w.attempt again l n).2 := by
  by_cases hreg : w.auth.vehicleRegistered = true
  · rw [AuthWorld.attempt, if_pos hreg]
    exact hw.kept
  by_cases htoken : w.auth.token = ""
  · rw [AuthWorld.attempt, if_neg hreg, if_pos htoken]
    exact hw.kept
  have hsent := (afterVehicle_apart w).sound hw
  rw [attempt_ready again l n ⟨Bool.not_eq_true _ ▸ hreg, htoken⟩] at hlegible ⊢
  by_cases h201 : w.reply.statusCode = 201
  · rw [if_pos h201] at hlegible ⊢
    have hset := setRegistered_apart w.afterVehicle
    exact capture_kept (hset.kept hsent.kept) hsent.saves hw.reply h201 hlegible
  rw [if_neg h201] at hlegible ⊢
  by_cases h409 : w.reply.statusCode = 409
  · rw [if_pos h409]
    obtain ⟨_, hkept, _, _⟩ := load_kept hsent.kept
    rcases hload : w.afterVehicle.loadVehicleCredentials with ⟨ok, w'⟩
    rw [hload] at hkept
    cases ok with
    | false => exact hkept
    | true => exact (setRegistered_apart w').kept hkept
  rw [if_neg h409] at hlegible ⊢
  by_cases h401 : w.reply.statusCode = 401
  · rw [if_pos h401] at hlegible ⊢
    cases l with
    | true => exact hsent.kept
    | false =>
        rw [if_neg Bool.false_ne_true, relogin_eq] at hlegible ⊢
        have hlogin := (afterLogin_apart w.afterVehicle).sound hsent
        cases hlogged : (loginToken w.afterVehicle.reply).isSome with
        | false => exact hlogin.kept
        | true =>
            rw [hlogged] at hlegible
            exact hagain true false _ hlogin hlegible
  rw [if_neg h401] at hlegible ⊢
  cases hsuccess : w.reply.success with
  | true =>
      rw [if_neg (by simp)]
      exact hsent.kept
  | false =>
      rw [hsuccess, Bool.not_false, if_pos rfl] at hlegible
      rw [Bool.not_false, if_pos rfl]
      cases n with
      | true => exact hsent.kept
      | false => exact hagain l true _ hsent hlegible

theorem createVehicle_kept (l n : Bool) {w : AuthWorld} (hw : Sound w)
    (hlegible : Legible (w.createVehicle l n).2.auth) : Kept (w.createVehicle l n).2 := by
  have hwithin : ∀ depth l n w, Sound w →
      Legible (AuthWorld.createVehicleWithin depth l n w).2.auth →
      Kept (AuthWorld.createVehicleWithin depth l n w).2 := by
    intro depth
    induction depth with
    | zero => exact fun _ _ _ hw _ => hw.kept
    | succ depth ih => exact fun l n w hw h => attempt_kept ih l n hw h
  exact hwithin 4 l n w hw hlegible

/-! ## The login -/

/-- Logging in with the pair that has been issued files that pair again. -/
theorem postVehicleLogin_kept {w : AuthWorld} {p : String × String} (hw : Sound w)
    (hissued : w.issued = some p) (hmemory : memory w = p)
    (hlegible : Legible w.postVehicleLogin.2.auth) : Kept w.postVehicleLogin.2 := by
  rw [postVehicleLogin_eq] at hlegible ⊢
  cases htoken : loginToken w.reply with
  | none => exact (exchanged_apart w _).kept hw.kept
  | some token =>
      rw [htoken] at hlegible
      have hsaved := save_full
        (w := (w.exchanged (vehicleLoginPost w)).setAccessToken token) hw.saves
      have hafter : (afterVehicleLogin w token).issued = some p := by
        rw [← hissued, afterVehicleLogin, hsaved]
        rfl
      have hsame : memory (afterVehicleLogin w token) = p := by
        rw [← hmemory, afterVehicleLogin, hsaved]
        rfl
      have hfile : (afterVehicleLogin w token).file
          = some (savedText (afterVehicleLogin w token).auth) := by
        rw [afterVehicleLogin, hsaved]
        rfl
      refine ⟨fun hn => absurd (hn.symm.trans hafter) (by simp), fun q hq => ?_⟩
      obtain rfl := Option.some.inj (hafter.symm.trans hq)
      exact ⟨⟨_, hlegible, hsame, hfile⟩, .inl hsame⟩

/-- Where `vechile_login` sends its request from, if the vehicle is not logged in. -/
theorem vechileLogin_from {w : AuthWorld} (h : Kept w)
    (hauth : w.auth.vechileAuthenticated = false) :
    (w.issued = none ∧ w.vechileLogin = (false, w.loadVehicleCredentials.2))
      ∨ ∃ p, w.issued = some p ∧ ∃ w₁, (w₁ = w ∨ w₁ = w.loadVehicleCredentials.2)
          ∧ memory w₁ = p ∧ w.vechileLogin = w₁.postVehicleLogin := by
  have hnot : ¬ w.auth.vechileAuthenticated = true := by rw [hauth]; exact Bool.false_ne_true
  obtain ⟨hreturns, _, _, hread⟩ := load_kept h
  cases hissued : w.issued with
  | none =>
      refine .inl ⟨rfl, ?_⟩
      have hempty : w.auth.vechileApiKey = "" := congrArg Prod.fst (h.nothing hissued).2
      rw [hissued] at hreturns
      rw [AuthWorld.vechileLogin, if_neg hnot, if_pos (.inl hempty)]
      rcases hload : w.loadVehicleCredentials with ⟨ok, w'⟩
      rw [hload] at hreturns
      obtain rfl : ok = false := hreturns
      rfl
  | some p =>
      refine .inr ⟨p, rfl, ?_⟩
      by_cases hempty : w.auth.vechileApiKey = "" ∨ w.auth.vechileApiSecret = ""
      · refine ⟨w.loadVehicleCredentials.2, .inr rfl, hread p hissued, ?_⟩
        rw [hissued] at hreturns
        rw [AuthWorld.vechileLogin, if_neg hnot, if_pos hempty]
        rcases hload : w.loadVehicleCredentials with ⟨ok, w'⟩
        rw [hload] at hreturns
        obtain rfl : ok = true := hreturns
        rfl
      · refine ⟨w, .inl rfl, ?_, ?_⟩
        · rcases (h.pair p hissued).2 with hmemory | hmemory
          · exact hmemory
          · exact absurd (.inl (congrArg Prod.fst hmemory)) hempty
        · rw [AuthWorld.vechileLogin, if_neg hnot, if_neg hempty]

theorem load_sound {w : AuthWorld} (h : Sound w) : Sound w.loadVehicleCredentials.2 := by
  refine ⟨(load_kept h.kept).2.1, ?_, ?_⟩
  · rw [load_spec]
    exact h.saves
  · rw [load_spec]
    exact h.whole

theorem vechileLogin_kept {w : AuthWorld} (hw : Sound w)
    (hlegible : Legible w.vechileLogin.2.auth) : Kept w.vechileLogin.2 := by
  cases hauth : w.auth.vechileAuthenticated with
  | true =>
      rw [AuthWorld.vechileLogin, if_pos hauth]
      exact hw.kept
  | false =>
      obtain ⟨_, hkept, hsame, _⟩ := load_kept hw.kept
      rcases vechileLogin_from hw.kept hauth with ⟨_, heq⟩ | ⟨p, hissued, w₁, hfrom, hmemory, heq⟩
      · rw [heq]
        exact hkept
      · rw [heq] at hlegible ⊢
        rcases hfrom with rfl | rfl
        · exact postVehicleLogin_kept hw hissued hmemory hlegible
        · exact postVehicleLogin_kept (load_sound hw) (hsame.trans hissued) hmemory hlegible

/-! ## Runs -/

theorem given_kept {w : AuthWorld} (h : Kept w) (replies : List HttpResponse)
    (saves : List SaveOutcome) : Kept (w.given replies saves) := ⟨h.nothing, h.pair⟩

theorem restart_kept {w : AuthWorld} (h : Kept w) (config : Config) : Kept (w.restart config) :=
  ⟨fun hn => ⟨(h.nothing hn).1, rfl⟩, fun p hp => ⟨(h.pair p hp).1, .inr rfl⟩⟩

theorem kept_step {w w' : AuthWorld} {a : Restarts.Action} (h : Kept w) (hok : Undisturbed w a)
    (hstep : Restarts.step w a = some w') : Kept w' := by
  cases a with
  | restart config =>
      obtain rfl := Option.some.inj hstep
      exact restart_kept h config
  | call a =>
      obtain ⟨hfile, hsaves, hwhole, hlegible⟩ := hok
      have hlegible := hlegible w' hstep
      have hsound : ∀ {saves}, saves = [] → Sound (w.given a.replies saves) :=
        fun hs => ⟨given_kept h _ _, hs, hwhole⟩
      cases a with
      | setup replies =>
          obtain rfl := Option.some.inj hstep
          exact (setup_apart _).kept (given_kept h _ _)
      | createVehicle l n replies saves =>
          obtain rfl := Option.some.inj hstep
          have hkept := createVehicle_kept l n (hsound hsaves) hlegible
          exact ⟨hkept.nothing, hkept.pair⟩
      | vechileLogin replies saves =>
          obtain rfl := Option.some.inj hstep
          exact vechileLogin_kept (hsound hsaves) hlegible
      | replaceFile file => exact absurd rfl (hfile file)

theorem kept_reachable {config : Config} {w : AuthWorld}
    (h : (Restarts.machine config).ReachableWhen Undisturbed w) : Kept w :=
  h.invariant (P := Kept) ⟨fun _ => ⟨rfl, rfl⟩, fun p hp => absurd hp (by
    simp [Restarts.machine, AuthWorld.start, AuthWorld.issued])⟩
    (fun _ _ _ _ hkept hok hs => kept_step hkept hok hs)

theorem postVehicleLogin_posts (w : AuthWorld) :
    w.postVehicleLogin.2.posts = w.posts ++ [vehicleLoginPost w] := by
  rw [postVehicleLogin_eq]
  cases loginToken w.reply with
  | none => rfl
  | some token =>
      obtain ⟨file, saves, hsave⟩ :=
        save_spec ((w.exchanged (vehicleLoginPost w)).setAccessToken token)
      show (afterVehicleLogin w token).posts = _
      rw [afterVehicleLogin, hsave]
      rfl

/-- A login of the vehicle that sends this pair. -/
def SendsPair (w : AuthWorld) (replies : List HttpResponse) (saves : List SaveOutcome)
    (key secret : String) : Prop :=
  ∃ p, (w.given replies saves).vechileLogin.2.posts = w.posts ++ [p]
    ∧ p.path = vehicleLoginPath
    ∧ p.body = .object [("apiKey", .str key), ("apiSecret", .str secret)]
    ∧ (w.given replies saves).vechileLogin.1 = (loginToken (replies.headD .failed)).isSome

theorem vechileLogin_sends {w : AuthWorld} (h : Kept w)
    (hauth : w.auth.vechileAuthenticated = false) {key secret : String}
    (hissued : w.issued = some (key, secret)) (replies : List HttpResponse)
    (saves : List SaveOutcome) : SendsPair w replies saves key secret := by
  rcases vechileLogin_from (given_kept h replies saves) hauth with
    ⟨hnone, _⟩ | ⟨p, hp, w₁, hfrom, hmemory, heq⟩
  · exact absurd (hissued.symm.trans hnone) (by simp)
  obtain rfl := Option.some.inj (hissued.symm.trans hp)
  have hw₁ : w₁.posts = w.posts ∧ w₁.reply = replies.headD .failed := by
    rcases hfrom with rfl | rfl
    · exact ⟨rfl, rfl⟩
    · rw [load_spec]
      exact ⟨rfl, rfl⟩
  refine ⟨vehicleLoginPost w₁, ?_, rfl, ?_, ?_⟩
  · rw [heq, postVehicleLogin_posts, hw₁.1]
  · rw [vehicleLoginPost, show w₁.auth.vechileApiKey = key from congrArg Prod.fst hmemory,
      show w₁.auth.vechileApiSecret = secret from congrArg Prod.snd hmemory]
  · rw [heq, postVehicleLogin_eq, hw₁.2]

/--
**Credentials survive restarts.** Take any undisturbed run of calls and restarts, in
any order: nobody else writes the file, every save arrives and is read back as it was
printed, and every 201 response with a key has a secret too. The replies are free
otherwise. As long as no 201 response has brought a key and a secret, there is no
file, and a login of the vehicle sends nothing. From then on the file restores the
last pair that was brought, whatever has been restarted since; and wherever the
vehicle is not logged in, one call of `vechile_login` sends exactly one request, with
that pair, and succeeds exactly if the reply brings a token.
-/
theorem credentials_survive_restarts {config : Config} {w : AuthWorld}
    (h : (Restarts.machine config).ReachableWhen Undisturbed w) :
    (w.issued = none → w.file = none
        ∧ ∀ replies saves, (w.given replies saves).vechileLogin.2.posts = w.posts)
      ∧ ∀ key secret, w.issued = some (key, secret) →
          (∃ token, restored w.auth.config w.file = some (key, secret, token))
            ∧ (w.auth.vechileAuthenticated = false →
                ∀ replies saves, SendsPair w replies saves key secret) := by
  have hkept := kept_reachable h
  refine ⟨fun hnone => ⟨(hkept.nothing hnone).1, fun replies saves => ?_⟩, fun key secret hissued =>
    ⟨?_, fun hauth replies saves => vechileLogin_sends hkept hauth hissued replies saves⟩⟩
  · cases hauth : w.auth.vechileAuthenticated with
    | true =>
        have hgiven : (w.given replies saves).auth.vechileAuthenticated = true := hauth
        rw [AuthWorld.vechileLogin, if_pos hgiven]
        rfl
    | false =>
        rcases vechileLogin_from (given_kept hkept replies saves) hauth with
          ⟨_, heq⟩ | ⟨p, hp, _⟩
        · rw [heq, load_spec]
          rfl
        · exact absurd (hnone.symm.trans hp) (by simp)
  · obtain ⟨⟨a, hlegible, hpair, hfile⟩, _⟩ := hkept.pair _ hissued
    obtain ⟨rfl, rfl⟩ := Prod.mk.inj hpair
    refine ⟨a.vechileAccessToken, ?_⟩
    rw [hfile]
    exact restored_savedText _ hlegible

omit [JsonLibrary] in
/-- The vehicle is created, and the process restarted. -/
theorem credentials_survive_restarts_created :
    ∃ (_ : JsonLibrary) (w : AuthWorld), (Restarts.machine {}).ReachableWhen Undisturbed w
      ∧ w.auth.vechileApiKey = "" ∧ w.posts.length = 2
      ∧ ∀ replies saves, SendsPair w replies saves "K" "S" := by
  let admin := utf8 "\x7b\"success\":true,\"data\":\x7b\"accessToken\":\"A\"\x7d\x7d"
  let vehicle := utf8 "\x7b\"data\":\x7b\"apiKey\":\"K\",\"apiSecret\":\"S\"\x7d\x7d"
  let empty :=
    "\x7b\n  \"accessToken\": \"\",\n  \"apiKey\": \"\",\n  \"apiSecret\": \"\"\n\x7d"
  let saved :=
    "\x7b\n  \"accessToken\": \"\",\n  \"apiKey\": \"K\",\n  \"apiSecret\": \"S\"\n\x7d"
  let _ : JsonLibrary := libraryOf
    (fun j => if (readApiKey (.ok j)).toOption = some "K" then saved else empty) [
    (admin, .obj [("data", .obj [("accessToken", .str "A")]), ("success", .bool true)]),
    (vehicle, .obj [("data", .obj [("apiKey", .str "K"), ("apiSecret", .str "S")])]),
    (utf8 empty, .obj [("accessToken", .str ""), ("apiKey", .str ""), ("apiSecret", .str "")]),
    (utf8 saved, .obj [("accessToken", .str ""), ("apiKey", .str "K"), ("apiSecret", .str "S")])]
  have hlegible : ∀ a, triple a = ("", "", "") ∨ triple a = ("K", "S", "") → Legible a := by
    intro a ha _
    simp only [triple, Prod.mk.injEq] at ha
    rcases ha with ⟨hkey, hsecret, htoken⟩ | ⟨hkey, hsecret, htoken⟩
    · simp only [credentialsFields, List.map_cons, List.map_nil, reread, hkey, hsecret, htoken]
      rfl
    · simp only [credentialsFields, List.map_cons, List.map_nil, reread, hkey, hsecret, htoken]
      rfl
  let w₁ := ((AuthWorld.start {}).given [⟨200, admin⟩] []).setup.2
  let w₂ := w₁.noteCreation true ((w₁.given [⟨201, vehicle⟩] []).createVehicle false false).2
  have h₁ : (Restarts.machine {}).ReachableWhen Undisturbed w₁ := by
    refine .tail (a := .call (.setup [⟨200, admin⟩])) .init ⟨by simp, rfl, by decide, ?_⟩ rfl
    intro w' h
    obtain rfl := Option.some.inj h
    exact hlegible _ (.inl rfl)
  have h₂ : (Restarts.machine {}).ReachableWhen Undisturbed w₂ := by
    refine .tail (a := .call (.createVehicle false false [⟨201, vehicle⟩] [])) h₁
      ⟨by simp, rfl, by decide, ?_⟩ rfl
    intro w' h
    obtain rfl := Option.some.inj h
    exact hlegible _ (.inr rfl)
  have h₃ : (Restarts.machine {}).ReachableWhen Undisturbed (w₂.restart {}) :=
    .tail (a := .restart {}) h₂ trivial rfl
  exact ⟨_, w₂.restart {}, h₃, rfl, rfl,
    ((credentials_survive_restarts h₃).2 "K" "S" (by rfl)).2 rfl⟩

end CloudGateway.Proof
