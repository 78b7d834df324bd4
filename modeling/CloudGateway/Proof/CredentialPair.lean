import CloudGateway.Proof.AuthEffects
import CloudGateway.Proof.JsonAccess

/-!
# Where the key and the secret come from

`Together` says of a key and a secret that one read has brought both and has
succeeded. A read that stops halfway (`CredentialRead.halfway`) has replaced the
key and perhaps nothing else, so what is in memory after it need not be together.

Nothing but a read changes the two, so `Memory` holds: they are what the last read
has left. What a login sends is therefore a matter of the reads alone.
-/

namespace CloudGateway.Services.CredentialRead

variable [JsonLibrary]

/--
The read stops halfway and leaves a key and a secret that are not empty, in a
service that has not logged the vehicle in: the next login sends them.
-/
def mixes (r : CredentialRead) : Bool :=
  r.halfway && r.keyAfter != "" && r.secretAfter != "" && !r.before.vechileAuthenticated

end CloudGateway.Services.CredentialRead

namespace CloudGateway.Proof

open Services Transport

variable [JsonLibrary]

/-- One read has brought both the key and the secret, and has succeeded. -/
def Together (reads : List CredentialRead) (sources : Sources) (key secret : String) : Prop :=
  ∃ n r, sources.key = some n ∧ sources.secret = some n ∧ reads[n]? = some r
    ∧ r.pair = some (key, secret)

/-- The key and the secret in memory are together. -/
def HoldsPair (w : AuthWorld) : Prop :=
  Together w.reads w.sources w.auth.vechileApiKey w.auth.vechileApiSecret

/-- Every login of the vehicle sends a key and a secret that are together. -/
def PairIntegrity (w : AuthWorld) : Prop :=
  ∀ p ∈ w.posts, p.path = vehicleLoginPath →
    ∃ key secret, p.body = .object [("apiKey", .str key), ("apiSecret", .str secret)]
      ∧ Together w.reads p.sources key secret

/-- What is read later does not matter. -/
theorem together_append {reads : List CredentialRead} {sources : Sources} {key secret : String}
    (h : Together reads sources key secret) (more : List CredentialRead) :
    Together (reads ++ more) sources key secret := by
  obtain ⟨n, r, hkey, hsecret, hr, hpair⟩ := h
  refine ⟨n, r, hkey, hsecret, ?_, hpair⟩
  rw [List.getElem?_append_left (List.getElem?_eq_some_iff.mp hr).1]
  exact hr

theorem pairIntegrity_read {w : AuthWorld} (h : PairIntegrity w) (r : CredentialRead) :
    PairIntegrity { w with reads := w.reads ++ [r] } := by
  intro p hp hpath
  obtain ⟨key, secret, hbody, htogether⟩ := h p hp hpath
  exact ⟨key, secret, hbody, together_append htogether [r]⟩

/-! ## Reads -/

/-- What a read has read, if it succeeds. -/
theorem result_of_succeeded {r : CredentialRead} (h : r.succeeded = true) :
    ∃ key secret token, r.result = .ok (key, secret, token)
      ∧ readApiKey r.document = .ok key ∧ readApiSecret r.document = .ok secret
      ∧ (token.isSome = true ↔ r.origin = .loaded) := by
  obtain ⟨x, hx⟩ : ∃ x, r.result = .ok x := by
    cases hres : r.result with
    | ok x => exact ⟨x, rfl⟩
    | error e =>
        simp only [CredentialRead.succeeded, CredentialRead.pair, hres] at h
        exact Bool.noConfusion h
  have hchain := hx
  rw [CredentialRead.result, bind_ok_iff] at hchain
  obtain ⟨key, hkey, hchain⟩ := hchain
  obtain ⟨secret, hsecret, hchain⟩ := bind_ok_iff.mp hchain
  cases horigin : r.origin with
  | created =>
      rw [horigin] at hchain
      obtain rfl := pure_ok_iff.mp hchain
      exact ⟨key, secret, none, hx, hkey, hsecret, by simp⟩
  | loaded =>
      rw [horigin] at hchain
      obtain ⟨token, _, hchain⟩ := bind_ok_iff.mp hchain
      obtain rfl := pure_ok_iff.mp hchain
      exact ⟨key, secret, some token, hx, hkey, hsecret, by simp⟩

/-- A read that succeeds has assigned the key and the secret. -/
theorem pair_of_succeeded {r : CredentialRead} (h : r.succeeded = true) :
    r.pair = some (r.keyAfter, r.secretAfter) ∧ (readApiKey r.document).isOk = true
      ∧ r.assignsSecret = true := by
  obtain ⟨key, secret, token, hres, hkey, hsecret, _⟩ := result_of_succeeded h
  simp only [CredentialRead.pair, CredentialRead.keyAfter, CredentialRead.secretAfter,
    CredentialRead.assignsSecret, hres, hkey, hsecret]
  exact ⟨rfl, rfl, rfl⟩

/-- A read that does not get to the key assigns nothing. -/
theorem unchanged_of_key {r : CredentialRead} (h : (readApiKey r.document).isOk = false) :
    r.keyAfter = r.before.vechileApiKey ∧ r.secretAfter = r.before.vechileApiSecret
      ∧ r.assignsSecret = false := by
  simp only [CredentialRead.keyAfter, CredentialRead.secretAfter, CredentialRead.assignsSecret, h]
  cases hkey : readApiKey r.document with
  | error e => exact ⟨rfl, rfl, rfl⟩
  | ok key => rw [hkey] at h; exact Bool.noConfusion h

/-- A read that fails without stopping halfway has not got to the key. -/
theorem key_of_not_halfway {r : CredentialRead} (hfail : r.succeeded = false)
    (h : r.halfway = false) : (readApiKey r.document).isOk = false := by
  simpa [CredentialRead.halfway, hfail] using h

theorem holdsPair_of_succeeded {w : AuthWorld} {origin : Origin} {text : Option Bytes}
    (h : (w.reading origin text).succeeded = true) : HoldsPair (w.afterRead origin text) := by
  obtain ⟨hpair, hkey, hsecret⟩ := pair_of_succeeded h
  refine ⟨w.reads.length, w.reading origin text, ?_, ?_, List.getElem?_concat_length, hpair⟩
  · simp only [AuthWorld.afterRead, hkey, if_true]
  · simp only [AuthWorld.afterRead, hsecret, if_true]

theorem holdsPair_of_key {w : AuthWorld} {origin : Origin} {text : Option Bytes}
    (hkey : (readApiKey (w.reading origin text).document).isOk = false) (h : HoldsPair w) :
    HoldsPair (w.afterRead origin text) := by
  obtain ⟨hkeyAfter, hsecretAfter, hassigns⟩ := unchanged_of_key hkey
  have hmore := together_append h [w.reading origin text]
  simp only [HoldsPair, AuthWorld.afterRead, hkeyAfter, hsecretAfter, hassigns, hkey,
    Bool.false_eq_true, if_false]
  exact hmore

/-! ## Memory -/

/-- What is in memory is what the read, the last one, has left there. -/
def LeftBy (w : AuthWorld) (r : CredentialRead) : Prop :=
  w.auth.vechileApiKey = r.keyAfter ∧ w.auth.vechileApiSecret = r.secretAfter
    ∧ ((readApiKey r.document).isOk = true → w.sources.key = some (w.reads.length - 1))
    ∧ (r.assignsSecret = true → w.sources.secret = some (w.reads.length - 1))

/-- The key and the secret are what the last read has left. -/
def Memory (w : AuthWorld) : Prop := ∀ r, w.reads.getLast? = some r → LeftBy w r

theorem memory_afterRead (w : AuthWorld) (origin : Origin) (text : Option Bytes) :
    Memory (w.afterRead origin text) := by
  intro r hr
  have hlast : (w.afterRead origin text).reads.getLast? = some (w.reading origin text) :=
    List.getLast?_concat
  obtain rfl := Option.some.inj (hlast.symm.trans hr)
  have hlen : (w.afterRead origin text).reads.length - 1 = w.reads.length := by
    simp [AuthWorld.afterRead]
  refine ⟨rfl, rfl, fun hkey => ?_, fun hsecret => ?_⟩
  · rw [hlen]
    simp only [AuthWorld.afterRead, hkey, if_true]
  · rw [hlen]
    simp only [AuthWorld.afterRead, hsecret, if_true]

theorem memory_effect {w w' : AuthWorld} (h : Memory w) (he : AuthEffect w w') : Memory w' := by
  cases he with
  | admin => exact h
  | request _ => exact h
  | vehicleLogin _ _ => exact h
  | outside => exact h
  | created _ => exact memory_afterRead _ _ _
  | existed _ _ => exact memory_afterRead w .loaded w.file
  | loaded _ _ => exact memory_afterRead _ _ _
  | loadFailed _ => exact memory_afterRead _ _ _
  | authenticated _ => exact h

/-- If the last read has succeeded, the key and the secret in memory are together. -/
theorem holdsPair_of_last {w : AuthWorld} (h : Memory w) {r : CredentialRead}
    (hr : w.reads.getLast? = some r) (hok : r.succeeded = true) : HoldsPair w := by
  obtain ⟨hpair, hkey, hsecret⟩ := pair_of_succeeded hok
  obtain ⟨hkeyAfter, hsecretAfter, hkeySource, hsecretSource⟩ := h r hr
  refine ⟨_, r, hkeySource hkey, hsecretSource hsecret, ?_, ?_⟩
  · rw [← List.getLast?_eq_getElem?]
    exact hr
  · rw [hkeyAfter, hsecretAfter]
    exact hpair

/-- If it has stopped halfway, they are not: the key is its, and it has failed. -/
theorem not_together_of_last {w : AuthWorld} (h : Memory w) {r : CredentialRead}
    (hr : w.reads.getLast? = some r) (hhalf : r.halfway = true) {key secret : String} :
    ¬ Together w.reads w.sources key secret := by
  simp only [CredentialRead.halfway, Bool.and_eq_true, Bool.not_eq_true'] at hhalf
  obtain ⟨hkey, hfail⟩ := hhalf
  rintro ⟨n, r', hn, _, hr', hpair⟩
  obtain ⟨_, _, hkeySource, _⟩ := h r hr
  obtain rfl := Option.some.inj ((hkeySource hkey).symm.trans hn)
  obtain rfl := Option.some.inj ((List.getLast?_eq_getElem?.symm.trans hr).symm.trans hr')
  rw [CredentialRead.succeeded, hpair] at hfail
  exact Bool.noConfusion hfail

/-! ## Logins -/

/--
As long as no read mixes, a service that may still log in with what is in memory
has a key and a secret there that are together.
-/
def Unmixed (w : AuthWorld) : Prop :=
  (∀ r ∈ w.reads, r.mixes = false) →
    (w.auth.vechileApiKey = "" ∨ w.auth.vechileApiSecret = ""
      ∨ w.auth.vechileAuthenticated = true ∨ HoldsPair w) ∧ PairIntegrity w

theorem unmixed_afterRead {w : AuthWorld} (h : Unmixed w) (origin : Origin)
    (text : Option Bytes) : Unmixed (w.afterRead origin text) := by
  intro hnone
  obtain ⟨hmem, hposts⟩ := h (fun r hr => hnone r (List.mem_append_left _ hr))
  refine ⟨?_, pairIntegrity_read hposts _⟩
  have hnew := hnone (w.reading origin text) (List.mem_append_right _ List.mem_cons_self)
  cases hok : (w.reading origin text).succeeded with
  | true => exact .inr (.inr (.inr (holdsPair_of_succeeded hok)))
  | false =>
      cases hhalf : (w.reading origin text).halfway with
      | true =>
          -- it stops halfway and does not mix, so what it leaves is not sent
          simp only [CredentialRead.mixes, hhalf, Bool.true_and, Bool.and_eq_false_iff,
            bne_eq_false_iff_eq, Bool.not_eq_false'] at hnew
          rcases hnew with (hkey | hsecret) | hauth
          · exact .inl hkey
          · exact .inr (.inl hsecret)
          · exact .inr (.inr (.inl hauth))
      | false =>
          have hkey := key_of_not_halfway hok hhalf
          obtain ⟨hkeyAfter, hsecretAfter, _⟩ := unchanged_of_key hkey
          rcases hmem with hempty | hempty | hauth | hpair
          · exact .inl (hkeyAfter.trans hempty)
          · exact .inr (.inl (hsecretAfter.trans hempty))
          · exact .inr (.inr (.inl hauth))
          · exact .inr (.inr (.inr (holdsPair_of_key hkey hpair)))

/-- A request that is not a login of the vehicle does not matter. -/
theorem pairIntegrity_post {w : AuthWorld} (h : PairIntegrity w) {p : Post}
    (hp : p.path = vehicleLoginPath →
      ∃ key secret, p.body = .object [("apiKey", .str key), ("apiSecret", .str secret)]
        ∧ Together w.reads p.sources key secret) :
    PairIntegrity { w with posts := w.posts ++ [p] } := by
  intro q hq hpath
  rcases List.mem_append.mp hq with hq | hq
  · exact h q hq hpath
  · obtain rfl := List.mem_singleton.mp hq
    exact hp hpath

theorem unmixed_effect {w w' : AuthWorld} (hmemory : Memory w) (h : Unmixed w)
    (he : AuthEffect w w') : Unmixed w' := by
  cases he with
  | admin => exact h
  | request hpath =>
      intro hnone
      obtain ⟨hmem, hposts⟩ := h hnone
      exact ⟨hmem, pairIntegrity_post hposts (fun heq => absurd heq hpath)⟩
  | vehicleLogin hauth hpair =>
      intro hnone
      obtain ⟨hmem, hposts⟩ := h hnone
      have hholds : HoldsPair w := by
        rcases hpair with ⟨hkey, hsecret⟩ | ⟨r, hr, hok⟩
        · rcases hmem with hempty | hempty | hdone | hholds
          · exact absurd hempty hkey
          · exact absurd hempty hsecret
          · rw [hauth] at hdone; exact Bool.noConfusion hdone
          · exact hholds
        · exact holdsPair_of_last hmemory hr hok
      exact ⟨hmem, pairIntegrity_post hposts (fun _ => ⟨_, _, rfl, hholds⟩)⟩
  | outside => exact h
  | created _ => exact unmixed_afterRead (w := w.setRegistered) h _ _
  | existed _ _ => exact unmixed_afterRead h .loaded w.file
  | loaded _ _ => exact unmixed_afterRead h _ _
  | loadFailed _ => exact unmixed_afterRead h _ _
  | authenticated _ =>
      intro hnone
      exact ⟨.inr (.inr (.inl rfl)), (h hnone).2⟩

theorem memory_reachable {config : Config} {w : AuthWorld}
    (h : (AuthWorld.machine config).Reachable w) : Memory w :=
  auth_invariant (P := Memory) (fun r hr => absurd hr (by simp [AuthWorld.start]))
    (fun _ _ => memory_effect) (fun _ _ h => h) h

theorem unmixed_reachable {config : Config} {w : AuthWorld}
    (h : (AuthWorld.machine config).Reachable w) : Unmixed w := by
  refine (auth_invariant (P := fun w => Memory w ∧ Unmixed w) ⟨?_, ?_⟩ ?_ ?_ h).2
  · exact fun r hr => absurd hr (by simp [AuthWorld.start])
  · exact fun _ => ⟨.inl rfl, fun p hp => absurd hp (by simp [AuthWorld.start])⟩
  · exact fun w w' hP he => ⟨memory_effect hP.1 he, unmixed_effect hP.1 hP.2 he⟩
  · exact fun _ _ hP => hP

/-- A login sends what is in memory, and reads nothing. -/
theorem postVehicleLogin_sends (w : AuthWorld) :
    ⟨vehicleLoginPath, w.auth.jsonHeaders, .object [("apiKey", .str w.auth.vechileApiKey),
        ("apiSecret", .str w.auth.vechileApiSecret)], w.sources⟩ ∈ w.postVehicleLogin.2.posts
      ∧ w.postVehicleLogin.2.reads = w.reads := by
  unfold AuthWorld.postVehicleLogin
  split
  rename_i resp w₁ hpost
  obtain ⟨replies, rfl⟩ := post_spec hpost
  have hsent : ∀ p : Post, p ∈ w.posts ++ [p] :=
    fun p => List.mem_append_right _ (List.mem_singleton.mpr rfl)
  split
  · exact ⟨hsent _, rfl⟩
  · split
    · exact ⟨hsent _, rfl⟩
    · exact ⟨hsent _, rfl⟩
    · rename_i token _
      simp only
      generalize hset : AuthWorld.setAccessToken _ token = w₂
      obtain ⟨file, saves, hsave⟩ := save_spec w₂
      rw [hsave, ← hset]
      exact ⟨hsent _, rfl⟩

/-- After a read that has mixed the two, the next login sends a pair that is not together. -/
theorem mixed_login {w : AuthWorld} (hmemory : Memory w) {r : CredentialRead}
    (hr : w.reads.getLast? = some r) (hmixes : r.mixes = true)
    (hauth : w.auth.vechileAuthenticated = false) (replies : List HttpResponse)
    (saves : List SaveOutcome) : ¬ PairIntegrity (w.given replies saves).vechileLogin.2 := by
  obtain ⟨hkeyAfter, hsecretAfter, _⟩ := hmemory r hr
  simp only [CredentialRead.mixes, Bool.and_eq_true, bne_iff_ne, Bool.not_eq_true'] at hmixes
  obtain ⟨⟨⟨hhalf, hkey⟩, hsecret⟩, _⟩ := hmixes
  have hlogin :
      (w.given replies saves).vechileLogin = (w.given replies saves).postVehicleLogin := by
    have hfull : ¬ (w.auth.vechileApiKey = "" ∨ w.auth.vechileApiSecret = "") := by
      rw [hkeyAfter, hsecretAfter]
      exact not_or.mpr ⟨hkey, hsecret⟩
    simp only [AuthWorld.vechileLogin, AuthWorld.given, hauth, hfull, Bool.false_eq_true, if_false]
  intro hposts
  obtain ⟨hsent, hreads⟩ := postVehicleLogin_sends (w.given replies saves)
  rw [hlogin] at hposts
  obtain ⟨key, secret, _, htogether⟩ := hposts _ hsent rfl
  rw [hreads] at htogether
  exact not_together_of_last hmemory hr hhalf htogether

/--
**A login sends a key and a secret that were issued together as long as no read
mixes them.** Once the last read has mixed them, the next login sends a key and a
secret that are not together.
-/
theorem pairs_together_when {config : Config} {w : AuthWorld}
    (h : (AuthWorld.machine config).Reachable w) :
    ((∀ r ∈ w.reads, r.mixes = false) → PairIntegrity w)
      ∧ ∀ r, w.reads.getLast? = some r → r.mixes = true → w.auth.vechileAuthenticated = false →
          ∀ replies saves w', w.step (.vechileLogin replies saves) = some w' →
            ¬ PairIntegrity w' := by
  refine ⟨fun hnone => (unmixed_reachable h hnone).2, ?_⟩
  intro r hr hmixes hauth replies saves w' hs
  obtain rfl := Option.some.inj hs
  exact mixed_login (memory_reachable h) hr hmixes hauth replies saves

omit [JsonLibrary] in
/-- A pair is read from the file and the vehicle is logged in with it. -/
theorem pairs_together_when_loaded :
    ∃ (_ : JsonLibrary) (w : AuthWorld), (AuthWorld.machine {}).Reachable w
      ∧ w.posts.map (fun p => p.path) = [vehicleLoginPath] ∧ w.session = some "T"
      ∧ PairIntegrity w := by
  let stored := utf8 "\x7b\"apiKey\":\"K\",\"apiSecret\":\"S\"\x7d"
  let loggedIn := utf8 "\x7b\"success\":true,\"data\":\x7b\"accessToken\":\"T\"\x7d\x7d"
  let saved := "\x7b\n  \"accessToken\": \"T\",\n  \"apiKey\": \"K\",\n  \"apiSecret\": \"S\"\n\x7d"
  let _ : JsonLibrary := libraryOf (fun _ => saved) [
    (stored, .obj [("apiKey", .str "K"), ("apiSecret", .str "S")]),
    (loggedIn, .obj [("data", .obj [("accessToken", .str "T")]), ("success", .bool true)])]
  obtain ⟨w, hr, hp⟩ := Reactive.Machine.exists_reachable_of_run (M := AuthWorld.machine {})
    (l := [.replaceFile (some stored), .vechileLogin [⟨200, loggedIn⟩] []])
    (p := fun w => decide (w.posts.map (fun p => p.path) = [vehicleLoginPath] ∧ w.session = some "T"
      ∧ w.reads.all (fun r => !r.mixes) = true)) (by decide)
  obtain ⟨hposts, hsession, hnone⟩ := of_decide_eq_true hp
  refine ⟨_, w, hr, hposts, hsession, (pairs_together_when hr).1 (fun r hr => ?_)⟩
  simpa using List.all_eq_true.mp hnone r hr

omit [JsonLibrary] in
/-- A key from a 201 response that has no secret is sent with the secret from the file. -/
theorem not_pairIntegrity :
    ¬ ∀ (_ : JsonLibrary) (config : Config) (w : AuthWorld),
      (AuthWorld.machine config).Reachable w → PairIntegrity w := by
  intro h
  let stored := utf8 "\x7b\"apiKey\":\"K1\",\"apiSecret\":\"S1\"\x7d"
  let loggedIn := utf8 "\x7b\"success\":true,\"data\":\x7b\"accessToken\":\"A\"\x7d\x7d"
  let half := utf8 "\x7b\"data\":\x7b\"apiKey\":\"K2\"\x7d\x7d"
  let _ : JsonLibrary := libraryOf (fun _ => "") [
    (stored, .obj [("apiKey", .str "K1"), ("apiSecret", .str "S1")]),
    (loggedIn, .obj [("data", .obj [("accessToken", .str "A")]), ("success", .bool true)]),
    (half, .obj [("data", .obj [("apiKey", .str "K2")])])]
  -- the first login finds no backend, so it does not take
  obtain ⟨w, hr, hp⟩ := Reactive.Machine.exists_reachable_of_run (M := AuthWorld.machine {})
    (l := [.replaceFile (some stored), .vechileLogin [] [], .setup [⟨200, loggedIn⟩],
      .createVehicle false false [⟨201, half⟩] [], .vechileLogin [] []])
    (p := fun w => decide (w.auth.vechileApiKey = "K2" ∧ w.auth.vechileApiSecret = "S1"
      ∧ w.posts.getLast?.map (fun p => (p.path, p.sources))
        = some (vehicleLoginPath, ⟨some 1, some 0⟩))) (by decide)
  obtain ⟨_, _, hlast⟩ := of_decide_eq_true hp
  obtain ⟨p, hp, heq⟩ := Option.map_eq_some_iff.mp hlast
  obtain ⟨hpath, hsources⟩ := Prod.mk.inj heq
  obtain ⟨_, _, _, n, _, hkey, hsecret, _⟩ := h _ {} w hr p (List.mem_of_getLast? hp) hpath
  rw [hsources] at hkey hsecret
  obtain rfl := Option.some.inj hkey
  exact absurd hsecret (by decide)

end CloudGateway.Proof
