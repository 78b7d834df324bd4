import CloudGateway.Proof.CredentialPair

/-!
# What a registered vehicle has

`create_vehicle` returns `true` at once for a vehicle that is registered, so the
flag has to mean that there is a pair to log in with. It is set before the body of
a 201 response is looked at, and it stays set while a login reads the file.
-/

namespace CloudGateway.Services.CredentialRead

variable [JsonLibrary]

/-- A 201 response without a pair, or a file read halfway while the vehicle is registered. -/
def spoils (r : CredentialRead) : Bool :=
  match r.origin with
  | .created => !r.succeeded
  | .loaded => r.halfway && r.before.vehicleRegistered

end CloudGateway.Services.CredentialRead

namespace CloudGateway.Proof

open Services Transport

variable [JsonLibrary]

/-- What is asked of a call of `create_vehicle`. -/
structure Usable (reads : List CredentialRead) (c : Creation) : Prop where
  /-- If it says so, there is a pair. -/
  pair : c.returned = true →
    Together reads c.sources c.after.vechileApiKey c.after.vechileApiSecret
  /-- If it fails because credentials cannot be read, the vehicle is as registered as before. -/
  flag : c.returned = false → (∃ r ∈ c.reads, r.succeeded = false) →
    c.after.vehicleRegistered = c.registeredBefore

/-- Every call of `create_vehicle` has done what is asked of it. -/
def RegisteredUsable (w : AuthWorld) : Prop := ∀ c ∈ w.creations, Usable w.reads c

theorem usable_append {reads : List CredentialRead} {c : Creation} (h : Usable reads c)
    (more : List CredentialRead) : Usable (reads ++ more) c :=
  ⟨fun hret => together_append (h.pair hret) more, h.flag⟩

/-- As long as no read spoils it, a registered vehicle has a pair. -/
def RegisteredHolds (w : AuthWorld) : Prop :=
  (∀ r ∈ w.reads, r.spoils = false) → w.auth.vehicleRegistered = true → HoldsPair w

/-- Reading the file keeps it. -/
theorem registeredHolds_load {w : AuthWorld} (h : RegisteredHolds w) :
    RegisteredHolds (w.afterRead .loaded w.file) := by
  intro hnone hreg
  cases hok : (w.reading .loaded w.file).succeeded with
  | true => exact holdsPair_of_succeeded hok
  | false =>
      have hnew := hnone (w.reading .loaded w.file) (List.mem_append_right _ List.mem_cons_self)
      have hreg : w.auth.vehicleRegistered = true := hreg
      simp only [CredentialRead.spoils, AuthWorld.reading, hreg, Bool.and_true] at hnew
      exact holdsPair_of_key (key_of_not_halfway hok hnew)
        (h (fun r hr => hnone r (List.mem_append_left _ hr)) hreg)

theorem registeredHolds_effect {w w' : AuthWorld} (h : RegisteredHolds w)
    (he : AuthEffect w w') : RegisteredHolds w' := by
  cases he with
  | admin => exact h
  | request _ => exact h
  | vehicleLogin _ _ => exact h
  | outside => exact h
  | @created body _ =>
      intro hnone _
      have hnew := hnone (w.setRegistered.reading .created (some body))
        (List.mem_append_right _ List.mem_cons_self)
      exact holdsPair_of_succeeded (by simpa [CredentialRead.spoils, AuthWorld.reading] using hnew)
  | existed _ hok => exact fun _ _ => holdsPair_of_succeeded hok
  | loaded _ _ => exact registeredHolds_load h
  | loadFailed _ => exact registeredHolds_load h
  | authenticated _ => exact h

theorem registeredHolds_reachable {config : Config} {w : AuthWorld}
    (h : (AuthWorld.machine config).Reachable w) : RegisteredHolds w :=
  auth_invariant (P := RegisteredHolds) (fun _ hreg => Bool.noConfusion hreg)
    (fun _ _ => registeredHolds_effect) (fun _ _ h => h) h

/-! ## Calls of `create_vehicle` -/

/-- The reads of a call that has made one. -/
theorem new_reads {w w₁ : AuthWorld} (h : Aside w w₁) (r : CredentialRead) :
    (w₁.reads ++ [r]).drop w.reads.length = [r] := by
  rw [h.reads, List.drop_left]

/-- A call does what is asked of it if none of its reads spoils the registration. -/
theorem usable_outcome {w w' : AuthWorld} {returned : Bool} (h : CreateOutcome w returned w')
    (hnone : ∀ r ∈ w'.reads, r.spoils = false) (hholds : RegisteredHolds w') :
    Usable w'.reads {
      returned := returned, registeredBefore := w.auth.vehicleRegistered, after := w'.auth
      sources := w'.sources, reads := w'.reads.drop w.reads.length } := by
  cases h with
  | already _ hreg => exact ⟨fun _ => hholds hnone hreg, fun hret => Bool.noConfusion hret⟩
  | declined h =>
      refine ⟨fun hret => Bool.noConfusion hret, fun _ _ => h.registered⟩
  | @created w₁ body h _ hok =>
      refine ⟨fun _ => hholds hnone ?_, fun hret => Bool.noConfusion hret⟩
      obtain ⟨file, saves, hsave⟩ := save_spec (w₁.setRegistered.afterRead .created (some body))
      rw [hsave]
      rfl
  | @malformed w₁ body h _ hfail =>
      have hnew := hnone (w₁.setRegistered.reading .created (some body))
        (List.mem_append_right _ List.mem_cons_self)
      simp only [CredentialRead.spoils, AuthWorld.reading, Bool.not_eq_false'] at hnew
      rw [AuthWorld.reading] at hfail
      rw [hfail] at hnew
      exact Bool.noConfusion hnew
  | existed h _ _ => exact ⟨fun _ => hholds hnone rfl, fun hret => Bool.noConfusion hret⟩
  | unreadable h _ _ => exact ⟨fun hret => Bool.noConfusion hret, fun _ _ => h.registered⟩

/-- A call that has read a malformed 201 response has set the flag and failed. -/
theorem malformed_outcome {w w' : AuthWorld} {returned : Bool} (h : CreateOutcome w returned w')
    (hread : ∃ r ∈ w'.reads.drop w.reads.length, r.origin = .created ∧ r.succeeded = false) :
    returned = false ∧ w.auth.vehicleRegistered = false ∧ w'.auth.vehicleRegistered = true := by
  obtain ⟨r, hr, horigin, hfail⟩ := hread
  cases h with
  | already h _ =>
      rw [h.reads, List.drop_length] at hr
      exact absurd hr List.not_mem_nil
  | declined h =>
      rw [h.reads, List.drop_length] at hr
      exact absurd hr List.not_mem_nil
  | @created w₁ body h _ hok =>
      obtain ⟨file, saves, hsave⟩ := save_spec (w₁.setRegistered.afterRead .created (some body))
      rw [hsave] at hr
      obtain rfl := List.mem_singleton.mp (new_reads h _ ▸ hr)
      rw [hok] at hfail
      exact Bool.noConfusion hfail
  | malformed h hnew _ => exact ⟨rfl, h.registered ▸ hnew, rfl⟩
  | existed h _ _ =>
      obtain rfl := List.mem_singleton.mp (new_reads h _ ▸ hr)
      exact nomatch horigin
  | unreadable h _ _ =>
      obtain rfl := List.mem_singleton.mp (new_reads h _ ▸ hr)
      exact nomatch horigin

/-- Later effects do not matter to the calls that have been made. -/
theorem usable_effects {w w' : AuthWorld}
    (h : (∀ r ∈ w.reads, r.spoils = false) → RegisteredUsable w) (he : AuthEffects w w')
    (hnone : ∀ r ∈ w'.reads, r.spoils = false) : RegisteredUsable w' := by
  obtain ⟨⟨new, hreads⟩, hcreations⟩ := effects_history he
  rw [hreads] at hnone
  intro c hc
  rw [hcreations] at hc
  rw [hreads]
  exact usable_append (h (fun r hr => hnone r (List.mem_append_left _ hr)) c hc) new

theorem registeredUsable_reachable {config : Config} {w : AuthWorld}
    (h : (AuthWorld.machine config).Reachable w) (hnone : ∀ r ∈ w.reads, r.spoils = false) :
    RegisteredUsable w := by
  refine h.invariant (P := fun w => (∀ r ∈ w.reads, r.spoils = false) → RegisteredUsable w)
    ?_ ?_ hnone
  · exact fun _ c hc => absurd hc List.not_mem_nil
  · intro w a w' hr ih _ hs hnone
    have hholds : RegisteredHolds w' := registeredHolds_reachable (.tail hr trivial hs)
    rcases auth_step_cases hs with hrun | ⟨returned, w₁, hout, rfl⟩
    · exact usable_effects ih hrun hnone
    · intro c hc
      rcases List.mem_append.mp hc with hc | hc
      · -- an earlier call
        exact usable_effects ih (outcome_effects hout) hnone c hc
      · obtain rfl := List.mem_singleton.mp hc
        have husable := usable_outcome hout hnone hholds
        exact husable

/-- `create_vehicle` does nothing for a vehicle that is registered. -/
theorem createVehicle_registered {w : AuthWorld}
    (hreg : w.auth.vehicleRegistered = true) (l n : Bool) : w.createVehicle l n = (true, w) := by
  rw [createVehicle_eq, AuthWorld.attempt, if_pos hreg]

/--
**Registered means usable as long as no read spoils it.** A call that reads a 201
response without a pair has set the flag and failed; and once the file has been
read halfway for a registered vehicle, the next call says `true` without a pair.
-/
theorem registered_usable_when {config : Config} {w : AuthWorld}
    (h : (AuthWorld.machine config).Reachable w) :
    ((∀ r ∈ w.reads, r.spoils = false) → RegisteredUsable w)
      ∧ ∀ l n replies saves w', w.step (.createVehicle l n replies saves) = some w' →
          ((∃ r ∈ w'.reads.drop w.reads.length, r.origin = .created ∧ r.succeeded = false)
            ∨ ∃ r, w.reads.getLast? = some r ∧ r.halfway = true ∧ w.auth.vehicleRegistered = true) →
          ¬ RegisteredUsable w' := by
  refine ⟨registeredUsable_reachable h, ?_⟩
  intro l n replies saves w' hs hread husable
  rcases hread with hmalformed | ⟨r, hr, hhalf, hreg⟩
  · obtain ⟨returned, w₁, hout, rfl⟩ := createVehicle_step hs
    obtain ⟨hret, hbefore, hafter⟩ := malformed_outcome hout hmalformed
    obtain ⟨r, hr, _, hfail⟩ := hmalformed
    have hflag := (husable _ (List.mem_append_right _ (List.mem_singleton.mpr rfl))).flag hret
      ⟨r, hr, hfail⟩
    rw [hafter, hbefore] at hflag
    exact Bool.noConfusion hflag
  · simp only [AuthWorld.step, createVehicle_registered (w := w.given replies saves) hreg] at hs
    obtain rfl := Option.some.inj hs
    have hpair := (husable _ (List.mem_append_right _ (List.mem_singleton.mpr rfl))).pair rfl
    exact not_together_of_last (memory_reachable h) hr hhalf hpair

omit [JsonLibrary] in
/-- The vehicle exists and its credentials are in the file; a second call finds it registered. -/
theorem registered_usable_when_existing :
    ∃ (_ : JsonLibrary) (w : AuthWorld), (AuthWorld.machine {}).Reachable w
      ∧ w.creations.map (fun c => c.returned) = [true, true] ∧ RegisteredUsable w := by
  let stored := utf8 "\x7b\"apiKey\":\"K\",\"apiSecret\":\"S\"\x7d"
  let loggedIn := utf8 "\x7b\"success\":true,\"data\":\x7b\"accessToken\":\"A\"\x7d\x7d"
  let _ : JsonLibrary := libraryOf (fun _ => "") [
    (stored, .obj [("apiKey", .str "K"), ("apiSecret", .str "S")]),
    (loggedIn, .obj [("data", .obj [("accessToken", .str "A")]), ("success", .bool true)])]
  obtain ⟨w, hr, hp⟩ := Reactive.Machine.exists_reachable_of_run (M := AuthWorld.machine {})
    (l := [.replaceFile (some stored), .setup [⟨200, loggedIn⟩],
      .createVehicle false false [⟨409, []⟩] [], .createVehicle false false [] []])
    (p := fun w => decide (w.creations.map (fun c => c.returned) = [true, true]
      ∧ w.reads.all (fun r => !r.spoils) = true)) (by decide)
  obtain ⟨hreturned, hnone⟩ := of_decide_eq_true hp
  refine ⟨_, w, hr, hreturned, (registered_usable_when hr).1 (fun r hr => ?_)⟩
  simpa using List.all_eq_true.mp hnone r hr

omit [JsonLibrary] in
/-- After a 201 response that is not JSON, the next call says `true` with nothing in memory. -/
theorem not_registeredUsable :
    ¬ ∀ (_ : JsonLibrary) (config : Config) (w : AuthWorld),
      (AuthWorld.machine config).Reachable w → RegisteredUsable w := by
  intro h
  let loggedIn := utf8 "\x7b\"success\":true,\"data\":\x7b\"accessToken\":\"A\"\x7d\x7d"
  let _ : JsonLibrary := libraryOf (fun _ => "") [
    (loggedIn, .obj [("data", .obj [("accessToken", .str "A")]), ("success", .bool true)])]
  obtain ⟨w, hr, hp⟩ := Reactive.Machine.exists_reachable_of_run (M := AuthWorld.machine {})
    (l := [.setup [⟨200, loggedIn⟩], .createVehicle false false [⟨201, utf8 "created"⟩] [],
      .createVehicle false false [] []])
    (p := fun w => decide (w.creations.map (fun c => (c.returned, c.registeredBefore, c.sources))
      = [(false, false, ⟨none, none⟩), (true, true, ⟨none, none⟩)])) (by decide)
  have hcreations := of_decide_eq_true hp
  obtain ⟨c, hc, heq⟩ := List.mem_map.mp (hcreations ▸ List.mem_cons_of_mem _ List.mem_cons_self)
  obtain ⟨hret, hrest⟩ := Prod.mk.inj heq
  obtain ⟨_, hsources⟩ := Prod.mk.inj hrest
  obtain ⟨n, _, hkey, _⟩ := (h _ {} w hr c hc).pair hret
  rw [hsources] at hkey
  exact nomatch hkey

end CloudGateway.Proof
