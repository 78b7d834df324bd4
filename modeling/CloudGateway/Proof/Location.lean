import CloudGateway.Main
import CloudGateway.Proof.JsonAccess

/-!
# The location that is published

The subscriber of `autoware/location` reads with `operator[]`, which does not fail on
a key that is missing: it fills in null, and makes an object of a null document first.
What is published is complete exactly if there was nothing to fill in.
-/

namespace CloudGateway.Proof

open Transport JsonLibrary Constants

/-! ## Reading with `operator[]` -/

/-- The value under a key, and null where there is none. -/
def orNull (j : Json) (key : String) : Json := (j.at key).toOption.getD .null

/-- A document that `operator[]` reads, or fills in. -/
def Fillable (j : Json) : Prop := j = .null ∨ ∃ members, j = .obj members

theorem orNull_obj (members : List (String × Json)) (key : String) :
    orNull (.obj members) key = (members.lookup key).getD .null := by
  rw [orNull, Json.at]
  cases members.lookup key <;> rfl

/-- **A document is read if it can be filled in, and the other keys stay as they are.** -/
theorem subscript_fillable {j : Json} (h : Fillable j) (key : String) :
    ∃ j', j.subscript key = .ok (orNull j key, j') ∧ Fillable j'
      ∧ ∀ other, other ≠ key → orNull j' other = orNull j other := by
  rcases h with rfl | ⟨members, rfl⟩
  · refine ⟨_, rfl, .inr ⟨_, rfl⟩, fun other hne => ?_⟩
    rw [orNull_obj, List.lookup_cons, beq_eq_false_iff_ne.mpr hne]
    rfl
  · rw [orNull_obj]
    cases hfound : members.lookup key with
    | some v =>
        have hread : (Json.obj members).subscript key = .ok (v, .obj members) := by
          simp only [Json.subscript, hfound]
        exact ⟨_, hread, .inr ⟨members, rfl⟩, fun _ _ => rfl⟩
    | none =>
        have hread : (Json.obj members).subscript key
            = .ok (.null, .obj (Json.assign key .null members)) := by
          simp only [Json.subscript, hfound]
        refine ⟨_, hread, .inr ⟨_, rfl⟩, fun other hne => ?_⟩
        rw [orNull_obj, orNull_obj, lookup_assign_ne hne]

/-- Any other document makes it throw. -/
theorem subscript_error {j : Json} (h : ¬ Fillable j) (key : String) :
    j.subscript key = .error .typeError := by
  cases j with
  | null => exact absurd (.inl rfl) h
  | obj members => exact absurd (.inr ⟨members, rfl⟩) h
  | _ => rfl

/-! ## The message -/

/-- What a location message says. -/
structure Location where
  latitude : Json
  longitude : Json
  tripId : Json

/-- The object that is published for a location. -/
def Location.message (l : Location) (vinNumber : String) : Json :=
  .object [("vinNumber", .str vinNumber), ("latitude", l.latitude), ("longitude", l.longitude),
    ("tripId", l.tripId)]

/-- The document has the three values. -/
structure Holds (j : Json) (l : Location) : Prop where
  latitude : j.at "latitude" = .ok l.latitude
  longitude : j.at "longitude" = .ok l.longitude
  tripId : j.at "tripId" = .ok l.tripId

/-- What the subscriber takes for the location. -/
def filledIn (j : Json) : Location :=
  { latitude := orNull j "latitude"
    longitude := orNull j "longitude"
    tripId := orNull j "tripId" }

/-- `dump` prints the text that a `std::string` is the UTF-8 of. -/
theorem dumpable_ok_iff {s : Bytes} {text : String} : dumpable s = .ok text ↔ utf8 text = s := by
  unfold dumpable String.fromUTF8?
  constructor
  · intro h
    by_cases hvalid : ByteArray.IsValidUTF8 ⟨s.toArray⟩
    · rw [dif_pos hvalid] at h
      rw [← Except.ok.inj h]
      exact List.toList_toArray
    · rw [dif_neg hvalid] at h
      exact nomatch h
  · rintro rfl
    have harray : (⟨(utf8 text).toArray⟩ : ByteArray) = text.toByteArray := by
      rw [utf8, Array.toArray_toList]
      rfl
    rw [dif_pos (harray ▸ text.isValidUTF8)]
    exact congrArg Except.ok (String.toByteArray_inj.mp harray)

section Message

variable [JsonLibrary] {vinNumber payload : Bytes}

/-- The message for a document that can be filled in. -/
theorem locationMessage_fillable {j : Json} (hparse : parse payload = .ok j) (hj : Fillable j) :
    locationMessage vinNumber payload
      = dumpable vinNumber >>= fun vin => pure (JsonText.dump ((filledIn j).message vin)) := by
  obtain ⟨j₁, hlat, hj₁, hsame₁⟩ := subscript_fillable hj "latitude"
  obtain ⟨j₂, hlong, hj₂, hsame₂⟩ := subscript_fillable hj₁ "longitude"
  obtain ⟨j₃, htrip, _, _⟩ := subscript_fillable hj₂ "tripId"
  have hlongitude : orNull j₁ "longitude" = orNull j "longitude" := hsame₁ _ (by decide)
  have htripId : orNull j₂ "tripId" = orNull j "tripId" :=
    (hsame₂ _ (by decide)).trans (hsame₁ _ (by decide))
  rw [hlongitude] at hlong
  rw [htripId] at htrip
  rw [locationMessage, hparse]
  show (j.subscript "latitude" >>= _) = _
  rw [hlat]
  show (j₁.subscript "longitude" >>= _) = _
  rw [hlong]
  show (j₂.subscript "tripId" >>= _) = _
  rw [htrip]
  rfl

theorem locationMessage_error {j : Json} (hparse : parse payload = .ok j) (hj : ¬ Fillable j) :
    locationMessage vinNumber payload = .error .typeError := by
  rw [locationMessage, hparse]
  show (j.subscript "latitude" >>= _) = _
  rw [subscript_error hj]
  rfl

/-- **A message is made of every document that can be filled in, with what is filled in.** -/
theorem locationMessage_ok_iff {text : String} :
    locationMessage vinNumber payload = .ok text
      ↔ ∃ j vin, parse payload = .ok j ∧ Fillable j ∧ utf8 vin = vinNumber
          ∧ JsonText.dump ((filledIn j).message vin) = text := by
  constructor
  · intro h
    obtain ⟨j, hparse, _⟩ := bind_ok_iff.mp h
    by_cases hj : Fillable j
    · rw [locationMessage_fillable hparse hj] at h
      obtain ⟨vin, hvin, h⟩ := bind_ok_iff.mp h
      exact ⟨j, vin, hparse, hj, dumpable_ok_iff.mp hvin, Except.ok.inj h⟩
    · rw [locationMessage_error hparse hj] at h
      cases h
  · rintro ⟨j, vin, hparse, hj, hvin, rfl⟩
    rw [locationMessage_fillable hparse hj]
    exact bind_ok_iff.mpr ⟨vin, dumpable_ok_iff.mpr hvin, rfl⟩

end Message

/-! ## What is published -/

/-- The client hands publications on. -/
def Publishing (mqtt : MqttClient) : Prop := mqtt.started = true ∧ mqtt.session.isSome = true

theorem publish_ok_iff {mqtt : MqttClient} {topic payload : Bytes} {p : Publication} :
    mqtt.publish topic payload = .ok p ↔ Publishing mqtt ∧ p = ⟨topic, payload⟩ := by
  unfold MqttClient.publish Publishing
  cases mqtt.started <;> cases mqtt.session <;> simp [eq_comm]

/-- A document in which `operator[]` has nothing to fill in for a location. -/
def Gapless : Json → Prop
  | .null => False
  | .obj members =>
      ∀ key ∈ ["latitude", "longitude", "tripId"], (members.lookup key).isSome = true
  | .bool _ | .int _ | .uint _ | .float _ | .str _ | .arr _ => True

theorem gapless_of_holds {j : Json} {l : Location} (h : Holds j l) : Gapless j := by
  obtain ⟨members, rfl, hlat⟩ := at_ok_iff.mp h.latitude
  obtain ⟨_, hsame, hlong⟩ := at_ok_iff.mp h.longitude
  obtain rfl := Json.obj.inj hsame
  obtain ⟨_, hsame, htrip⟩ := at_ok_iff.mp h.tripId
  obtain rfl := Json.obj.inj hsame
  intro key hkey
  rcases List.mem_cons.mp hkey with rfl | hkey
  · rw [hlat]; rfl
  · rcases List.mem_cons.mp hkey with rfl | hkey
    · rw [hlong]; rfl
    · rw [List.mem_singleton.mp hkey, htrip]; rfl

/-- A gapless document that can be read has the location that is taken from it. -/
theorem holds_of_gapless {j : Json} (hj : Fillable j) (h : Gapless j) : Holds j (filledIn j) := by
  rcases hj with rfl | ⟨members, rfl⟩
  · exact absurd h id
  · have hat : ∀ key ∈ ["latitude", "longitude", "tripId"],
        (Json.obj members).at key = .ok (orNull (.obj members) key) := by
      intro key hkey
      obtain ⟨v, hv⟩ := Option.isSome_iff_exists.mp (h key hkey)
      rw [orNull_obj, hv]
      exact at_ok_iff.mpr ⟨members, rfl, hv⟩
    exact ⟨hat _ (by simp), hat _ (by simp), hat _ (by simp)⟩

section Published

variable [JsonLibrary] {cfg : Settings} {mqtt : MqttClient} {payload : Bytes}

/-- A payload that no message is made of is dropped. -/
theorem onLocation_error {e : JsonException}
    (h : locationMessage cfg.vinNumber payload = .error e) :
    onLocation cfg mqtt payload = .ok none := by
  rw [onLocation, h]
  rfl

theorem onLocation_message {text : String}
    (h : locationMessage cfg.vinNumber payload = .ok text) :
    onLocation cfg mqtt payload
      = .ok (mqtt.publish (utf8 kTopicStreamLocation) (utf8 text)).toOption := by
  rw [onLocation, h]
  rfl

/-- No exception leaves the subscriber. -/
theorem onLocation_ok (cfg : Settings) (mqtt : MqttClient) (payload : Bytes) :
    ∃ published, onLocation cfg mqtt payload = .ok published := by
  cases hmessage : locationMessage cfg.vinNumber payload with
  | error e => exact ⟨none, onLocation_error hmessage⟩
  | ok text => exact ⟨_, onLocation_message hmessage⟩

/-- What the subscriber publishes is its message, on one topic. -/
theorem onLocation_some_iff {p : Publication} :
    onLocation cfg mqtt payload = .ok (some p)
      ↔ Publishing mqtt ∧ ∃ text, locationMessage cfg.vinNumber payload = .ok text
          ∧ p = ⟨utf8 kTopicStreamLocation, utf8 text⟩ := by
  constructor
  · intro h
    cases hmessage : locationMessage cfg.vinNumber payload with
    | error e =>
        rw [onLocation_error hmessage] at h
        exact nomatch Except.ok.inj h
    | ok text =>
        rw [onLocation_message hmessage] at h
        cases hpublish : mqtt.publish (utf8 kTopicStreamLocation) (utf8 text) with
        | error e =>
            rw [hpublish] at h
            exact nomatch Except.ok.inj h
        | ok q =>
            rw [hpublish] at h
            obtain rfl := Option.some.inj (Except.ok.inj h)
            obtain ⟨hrunning, hp⟩ := publish_ok_iff.mp hpublish
            exact ⟨hrunning, text, rfl, hp⟩
  · rintro ⟨hrunning, text, hmessage, hp⟩
    rw [onLocation_message hmessage, publish_ok_iff.mpr ⟨hrunning, hp⟩]
    rfl

/-- What is published is a location that the payload has in full, and no exception escapes. -/
def PublishesComplete (cfg : Settings) (mqtt : MqttClient) (payload : Bytes) : Prop :=
  ∃ published, onLocation cfg mqtt payload = .ok published
    ∧ ∀ p ∈ published, ∃ j l vin, parse payload = .ok j ∧ Holds j l ∧ utf8 vin = cfg.vinNumber
        ∧ p = ⟨utf8 kTopicStreamLocation, utf8 (JsonText.dump (l.message vin))⟩

/--
**A location is published only if it is complete, exactly as long as no document is
to be filled in.** The client may be stopped, the configured vin may not be text and
the payload may not be JSON: nothing is published then.
-/
theorem published_complete_iff (cfg : Settings) (mqtt : MqttClient) (payload : Bytes) :
    PublishesComplete cfg mqtt payload
      ↔ (Publishing mqtt → (∃ vin, utf8 vin = cfg.vinNumber) →
          ∀ j, parse payload = .ok j → Gapless j) := by
  constructor
  · rintro ⟨published, hrun, hall⟩ hrunning ⟨vin, hvin⟩ j hparse
    by_cases hj : Fillable j
    · -- something is published for it
      have hmessage := locationMessage_ok_iff.mpr ⟨j, vin, hparse, hj, hvin, rfl⟩
      have hsome := onLocation_some_iff.mpr ⟨hrunning, _, hmessage, rfl⟩
      obtain rfl := Except.ok.inj (hsome.symm.trans hrun)
      obtain ⟨_, l, _, hparse', hholds, _⟩ := hall _ rfl
      obtain rfl := Except.ok.inj (hparse.symm.trans hparse')
      exact gapless_of_holds hholds
    · cases j with
      | null => exact absurd (.inl rfl) hj
      | obj members => exact absurd (.inr ⟨members, rfl⟩) hj
      | _ => trivial
  · intro h
    obtain ⟨published, hrun⟩ := onLocation_ok cfg mqtt payload
    refine ⟨published, hrun, fun p hp => ?_⟩
    obtain rfl : published = some p := hp
    obtain ⟨hrunning, text, hmessage, rfl⟩ := onLocation_some_iff.mp hrun
    obtain ⟨j, vin, hparse, hj, hvin, rfl⟩ := locationMessage_ok_iff.mp hmessage
    have hgapless := h hrunning ⟨vin, hvin⟩ j hparse
    exact ⟨j, filledIn j, vin, hparse, holds_of_gapless hj hgapless, hvin, rfl⟩

end Published

/-- For `{}` a message without coordinates is published. -/
theorem not_published_complete :
    ¬ ∀ (_ : JsonLibrary) (cfg : Settings) (mqtt : MqttClient) (payload : Bytes),
      PublishesComplete cfg mqtt payload := by
  intro h
  let payload := utf8 "\x7b\x7d"
  let library := libraryOf (fun _ => "") [(payload, .obj [])]
  have hparse : library.parse payload = .ok (.obj []) := parse_libraryOf_self _ payload _
  have hmessage := locationMessage_ok_iff.mpr
    ⟨.obj [], "ORIN_NANO_001", hparse, .inr ⟨[], rfl⟩, rfl, rfl⟩
  have hsome : onLocation {} MqttClient.new.start payload = .ok (some _) :=
    onLocation_some_iff.mpr ⟨⟨rfl, rfl⟩, _, hmessage, rfl⟩
  obtain ⟨published, hrun, hall⟩ := h library {} MqttClient.new.start payload
  obtain rfl := Except.ok.inj (hsome.symm.trans hrun)
  obtain ⟨j, l, _, hparse', hholds, _⟩ := hall _ rfl
  obtain rfl := Except.ok.inj (hparse.symm.trans hparse')
  exact absurd hholds.latitude (by simp [Json.at])

end CloudGateway.Proof
