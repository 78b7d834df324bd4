import CloudGateway.Proof.Pipeline
import CloudGateway.Services.CallData

/-!
# What the unary calls publish, the gateway can read

The `TripInit` and `TripMove` calls publish on topics the gateway itself serves.
A payload printed for one of them is parsed, read key by key, passed on by
position and stored into a command. At the end stands the request that was
printed, as long as `parse` undoes `dump` (`Undoes`).
-/

namespace CloudGateway.Proof

open Services Application Transport Proto Constants JsonLibrary

/-- The members of the document of a `TripInit` call. -/
def tripInitFields (r : TripInitRequest) : List (String × Json) :=
  [("vinNumber", .str r.vinNumber), ("requestId", .int r.requestId),
   ("startLong", .float r.startLong), ("startLat", .float r.startLat),
   ("endLong", .float r.endLong), ("endLat", .float r.endLat)]

/-- The members of the document of a `TripMove` call. -/
def tripMoveFields (r : TripMoveRequest) : List (String × Json) :=
  [("vinNumber", .str r.vinNumber), ("tripId", .int r.tripId),
   ("longitude", .float r.longitude), ("latitude", .float r.latitude)]

variable [JsonLibrary]

/-- The payload of a `TripInit` call is the command with the same request. -/
theorem carries_tripInit {r : TripInitRequest} (hplain : ∀ f ∈ tripInitFields r, Plain f.2)
    (hjson : Undoes JsonText.dump (tripInitFields r)) :
    Carries ⟨utf8 tripInitCallData.mqttTopic, utf8 (tripInitCallData.buildPayload r)⟩
      (.tripInit r) := by
  have hat : ∀ {key v}, (key, v) ∈ tripInitFields r →
      (Json.object ((tripInitFields r).map (fun f => (f.1, reread f.2)))).at key
        = .ok (reread v) := fun h => reread_at (by simp [tripInitFields]) h
  refine ⟨⟨_, rfl, rfl⟩, _, hjson hplain, ?_⟩
  simp only [commandFields, List.forall_mem_cons, Field.ReadFrom]
  refine ⟨?_, ?_, ?_, ?_, ?_, ?_, fun _ h => absurd h (by simp)⟩
  · exact ⟨_, hat (v := .str r.vinNumber) (by simp [tripInitFields]), rfl⟩
  · exact ⟨_, hat (v := .int r.requestId) (by simp [tripInitFields]), getInt64_reread _⟩
  · exact ⟨_, hat (v := .float r.startLong) (by simp [tripInitFields]), rfl⟩
  · exact ⟨_, hat (v := .float r.startLat) (by simp [tripInitFields]), rfl⟩
  · exact ⟨_, hat (v := .float r.endLong) (by simp [tripInitFields]), rfl⟩
  · exact ⟨_, hat (v := .float r.endLat) (by simp [tripInitFields]), rfl⟩

/-- The payload of a `TripMove` call is the command with the same request. -/
theorem carries_tripMove {r : TripMoveRequest} (hplain : ∀ f ∈ tripMoveFields r, Plain f.2)
    (hjson : Undoes JsonText.dump (tripMoveFields r)) :
    Carries ⟨utf8 tripMoveCallData.mqttTopic, utf8 (tripMoveCallData.buildPayload r)⟩
      (.tripMove r) := by
  have hat : ∀ {key v}, (key, v) ∈ tripMoveFields r →
      (Json.object ((tripMoveFields r).map (fun f => (f.1, reread f.2)))).at key
        = .ok (reread v) := fun h => reread_at (by simp [tripMoveFields]) h
  refine ⟨⟨_, rfl, rfl⟩, _, hjson hplain, ?_⟩
  simp only [commandFields, List.forall_mem_cons, Field.ReadFrom]
  refine ⟨?_, ?_, ?_, ?_, fun _ h => absurd h (by simp)⟩
  · exact ⟨_, hat (v := .str r.vinNumber) (by simp [tripMoveFields]), rfl⟩
  · exact ⟨_, hat (v := .int r.tripId) (by simp [tripMoveFields]), getInt64_reread _⟩
  · exact ⟨_, hat (v := .float r.longitude) (by simp [tripMoveFields]), rfl⟩
  · exact ⟨_, hat (v := .float r.latitude) (by simp [tripMoveFields]), rfl⟩

/-! ## Both together -/

/-- What an accepted `TripInit` payload does at its topic. -/
theorem dispatch_tripInit {payload : Bytes} {r : TripInitRequest}
    (h : Carries ⟨utf8 kTopicTripInit, payload⟩ (.tripInit r)) (s : Trips World) :
    routes.dispatch (utf8 kTopicTripInit) payload s = (.ok (), applied s (.tripInit r)) := by
  have hroute : routes.handlers.lookup (utf8 kTopicTripInit)
      = some (Trips.handleTripInit tripCallbacks) := rfl
  have hread := readTripInit_ok_iff.mpr h
  simp only [MqttRouter.dispatch, hroute, Trips.handleTripInit, Trips.handle, hread]
  rfl

/-- What an accepted `TripMove` payload does at its topic. -/
theorem dispatch_tripMove {payload : Bytes} {r : TripMoveRequest}
    (h : Carries ⟨utf8 kTopicTripMove, payload⟩ (.tripMove r)) (s : Trips World) :
    routes.dispatch (utf8 kTopicTripMove) payload s = (.ok (), applied s (.tripMove r)) := by
  have hroute : routes.handlers.lookup (utf8 kTopicTripMove)
      = some (Trips.handleTripMove tripCallbacks) := rfl
  have hread := readTripMove_ok_iff.mpr h
  simp only [MqttRouter.dispatch, hroute, Trips.handleTripMove, Trips.handle, hread]
  rfl

/--
**What a unary call publishes, the gateway pushes.** The message of a `TripInit`
call with finite coordinates is accepted and pushes one command, with the request
of the call; and so for `TripMove`.
-/
theorem unary_roundtrip :
    (∀ (r : TripInitRequest) (s : Trips World),
        r.startLong.isFinite = true → r.startLat.isFinite = true → r.endLong.isFinite = true →
        r.endLat.isFinite = true → Undoes JsonText.dump (tripInitFields r) →
        accepts ⟨utf8 tripInitCallData.mqttTopic, utf8 (tripInitCallData.buildPayload r)⟩ = true
        ∧ ∃ s', routes.dispatch (utf8 tripInitCallData.mqttTopic)
              (utf8 (tripInitCallData.buildPayload r)) s = (.ok (), s')
            ∧ s'.world.pushed = s.world.pushed ++ [.tripInit r])
      ∧ ∀ (r : TripMoveRequest) (s : Trips World),
        r.longitude.isFinite = true → r.latitude.isFinite = true →
        Undoes JsonText.dump (tripMoveFields r) →
        accepts ⟨utf8 tripMoveCallData.mqttTopic, utf8 (tripMoveCallData.buildPayload r)⟩ = true
        ∧ ∃ s', routes.dispatch (utf8 tripMoveCallData.mqttTopic)
              (utf8 (tripMoveCallData.buildPayload r)) s = (.ok (), s')
            ∧ s'.world.pushed = s.world.pushed ++ [.tripMove r] := by
  constructor
  · intro r s hsLon hsLat heLon heLat hjson
    have hcarries := carries_tripInit
      (by simp [tripInitFields, Plain, hsLon, hsLat, heLon, heLat]) hjson
    exact ⟨(accepts_iff_carries _).mpr ⟨_, hcarries⟩, _, dispatch_tripInit hcarries s,
      pushCommand_pushed _ _⟩
  · intro r s hlon hlat hjson
    have hcarries := carries_tripMove (by simp [tripMoveFields, Plain, hlon, hlat]) hjson
    exact ⟨(accepts_iff_carries _).mpr ⟨_, hcarries⟩, _, dispatch_tripMove hcarries s,
      pushCommand_pushed _ _⟩

omit [JsonLibrary] in
/-- A `TripInit` and a `TripMove`, with a negative id in the first. -/
theorem unary_roundtrip_both :
    ∃ (_ : JsonLibrary) (i : TripInitRequest) (m : TripMoveRequest) (s₁ s₂ : Trips World),
      routes.dispatch (utf8 kTopicTripInit) (utf8 (tripInitCallData.buildPayload i))
          ⟨.new, .start⟩ = (.ok (), s₁)
      ∧ s₁.world.pushed = [.tripInit i]
      ∧ routes.dispatch (utf8 kTopicTripMove) (utf8 (tripMoveCallData.buildPayload m)) s₁
        = (.ok (), s₂)
      ∧ s₂.world.pushed = [.tripInit i, .tripMove m] := by
  let i : TripInitRequest :=
    ⟨"V1", -3, ⟨0x3ff8000000000000⟩, ⟨0x4004000000000000⟩, ⟨0⟩, ⟨0xbff8000000000000⟩⟩
  let m : TripMoveRequest := ⟨"V1", 7, ⟨0x3ff8000000000000⟩, ⟨0x4004000000000000⟩⟩
  let init := "\x7b\"endLat\":-1.5,\"endLong\":0.0,\"requestId\":-3,\"startLat\":2.5,"
    ++ "\"startLong\":1.5,\"vinNumber\":\"V1\"\x7d"
  let move := "\x7b\"latitude\":2.5,\"longitude\":1.5,\"tripId\":7,\"vinNumber\":\"V1\"\x7d"
  -- the library on the two documents of this run
  let print : Json → String := fun j =>
    match j.at "tripId" with
    | .ok _ => move
    | .error _ => init
  let _ : JsonLibrary := libraryOf print [
    (utf8 init, .obj [("endLat", .float ⟨0xbff8000000000000⟩), ("endLong", .float ⟨0⟩),
      ("requestId", .int (-3)), ("startLat", .float ⟨0x4004000000000000⟩),
      ("startLong", .float ⟨0x3ff8000000000000⟩), ("vinNumber", .str "V1")]),
    (utf8 move, .obj [("latitude", .float ⟨0x4004000000000000⟩),
      ("longitude", .float ⟨0x3ff8000000000000⟩), ("tripId", .uint 7), ("vinNumber", .str "V1")])]
  have hid : reread (.int (-3)) = .int (-3) := by
    simp only [reread]
    exact if_neg (by decide)
  have htrip : reread (.int 7) = .uint 7 := by
    simp only [reread]
    exact if_pos (by decide)
  have hinit : Undoes JsonText.dump (tripInitFields i) := by
    intro _
    simp only [tripInitFields, List.map_cons, i, hid]
    rfl
  have hmove : Undoes JsonText.dump (tripMoveFields m) := by
    intro _
    simp only [tripMoveFields, List.map_cons, m, htrip]
    rfl
  obtain ⟨_, s₁, hrun₁, hpushed₁⟩ := unary_roundtrip.1 i ⟨.new, .start⟩ (by decide) (by decide)
    (by decide) (by decide) hinit
  obtain ⟨_, s₂, hrun₂, hpushed₂⟩ := unary_roundtrip.2 m s₁ (by decide) (by decide) hmove
  refine ⟨_, i, m, s₁, s₂, hrun₁, hpushed₁, hrun₂, ?_⟩
  rw [hpushed₂, hpushed₁]
  rfl

end CloudGateway.Proof
