import CloudGateway.Proof.Inbound

/-!
# The ids the orchestrator gives back

Both ids arrive as `int64_t`. `trip_id_` keeps one as it is; `request_id_` is an
`std::atomic<double>`, whose mantissa has 53 bits. So `active_trip_id` returns
what was stored, and `active_request_id` does exactly if the id has no more
significant bits than that.
-/

namespace CloudGateway.Proof

open Services Application JsonLibrary BinaryFloat
open Float.Model (Format)

/-! ## Through a `double` and back -/

theorem toInt64?_eq_some_iff {d : Double} {n : Int64} :
    d.toInt64? = some n ↔ trunc d.unpack = some n.toInt := by
  unfold Double.toInt64?
  cases trunc d.unpack with
  | none => simp
  | some k =>
      constructor
      · intro h
        dsimp only at h
        split at h
        · rw [← Option.some.inj h, Int64.toInt_ofIntLE]
        · exact nomatch h
      · intro h
        obtain rfl := Option.some.inj h
        dsimp only
        rw [dif_pos ⟨n.minValue_le_toInt, n.toInt_le⟩]
        exact congrArg some (Int64.toInt.inj (Int64.toInt_ofIntLE))

/-- Where C++ defines the conversion, the saturating one agrees. -/
theorem toInt64_of_toInt64? {d : Double} {n : Int64} (h : d.toInt64? = some n) : d.toInt64 = n := by
  have htrunc := toInt64?_eq_some_iff.mp h
  have hint : ∀ lo hi, d.unpack.toInt lo hi = n.toInt := by
    intro lo hi
    cases hd : d.unpack with
    | infinity s => rw [hd] at htrunc; exact nomatch htrunc
    | notANumber => rw [hd] at htrunc; exact nomatch htrunc
    | zero s => rw [hd] at htrunc; exact Option.some.inj htrunc
    | finite s m e hm => rw [hd] at htrunc; exact Option.some.inj htrunc
  rw [Double.toInt64, Float.Model.UnpackedFloat.toInt64, hint, Int64.ofIntClamp_toInt]

/-- The integers of a `double` have at most 53 significant bits. -/
theorem fits_of_toInt64? {d : Double} {n : Int64} (h : d.toInt64? = some n) :
    Fits 53 n.toInt.natAbs :=
  fits_of_trunc (F := .binary64) (toInt64?_eq_some_iff.mp h)

theorem int64_range (n : Int64) : -2 ^ 63 ≤ n.toInt ∧ n.toInt < 2 ^ 63 := by
  have hlo := n.minValue_le_toInt
  have hhi := n.toInt_le
  have hmin : Int64.minValue.toInt = -2 ^ 63 := by decide
  have hmax : Int64.maxValue.toInt = 2 ^ 63 - 1 := by decide
  omega

theorem log2_int64 (n : Int64) : n.toInt.natAbs.log2 ≤ Format.binary64.exponentBias := by
  obtain ⟨hlo, hhi⟩ := int64_range n
  have hbias : Format.binary64.exponentBias = 1023 := rfl
  rcases Nat.eq_zero_or_pos n.toInt.natAbs with h0 | hpos
  · rw [h0]; exact Nat.zero_le _
  · have hlog := (Nat.log2_lt (k := 64) (Nat.pos_iff_ne_zero.mp hpos)).mpr (by omega)
    omega

/-- **An `int64_t` comes back from a `double` exactly if it has at most 53 significant bits.** -/
theorem toInt64?_ofInt64_iff (n : Int64) :
    (Double.ofInt64 n).toInt64? = some n ↔ Fits 53 n.toInt.natAbs := by
  rw [toInt64?_eq_some_iff]
  exact trunc_fromInt_iff (F := .binary64) (by decide) (log2_int64 n)

/-! ## After a command has been accepted -/

/-- A handler that returns has read its payload and acted on it. -/
theorem handle_ok {ω α : Type} {read : Bytes → Except JsonException α}
    {act : α → Trips ω → Trips ω} {payload : Bytes} {s s' : Trips ω}
    (h : Trips.handle read act payload s = (.ok (), s')) :
    ∃ a, read payload = .ok a ∧ s' = act a s := by
  unfold Trips.handle at h
  split at h
  · exact absurd (congrArg Prod.fst h) (by simp)
  · rename_i a ha
    exact ⟨a, ha, (congrArg Prod.snd h).symm⟩

theorem handle_of_read {ω α : Type} {read : Bytes → Except JsonException α}
    {act : α → Trips ω → Trips ω} {payload : Bytes} {a : α} (h : read payload = .ok a)
    (s : Trips ω) : Trips.handle read act payload s = (.ok (), act a s) := by
  simp only [Trips.handle, h]

@[simp] theorem invoke_ids {ω : Type} (s : Trips ω) (callback : Option (ω → ω)) :
    (s.invoke callback).ids = s.ids := by
  cases callback <;> rfl

variable [JsonLibrary]

/-- The payload has this id under the key. -/
def HasId (payload : Bytes) (key : String) (id : Int64) : Prop :=
  ∃ j, parse payload = .ok j ∧ Reads Json.getInt64 j key id

theorem HasId.unique {payload : Bytes} {key : String} {id other : Int64}
    (h : HasId payload key id) (h' : HasId payload key other) : id = other := by
  obtain ⟨j, hj, v, hv, hid⟩ := h
  obtain ⟨j', hj', v', hv', hother⟩ := h'
  obtain rfl := Except.ok.inj (hj.symm.trans hj')
  obtain rfl := Except.ok.inj (hv.symm.trans hv')
  exact Except.ok.inj (hid.symm.trans hother)

theorem tripInit_hasId {payload : Bytes} {a : String × Int64 × Double × Double × Double × Double}
    (h : readTripInit payload = .ok a) : HasId payload "requestId" a.2.1 := by
  obtain ⟨vin, id, sLon, sLat, eLon, eLat⟩ := a
  obtain ⟨j, hj, hfields⟩ := (readTripInit_ok_iff.mp h).fields
  exact ⟨j, hj, hfields ("requestId", .int64 id) (by simp [commandFields])⟩

theorem tripMove_hasId {payload : Bytes} {a : String × Int64 × Double × Double}
    (h : readTripMove payload = .ok a) : HasId payload "tripId" a.2.1 := by
  obtain ⟨vin, id, lon, lat⟩ := a
  obtain ⟨j, hj, hfields⟩ := (readTripMove_ok_iff.mp h).fields
  exact ⟨j, hj, hfields ("tripId", .int64 id) (by simp [commandFields])⟩

theorem tripCancel_hasId {payload : Bytes} {a : String × Int64}
    (h : readTripCancel payload = .ok a) : HasId payload "requestId" a.2 := by
  obtain ⟨vin, id⟩ := a
  obtain ⟨j, hj, hfields⟩ := (readTripCancel_ok_iff.mp h).fields
  exact ⟨j, hj, hfields ("requestId", .int64 id) (by simp [commandFields])⟩

variable {ω : Type} (callbacks : TripCallbacks ω)

/-- `handle_trip_init` stores the request id, as a `double`. -/
theorem tripInit_stores {payload : Bytes} {r : Int64} {s s' : Trips ω}
    (hid : HasId payload "requestId" r)
    (h : Trips.handleTripInit callbacks payload s = (.ok (), s')) :
    s'.ids = { s.ids with requestId := .ofInt64 r } := by
  obtain ⟨a, hread, rfl⟩ := handle_ok h
  rw [invoke_ids, hid.unique (tripInit_hasId hread)]
  rfl

/-- `handle_trip_move` stores the trip id. -/
theorem tripMove_stores {payload : Bytes} {r : Int64} {s s' : Trips ω}
    (hid : HasId payload "tripId" r)
    (h : Trips.handleTripMove callbacks payload s = (.ok (), s')) :
    s'.ids = { s.ids with tripId := r } := by
  obtain ⟨a, hread, rfl⟩ := handle_ok h
  rw [invoke_ids, hid.unique (tripMove_hasId hread)]
  rfl

/--
**When the active ids are exact.** After an accepted trip init the active request
id is the one of the payload if and only if it has at most 53 significant bits;
after an accepted trip move the active trip id always is.
-/
theorem active_ids_iff (s : Trips ω) :
    (∀ payload r s', HasId payload "requestId" r →
      Trips.handleTripInit callbacks payload s = (.ok (), s') →
      (s'.ids.activeRequestId = some r ↔ Fits 53 r.toInt.natAbs))
    ∧ ∀ payload r s', HasId payload "tripId" r →
      Trips.handleTripMove callbacks payload s = (.ok (), s') → s'.ids.activeTripId = r := by
  refine ⟨fun payload r s' hid h => ?_, fun payload r s' hid h => ?_⟩
  · rw [TripIds.activeRequestId, tripInit_stores callbacks hid h]
    exact toInt64?_ofInt64_iff r
  · rw [TripIds.activeTripId, tripMove_stores callbacks hid h]

section Runs

/-- A payload that both handlers accept, with one id for both, -/
def bothIdsText (id : String) : Bytes :=
  utf8 ("\x7b\"vinNumber\":\"V1\",\"requestId\":" ++ id ++ ",\"tripId\":" ++ id
    ++ ",\"startLong\":0.0,\"startLat\":0.0,\"endLong\":0.0,\"endLat\":0.0"
    ++ ",\"longitude\":0.0,\"latitude\":0.0\x7d")

/-- its document, -/
def bothIds (id : Json) : Json :=
  .obj [("endLat", .float ⟨0⟩), ("endLong", .float ⟨0⟩), ("latitude", .float ⟨0⟩),
    ("longitude", .float ⟨0⟩), ("requestId", id), ("startLat", .float ⟨0⟩),
    ("startLong", .float ⟨0⟩), ("tripId", id), ("vinNumber", .str "V1")]

/-- and an orchestrator without callbacks. -/
def quiet : TripCallbacks Unit := ⟨none, none, none, none, none, none⟩

omit [JsonLibrary] in
/-- An id with 61 bits, of which one is significant. -/
theorem active_ids_iff_large :
    ∃ (_ : JsonLibrary) (s₁ s₂ : Trips Unit),
      Trips.handleTripInit quiet (bothIdsText "1152921504606846976") ⟨.new, ()⟩ = (.ok (), s₁)
      ∧ s₁.ids.activeRequestId = some 1152921504606846976
      ∧ Trips.handleTripMove quiet (bothIdsText "1152921504606846976") ⟨.new, ()⟩ = (.ok (), s₂)
      ∧ s₂.ids.activeTripId = 1152921504606846976 := by
  let _ : JsonLibrary := libraryOf (fun _ => "")
    [(bothIdsText "1152921504606846976", bothIds (.uint 1152921504606846976))]
  have hparse : parse (bothIdsText "1152921504606846976")
      = .ok (bothIds (.uint 1152921504606846976)) := parse_libraryOf_self _ _ _
  have hreadInit : readTripInit (bothIdsText "1152921504606846976")
      = .ok ("V1", 1152921504606846976, ⟨0⟩, ⟨0⟩, ⟨0⟩, ⟨0⟩) := by
    rw [readTripInit, hparse]; rfl
  have hreadMove : readTripMove (bothIdsText "1152921504606846976")
      = .ok ("V1", 1152921504606846976, ⟨0⟩, ⟨0⟩) := by
    rw [readTripMove, hparse]; rfl
  obtain ⟨hrequest, htrip⟩ := active_ids_iff quiet ⟨.new, ()⟩
  refine ⟨_, _, _, handle_of_read hreadInit _, ?_, handle_of_read hreadMove _, ?_⟩
  · exact (hrequest _ _ _ ⟨_, hparse, _, rfl, rfl⟩ (handle_of_read hreadInit _)).mpr (by decide)
  · exact htrip _ _ _ ⟨_, hparse, _, rfl, rfl⟩ (handle_of_read hreadMove _)

omit [JsonLibrary] in
/-- The first id that a `double` cannot hold, `2^53 + 1`. -/
theorem not_activeRequestId_exact :
    ¬ ∀ (_ : JsonLibrary) (callbacks : TripCallbacks Unit) (payload : Bytes) (r : Int64)
      (s s' : Trips Unit), HasId payload "requestId" r →
      Trips.handleTripInit callbacks payload s = (.ok (), s') →
      s'.ids.activeRequestId = some r := by
  intro h
  let _ : JsonLibrary := libraryOf (fun _ => "")
    [(bothIdsText "9007199254740993", bothIds (.uint 9007199254740993))]
  have hparse : parse (bothIdsText "9007199254740993")
      = .ok (bothIds (.uint 9007199254740993)) := parse_libraryOf_self _ _ _
  have hread : readTripInit (bothIdsText "9007199254740993")
      = .ok ("V1", 9007199254740993, ⟨0⟩, ⟨0⟩, ⟨0⟩, ⟨0⟩) := by
    rw [readTripInit, hparse]; rfl
  have hexact := h inferInstance quiet _ 9007199254740993 ⟨.new, ()⟩ _
    ⟨_, hparse, _, rfl, rfl⟩ (handle_of_read hread _)
  exact absurd ((toInt64?_ofInt64_iff _).mp hexact) (by decide)

end Runs

end CloudGateway.Proof
