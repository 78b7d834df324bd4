import CloudGateway.Proof.Reporting

/-!
# What is published tells what was reported

A report becomes a topic and a printed document. As long as `parse` undoes `dump`
(`Undoes`), two objects with one text have the same value under every key they
share (`SameText.value`), so a report is determined by what it is published as: on
the stream all of it, by a unary call all but the status of an ETA, which that path
does not print.
-/

namespace CloudGateway.Proof

open Services Proto Constants JsonLibrary

/-! ## One text, one value -/

/-- Plain values that are read back as one value are one value. -/
theorem reread_injective {v v' : Json} (hv : Plain v) (hv' : Plain v')
    (h : reread v = reread v') : v = v' := by
  cases v with
  | int n =>
      have hn := getInt64_reread n
      cases v' with
      | int m =>
          rw [h, getInt64_reread m] at hn
          rw [Except.ok.inj hn]
      | str s =>
          rw [h] at hn
          exact absurd hn (by simp [reread, Json.getInt64])
      | float d =>
          simp only [reread] at h
          split at h
          · exact absurd h (by simp)
          · exact absurd h (by simp)
      | _ => exact hv'.elim
  | str s =>
      cases v' with
      | int m =>
          simp only [reread] at h
          split at h
          · exact absurd h (by simp)
          · exact absurd h (by simp)
      | _ => exact h
  | float d =>
      cases v' with
      | int m =>
          simp only [reread] at h
          split at h
          · exact absurd h (by simp)
          · exact absurd h (by simp)
      | _ => exact h
  | _ => exact hv.elim

variable [JsonLibrary]

/-- The members of a document that the library reads back. -/
structure ReadBack (fields : List (String × Json)) : Prop where
  plain : ∀ f ∈ fields, Plain f.2
  undoes : Undoes JsonText.dump fields

/-- Two objects without a repeated key and with one text, each of which is read back. -/
structure SameText (fields fields' : List (String × Json)) : Prop where
  left : ReadBack fields
  right : ReadBack fields'
  leftKeys : (fields.map (·.1)).Nodup
  rightKeys : (fields'.map (·.1)).Nodup
  text : JsonText.dump (Json.object fields) = JsonText.dump (Json.object fields')

/-- **Documents with one text have one value under a key.** -/
theorem SameText.value {fields fields' : List (String × Json)} (h : SameText fields fields')
    {key : String} {v v' : Json} (hv : (key, v) ∈ fields) (hv' : (key, v') ∈ fields') : v = v' := by
  have hparse := h.left.undoes h.left.plain
  rw [h.text, h.right.undoes h.right.plain] at hparse
  have hat := reread_at h.leftKeys hv
  rw [← Except.ok.inj hparse, reread_at h.rightKeys hv'] at hat
  exact (reread_injective (h.right.plain _ hv') (h.left.plain _ hv) (Except.ok.inj hat)).symm

/-- With the same keys, they are one object. -/
theorem SameText.fields {fields fields' : List (String × Json)} (h : SameText fields fields')
    (hkeys : fields.map (·.1) = fields'.map (·.1)) : fields = fields' := by
  have hlength : fields.length = fields'.length := by
    have hlen := congrArg List.length hkeys
    rwa [List.length_map, List.length_map] at hlen
  refine List.ext_getElem hlength ?_
  intro i hi hi'
  have hkey : fields[i].1 = fields'[i].1 := by
    have hget := congrArg (fun keys : List String => keys[i]?) hkeys
    simpa [hi, hi'] using hget
  have hmem : (fields[i].1, fields'[i].2) ∈ fields' := by
    rw [hkey]
    exact List.getElem_mem hi'
  exact Prod.ext hkey (h.value (List.getElem_mem hi) hmem)

/-! ## The documents of the reports -/

namespace Report

/-- The members of the document a report is published as on the stream. -/
def streamFields : Report → List (String × Json)
  | .eta r => [("vinNumber", .str r.vinNumber), ("requestId", .int r.requestId),
      ("estimatedFare", .float r.fare), ("estimatedTime", .float r.time),
      ("status", .str r.status)]
  | .status r => [("vinNumber", .str r.vinNumber), ("tripId", .int r.tripId),
      ("tripStatus", .str r.status)]
  | .arrive r => [("vinNumber", .str r.vinNumber), ("tripId", .int r.tripId),
      ("longitude", .float r.long_), ("latitude", .float r.lat)]
  | .location r => [("vinNumber", .str r.vinNumber), ("latitude", .float r.latitude),
      ("longitude", .float r.longitude)]

/-- The members of the document a unary call publishes. -/
def unaryFields : Report → List (String × Json)
  | .eta r => [("vin_number", .str r.vinNumber), ("request_id", .int r.requestId),
      ("estimated_fare", .float r.fare), ("estimated_time", .float r.time)]
  | .status r => [("vinNumber", .str r.vinNumber), ("trip_id", .int r.tripId),
      ("status", .str r.status)]
  | .arrive r => [("vinNumber", .str r.vinNumber), ("tripId", .int r.tripId),
      ("longitude", .float r.long_), ("latitude", .float r.lat)]
  | .location r => [("vinNumber", .str r.vinNumber), ("longitude", .float r.longitude),
      ("latitude", .float r.latitude)]

/-- The topic of either path. -/
def topic : Report → String
  | .eta _ => kTopicTripEta
  | .status _ => kTopicTripStatus
  | .arrive _ => kTopicTripArrive
  | .location _ => kTopicUpdateLocation

/-- A report without the status of its ETA. -/
def withoutEtaStatus : Report → Report
  | .eta r => .eta { r with status := "" }
  | r => r

end Report

omit [JsonLibrary] in
theorem streamFields_keys (r : Report) : (r.streamFields.map (·.1)).Nodup := by
  cases r with
  | _ => simp [Report.streamFields]

omit [JsonLibrary] in
theorem unaryFields_keys (r : Report) : (r.unaryFields.map (·.1)).Nodup := by
  cases r with
  | _ => simp [Report.unaryFields]

theorem stream_eq (r : Report) :
    r.stream = some (r.topic, JsonText.dump (.object r.streamFields)) := by
  cases r <;> rfl

theorem unary_eq (r : Report) :
    r.unary = (r.topic, JsonText.dump (.object r.unaryFields)) := by
  cases r <;> rfl

/-! ## Recovery -/

/-- Two reports of one kind. -/
inductive SameKind : Report → Report → Prop where
  | eta (r r' : EtaRequest) : SameKind (.eta r) (.eta r')
  | status (r r' : StatusRequest) : SameKind (.status r) (.status r')
  | arrive (r r' : ArriveRequest) : SameKind (.arrive r) (.arrive r')
  | location (r r' : UpdateVehicleLocationRequest) : SameKind (.location r) (.location r')

omit [JsonLibrary] in
/-- Each kind of report has a topic of its own. -/
theorem sameKind_of_topic {r r' : Report} (h : r.topic = r'.topic) : SameKind r r' := by
  have hne : [kTopicTripEta, kTopicTripStatus, kTopicTripArrive, kTopicUpdateLocation].Nodup := by
    decide
  simp only [List.nodup_cons, List.mem_cons, List.not_mem_nil, or_false, not_or] at hne
  obtain ⟨⟨hes, hea, hel⟩, ⟨hsa, hsl⟩, hal, _⟩ := hne
  cases r with
  | eta e =>
      cases r' with
      | eta e' => exact .eta e e'
      | status _ => exact absurd h hes
      | arrive _ => exact absurd h hea
      | location _ => exact absurd h hel
  | status s =>
      cases r' with
      | eta _ => exact absurd h.symm hes
      | status s' => exact .status s s'
      | arrive _ => exact absurd h hsa
      | location _ => exact absurd h hsl
  | arrive a =>
      cases r' with
      | eta _ => exact absurd h.symm hea
      | status _ => exact absurd h.symm hsa
      | arrive a' => exact .arrive a a'
      | location _ => exact absurd h hal
  | location l =>
      cases r' with
      | eta _ => exact absurd h.symm hel
      | status _ => exact absurd h.symm hsl
      | arrive _ => exact absurd h.symm hal
      | location l' => exact .location l l'

/-- The stream prints everything. -/
theorem stream_recovers {r r' : Report} (htopic : r.topic = r'.topic)
    (h : SameText r.streamFields r'.streamFields) : r = r' := by
  cases sameKind_of_topic htopic with
  | eta r r' =>
      obtain ⟨vin, id, time, fare, status⟩ := r
      have hfields := h.fields rfl
      simp [Report.streamFields] at hfields
      obtain ⟨rfl, rfl, rfl, rfl, rfl⟩ := hfields
      rfl
  | status r r' =>
      obtain ⟨vin, id, status⟩ := r
      have hfields := h.fields rfl
      simp [Report.streamFields] at hfields
      obtain ⟨rfl, rfl, rfl⟩ := hfields
      rfl
  | arrive r r' =>
      obtain ⟨vin, id, long, lat⟩ := r
      have hfields := h.fields rfl
      simp [Report.streamFields] at hfields
      obtain ⟨rfl, rfl, rfl, rfl⟩ := hfields
      rfl
  | location r r' =>
      obtain ⟨vin, long, lat⟩ := r
      have hfields := h.fields rfl
      simp [Report.streamFields] at hfields
      obtain ⟨rfl, rfl, rfl⟩ := hfields
      rfl

/-- A unary call prints all but the status of an ETA. -/
theorem unary_recovers {r r' : Report} (htopic : r.topic = r'.topic)
    (h : SameText r.unaryFields r'.unaryFields) : r.withoutEtaStatus = r'.withoutEtaStatus := by
  cases sameKind_of_topic htopic with
  | eta r r' =>
      obtain ⟨vin, id, time, fare, status⟩ := r
      have hfields := h.fields rfl
      simp [Report.unaryFields] at hfields
      obtain ⟨rfl, rfl, rfl, rfl⟩ := hfields
      rfl
  | status r r' =>
      obtain ⟨vin, id, status⟩ := r
      have hfields := h.fields rfl
      simp [Report.unaryFields] at hfields
      obtain ⟨rfl, rfl, rfl⟩ := hfields
      rfl
  | arrive r r' =>
      obtain ⟨vin, id, long, lat⟩ := r
      have hfields := h.fields rfl
      simp [Report.unaryFields] at hfields
      obtain ⟨rfl, rfl, rfl, rfl⟩ := hfields
      rfl
  | location r r' =>
      obtain ⟨vin, long, lat⟩ := r
      have hfields := h.fields rfl
      simp [Report.unaryFields] at hfields
      obtain ⟨rfl, rfl, rfl⟩ := hfields
      rfl

omit [JsonLibrary] in
/-- Lists with one image are alike, if members with one image are. -/
theorem map_eq_of_image {α β γ : Type} {f : α → β} {g : α → γ} {xs ys : List α}
    (hinj : ∀ x ∈ xs, ∀ y ∈ ys, f x = f y → g x = g y) (h : xs.map f = ys.map f) :
    xs.map g = ys.map g := by
  induction xs generalizing ys with
  | nil =>
      rw [List.map_nil, eq_comm, List.map_eq_nil_iff] at h
      rw [h]
  | cons x xs ih =>
      cases ys with
      | nil => exact absurd h (by simp)
      | cons y ys =>
          obtain ⟨hhead, htail⟩ := List.cons.inj h
          rw [List.map_cons, List.map_cons, hinj x (.head _) y (.head _) hhead]
          rw [ih (fun x hx y hy => hinj x (.tail _ hx) y (.tail _ hy)) htail]

/--
**What has been published tells what was reported.** Whatever vehicles have sent, and
in whatever order: as long as the library reads back what it prints for them, the
publications of the stream determine all the reports, one by one, and those of the
unary calls all but the statuses of the ETAs.
-/
theorem reports_recoverable {rs rs' : List Report}
    (hread : ∀ r ∈ rs ++ rs', ReadBack r.streamFields ∧ ReadBack r.unaryFields) :
    (rs.map Report.stream = rs'.map Report.stream → rs = rs')
      ∧ (rs.map Report.unary = rs'.map Report.unary →
          rs.map Report.withoutEtaStatus = rs'.map Report.withoutEtaStatus) := by
  constructor
  · intro h
    have hsame := map_eq_of_image (g := id) ?_ h
    · rwa [List.map_id, List.map_id] at hsame
    intro r hr r' hr' heq
    rw [stream_eq, stream_eq] at heq
    obtain ⟨htopic, htext⟩ := Prod.mk.inj (Option.some.inj heq)
    exact stream_recovers htopic ⟨(hread r (List.mem_append_left rs' hr)).1,
      (hread r' (List.mem_append_right rs hr')).1, streamFields_keys r, streamFields_keys r', htext⟩
  · refine map_eq_of_image ?_
    intro r hr r' hr' heq
    rw [unary_eq, unary_eq] at heq
    obtain ⟨htopic, htext⟩ := Prod.mk.inj heq
    exact unary_recovers htopic ⟨(hread r (List.mem_append_left rs' hr)).2,
      (hread r' (List.mem_append_right rs hr')).2, unaryFields_keys r, unaryFields_keys r', htext⟩

omit [JsonLibrary] in
/-- Two ETAs that only the stream tells apart. -/
theorem reports_recoverable_status :
    ∃ (_ : JsonLibrary) (r r' : Report), r ≠ r' ∧ [r].map Report.unary = [r'].map Report.unary
      ∧ [r].map Report.withoutEtaStatus = [r'].map Report.withoutEtaStatus
      ∧ [r].map Report.stream ≠ [r'].map Report.stream := by
  let eta : String → Report := fun status =>
    .eta ⟨"V1", 7, ⟨0x3ff8000000000000⟩, ⟨0x4004000000000000⟩, status⟩
  let near := "\x7b\"estimatedFare\":2.5,\"estimatedTime\":1.5,\"requestId\":7,"
    ++ "\"status\":\"near\",\"vinNumber\":\"V1\"\x7d"
  let far := "\x7b\"estimatedFare\":2.5,\"estimatedTime\":1.5,\"requestId\":7,"
    ++ "\"status\":\"far\",\"vinNumber\":\"V1\"\x7d"
  let called := "\x7b\"estimated_fare\":2.5,\"estimated_time\":1.5,\"request_id\":7,"
    ++ "\"vin_number\":\"V1\"\x7d"
  -- the library on the three documents
  let print : Json → String := fun j =>
    if (j.at "status").toOption.isNone then called
    else if (j.value "status" Json.getString "").toOption = some "near" then near else far
  let streamed : String → Json := fun status =>
    .obj [("estimatedFare", .float ⟨0x4004000000000000⟩),
      ("estimatedTime", .float ⟨0x3ff8000000000000⟩), ("requestId", .uint 7),
      ("status", .str status), ("vinNumber", .str "V1")]
  let _ : JsonLibrary := libraryOf print [
    (utf8 near, streamed "near"), (utf8 far, streamed "far"),
    (utf8 called, .obj [("estimated_fare", .float ⟨0x4004000000000000⟩),
      ("estimated_time", .float ⟨0x3ff8000000000000⟩), ("request_id", .uint 7),
      ("vin_number", .str "V1")])]
  have hid : reread (.int 7) = .uint 7 := by
    simp only [reread]
    exact if_pos (by decide)
  have hfare : Double.isFinite ⟨0x4004000000000000⟩ = true := by decide
  have htime : Double.isFinite ⟨0x3ff8000000000000⟩ = true := by decide
  have hunary : ∀ status, ReadBack (eta status).unaryFields := by
    intro status
    refine ⟨by simp [eta, Report.unaryFields, Plain, hfare, htime], ?_⟩
    intro _
    simp only [eta, Report.unaryFields, List.map_cons, hid]
    rfl
  have hnear : ReadBack (eta "near").streamFields := by
    refine ⟨by simp [eta, Report.streamFields, Plain, hfare, htime], ?_⟩
    intro _
    simp only [eta, Report.streamFields, List.map_cons, hid]
    rfl
  have hfar : ReadBack (eta "far").streamFields := by
    refine ⟨by simp [eta, Report.streamFields, Plain, hfare, htime], ?_⟩
    intro _
    simp only [eta, Report.streamFields, List.map_cons, hid]
    rfl
  have hne : eta "near" ≠ eta "far" := by simp [eta]
  have hread : ∀ r ∈ [eta "near"] ++ [eta "far"],
      ReadBack r.streamFields ∧ ReadBack r.unaryFields := by
    intro r hr
    simp only [List.mem_append, List.mem_singleton] at hr
    rcases hr with rfl | rfl
    · exact ⟨hnear, hunary _⟩
    · exact ⟨hfar, hunary _⟩
  have hrecover := reports_recoverable hread
  refine ⟨_, eta "near", eta "far", hne, rfl, hrecover.2 rfl, ?_⟩
  intro hsame
  exact hne (List.cons.inj (hrecover.1 hsame)).1

end CloudGateway.Proof
