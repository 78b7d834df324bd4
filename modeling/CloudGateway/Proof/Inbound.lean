import CloudGateway.Main
import CloudGateway.Proof.JsonAccess

/-!
# From a received message to a pushed command

`accepts` says which messages are commands: the topic is one of six, and the
payload is an object with the keys of that topic, of the right JSON types.
`Carries` says what the command for a message looks like: it is of the kind of
the topic, and each of its fields is the value under the key of the same name.

The handlers do neither check; they read until something throws. `Serves` is the
link, one lemma a handler: a message that is accepted becomes the command that
carries it, and any other one ends in a JSON exception before anything is stored.
-/

namespace CloudGateway.Proof

open Services Application Transport Proto Constants JsonLibrary

/-! ## Which messages are commands -/

/-- The JSON types the handlers ask for. -/
inductive Kind where
  | string
  | number
deriving DecidableEq, Repr

/-- The value is of that JSON type. -/
def isKind : Kind → Json → Bool
  | .string, .str _ => true
  | .number, .int _ => true
  | .number, .uint _ => true
  | .number, .float _ => true
  | _, _ => false

/-- The six topics, with the keys of their payloads. -/
def expected : List (String × List (String × Kind)) :=
  [(kTopicTripInit, [("vinNumber", .string), ("requestId", .number), ("startLong", .number),
      ("startLat", .number), ("endLong", .number), ("endLat", .number)]),
   (kTopicTripMove, [("vinNumber", .string), ("tripId", .number), ("longitude", .number),
      ("latitude", .number)]),
   (kTopicTripPark, [("vinNumber", .string), ("longitude", .number), ("latitude", .number)]),
   (kTopicOrderUpdateLocation, [("vinNumber", .string)]),
   (kTopicOrderUpdateStatus, [("vinNumber", .string)]),
   (kTopicTripCancel, [("vinNumber", .string), ("requestId", .number)])]

/-- Every key is there, with a value of its type. -/
def hasKeys (keys : List (String × Kind)) (members : List (String × Json)) : Bool :=
  keys.all (fun k => (members.lookup k.1).any (isKind k.2))

/-- The message is a command. -/
def accepts [JsonLibrary] (m : Message) : Bool :=
  expected.any (fun e => m.topic == utf8 e.1 &&
    match parse m.payload with
    | .ok (.obj members) => hasKeys e.2 members
    | _ => false)

/-! ## What a command carries -/

/-- A field of a command, as the handlers read it. -/
inductive Field where
  | string (s : String)
  | int64 (n : Int64)
  | double (d : Double)

/-- The value under a key, read by the `get` of the field's type, is the field. -/
def Field.ReadFrom (j : Json) (key : String) : Field → Prop
  | .string s => Reads Json.getString j key s
  | .int64 n => Reads Json.getInt64 j key n
  | .double d => Reads Json.getDouble j key d

/-- The topic of a command. -/
def commandTopic : GatewayCommand → Option String
  | .notSet => none
  | .tripInit _ => some kTopicTripInit
  | .tripMove _ => some kTopicTripMove
  | .tripPark _ => some kTopicTripPark
  | .orderUpdateLocation _ => some kTopicOrderUpdateLocation
  | .orderUpdateStatus _ => some kTopicOrderUpdateStatus
  | .tripCancel _ => some kTopicTripCancel

/-- The fields of a command, each under the key of the same name. -/
def commandFields : GatewayCommand → List (String × Field)
  | .notSet => []
  | .tripInit r =>
      [("vinNumber", .string r.vinNumber), ("requestId", .int64 r.requestId),
       ("startLong", .double r.startLong), ("startLat", .double r.startLat),
       ("endLong", .double r.endLong), ("endLat", .double r.endLat)]
  | .tripMove r =>
      [("vinNumber", .string r.vinNumber), ("tripId", .int64 r.tripId),
       ("longitude", .double r.longitude), ("latitude", .double r.latitude)]
  | .tripPark r =>
      [("vinNumber", .string r.vinNumber), ("longitude", .double r.longitude),
       ("latitude", .double r.latitude)]
  | .orderUpdateLocation r => [("vinNumber", .string r.vinNumber)]
  | .orderUpdateStatus r => [("vinNumber", .string r.vinNumber)]
  | .tripCancel r => [("vinNumber", .string r.vinNumber), ("requestId", .int64 r.requestId)]

/-- The command is the one for the message. -/
structure Carries [JsonLibrary] (m : Message) (cmd : GatewayCommand) : Prop where
  topic : ∃ t, commandTopic cmd = some t ∧ m.topic = utf8 t
  fields : ∃ j, parse m.payload = .ok j ∧ ∀ f ∈ commandFields cmd, f.2.ReadFrom j f.1

/-! ## Reading -/

theorem isKind_string_iff {v : Json} : isKind .string v = true ↔ ∃ s, v.getString = .ok s := by
  cases v <;> simp [isKind, Json.getString]

theorem isKind_number_iff_int64 {v : Json} :
    isKind .number v = true ↔ ∃ n, v.getInt64 = .ok n := by
  cases v <;> simp [isKind, Json.getInt64]

theorem isKind_number_iff_double {v : Json} :
    isKind .number v = true ↔ ∃ d, v.getDouble = .ok d := by
  cases v <;> simp [isKind, Json.getDouble]

/-- The type a field is read from. -/
def Field.kind : Field → Kind
  | .string _ => .string
  | .int64 _ => .number
  | .double _ => .number

/-- What a field is read from has the type of the field. -/
theorem readFrom_kind {j : Json} {key : String} {f : Field} (h : f.ReadFrom j key) :
    ∃ v, j.at key = .ok v ∧ isKind f.kind v = true := by
  cases f with
  | string s => obtain ⟨v, hv, hs⟩ := h; exact ⟨v, hv, isKind_string_iff.mpr ⟨s, hs⟩⟩
  | int64 n => obtain ⟨v, hv, hn⟩ := h; exact ⟨v, hv, isKind_number_iff_int64.mpr ⟨n, hn⟩⟩
  | double d => obtain ⟨v, hv, hd⟩ := h; exact ⟨v, hv, isKind_number_iff_double.mpr ⟨d, hd⟩⟩

section Readers

variable [JsonLibrary] {payload : Bytes}

theorem readTripInit_ok_iff {vin : String} {id : Int64} {sLon sLat eLon eLat : Double} :
    readTripInit payload = .ok (vin, id, sLon, sLat, eLon, eLat) ↔
      Carries ⟨utf8 kTopicTripInit, payload⟩ (.tripInit ⟨vin, id, sLon, sLat, eLon, eLat⟩) := by
  rw [readTripInit, bind_ok_iff]
  simp only [read_ok_iff, pure_ok_iff, Prod.mk.injEq]
  constructor
  · rintro ⟨j, hj, _, h₁, _, h₂, _, h₃, _, h₄, _, h₅, _, h₆, rfl, rfl, rfl, rfl, rfl, rfl⟩
    exact ⟨⟨_, rfl, rfl⟩, j, hj, by simpa [commandFields] using ⟨h₁, h₂, h₃, h₄, h₅, h₆⟩⟩
  · rintro ⟨_, j, hj, h⟩
    simp only [commandFields, List.forall_mem_cons] at h
    obtain ⟨h₁, h₂, h₃, h₄, h₅, h₆, _⟩ := h
    exact ⟨j, hj, _, h₁, _, h₂, _, h₃, _, h₄, _, h₅, _, h₆, rfl, rfl, rfl, rfl, rfl, rfl⟩

theorem readTripMove_ok_iff {vin : String} {id : Int64} {lon lat : Double} :
    readTripMove payload = .ok (vin, id, lon, lat) ↔
      Carries ⟨utf8 kTopicTripMove, payload⟩ (.tripMove ⟨vin, id, lon, lat⟩) := by
  rw [readTripMove, bind_ok_iff]
  simp only [read_ok_iff, pure_ok_iff, Prod.mk.injEq]
  constructor
  · rintro ⟨j, hj, _, h₁, _, h₂, _, h₃, _, h₄, rfl, rfl, rfl, rfl⟩
    exact ⟨⟨_, rfl, rfl⟩, j, hj, by simpa [commandFields] using ⟨h₁, h₂, h₃, h₄⟩⟩
  · rintro ⟨_, j, hj, h⟩
    simp only [commandFields, List.forall_mem_cons] at h
    obtain ⟨h₁, h₂, h₃, h₄, _⟩ := h
    exact ⟨j, hj, _, h₁, _, h₂, _, h₃, _, h₄, rfl, rfl, rfl, rfl⟩

theorem readTripPark_ok_iff {vin : String} {lon lat : Double} :
    readTripPark payload = .ok (vin, lon, lat) ↔
      Carries ⟨utf8 kTopicTripPark, payload⟩ (.tripPark ⟨vin, lon, lat⟩) := by
  rw [readTripPark, bind_ok_iff]
  simp only [read_ok_iff, pure_ok_iff, Prod.mk.injEq]
  constructor
  · rintro ⟨j, hj, _, h₁, _, h₂, _, h₃, rfl, rfl, rfl⟩
    exact ⟨⟨_, rfl, rfl⟩, j, hj, by simpa [commandFields] using ⟨h₁, h₂, h₃⟩⟩
  · rintro ⟨_, j, hj, h⟩
    simp only [commandFields, List.forall_mem_cons] at h
    obtain ⟨h₁, h₂, h₃, _⟩ := h
    exact ⟨j, hj, _, h₁, _, h₂, _, h₃, rfl, rfl, rfl⟩

theorem readTripCancel_ok_iff {vin : String} {id : Int64} :
    readTripCancel payload = .ok (vin, id) ↔
      Carries ⟨utf8 kTopicTripCancel, payload⟩ (.tripCancel ⟨vin, id⟩) := by
  rw [readTripCancel, bind_ok_iff]
  simp only [read_ok_iff, pure_ok_iff, Prod.mk.injEq]
  constructor
  · rintro ⟨j, hj, _, h₁, _, h₂, rfl, rfl⟩
    exact ⟨⟨_, rfl, rfl⟩, j, hj, by simpa [commandFields] using ⟨h₁, h₂⟩⟩
  · rintro ⟨_, j, hj, h⟩
    simp only [commandFields, List.forall_mem_cons] at h
    obtain ⟨h₁, h₂, _⟩ := h
    exact ⟨j, hj, _, h₁, _, h₂, rfl, rfl⟩

/-- Both kinds of order update read one vehicle number. -/
theorem readOrderUpdate_ok_iff {vin : String} {topic : String} {cmd : GatewayCommand}
    (htopic : commandTopic cmd = some topic)
    (hfields : commandFields cmd = [("vinNumber", .string vin)]) :
    readOrderUpdate payload = .ok vin ↔ Carries ⟨utf8 topic, payload⟩ cmd := by
  simp only [readOrderUpdate, bind_ok_iff]
  constructor
  · rintro ⟨j, hj, v, hv, hvin⟩
    refine ⟨⟨_, htopic, rfl⟩, j, hj, ?_⟩
    rw [hfields, List.forall_mem_singleton]
    exact ⟨v, hv, hvin⟩
  · rintro ⟨_, j, hj, h⟩
    rw [hfields, List.forall_mem_singleton] at h
    exact ⟨j, hj, h⟩

end Readers

/-! ## Accepted messages are those that have a command -/

/-- The keys of a topic are there exactly if values can be read from them. -/
theorem hasKeys_iff {keys : List (String × Kind)} {members : List (String × Json)} :
    hasKeys keys members = true
      ↔ ∀ k ∈ keys, ∃ v, (Json.obj members).at k.1 = .ok v ∧ isKind k.2 v = true := by
  simp only [hasKeys, List.all_eq_true, Option.any_eq_true, at_ok_iff, Json.obj.injEq,
    exists_eq_left']

theorem reads_string_of_kind {j : Json} {key : String}
    (h : ∃ v, j.at key = .ok v ∧ isKind .string v = true) : ∃ s, Reads Json.getString j key s := by
  obtain ⟨v, hv, hkind⟩ := h
  obtain ⟨s, hs⟩ := isKind_string_iff.mp hkind
  exact ⟨s, v, hv, hs⟩

theorem reads_int64_of_kind {j : Json} {key : String}
    (h : ∃ v, j.at key = .ok v ∧ isKind .number v = true) : ∃ n, Reads Json.getInt64 j key n := by
  obtain ⟨v, hv, hkind⟩ := h
  obtain ⟨n, hn⟩ := isKind_number_iff_int64.mp hkind
  exact ⟨n, v, hv, hn⟩

theorem reads_double_of_kind {j : Json} {key : String}
    (h : ∃ v, j.at key = .ok v ∧ isKind .number v = true) : ∃ d, Reads Json.getDouble j key d := by
  obtain ⟨v, hv, hkind⟩ := h
  obtain ⟨d, hd⟩ := isKind_number_iff_double.mp hkind
  exact ⟨d, v, hv, hd⟩

/-- The keys a command of some topic has fields for are the expected ones. -/
theorem expected_commandFields {cmd : GatewayCommand} {t : String} (h : commandTopic cmd = some t) :
    (t, (commandFields cmd).map (fun f => (f.1, f.2.kind))) ∈ expected := by
  cases cmd with
  | notSet => exact absurd h (by simp [commandTopic])
  | _ => obtain rfl := Option.some.inj h; simp [commandFields, Field.kind, expected]

/-- Values under the expected keys make a command. -/
theorem command_of_expected {e : String × List (String × Kind)} (he : e ∈ expected) {j : Json}
    (h : ∀ k ∈ e.2, ∃ v, j.at k.1 = .ok v ∧ isKind k.2 v = true) :
    ∃ cmd, commandTopic cmd = some e.1 ∧ ∀ f ∈ commandFields cmd, f.2.ReadFrom j f.1 := by
  simp only [expected, List.mem_cons, List.not_mem_nil, or_false] at he
  rcases he with rfl | rfl | rfl | rfl | rfl | rfl
  · simp only [List.forall_mem_cons] at h
    obtain ⟨h₁, h₂, h₃, h₄, h₅, h₆, _⟩ := h
    obtain ⟨vin, h₁⟩ := reads_string_of_kind h₁
    obtain ⟨id, h₂⟩ := reads_int64_of_kind h₂
    obtain ⟨sLon, h₃⟩ := reads_double_of_kind h₃
    obtain ⟨sLat, h₄⟩ := reads_double_of_kind h₄
    obtain ⟨eLon, h₅⟩ := reads_double_of_kind h₅
    obtain ⟨eLat, h₆⟩ := reads_double_of_kind h₆
    exact ⟨.tripInit ⟨vin, id, sLon, sLat, eLon, eLat⟩, rfl,
      by simpa [commandFields] using ⟨h₁, h₂, h₃, h₄, h₅, h₆⟩⟩
  · simp only [List.forall_mem_cons] at h
    obtain ⟨h₁, h₂, h₃, h₄, _⟩ := h
    obtain ⟨vin, h₁⟩ := reads_string_of_kind h₁
    obtain ⟨id, h₂⟩ := reads_int64_of_kind h₂
    obtain ⟨lon, h₃⟩ := reads_double_of_kind h₃
    obtain ⟨lat, h₄⟩ := reads_double_of_kind h₄
    exact ⟨.tripMove ⟨vin, id, lon, lat⟩, rfl, by simpa [commandFields] using ⟨h₁, h₂, h₃, h₄⟩⟩
  · simp only [List.forall_mem_cons] at h
    obtain ⟨h₁, h₂, h₃, _⟩ := h
    obtain ⟨vin, h₁⟩ := reads_string_of_kind h₁
    obtain ⟨lon, h₂⟩ := reads_double_of_kind h₂
    obtain ⟨lat, h₃⟩ := reads_double_of_kind h₃
    exact ⟨.tripPark ⟨vin, lon, lat⟩, rfl, by simpa [commandFields] using ⟨h₁, h₂, h₃⟩⟩
  · obtain ⟨vin, h₁⟩ := reads_string_of_kind (h _ (List.mem_singleton.mpr rfl))
    exact ⟨.orderUpdateLocation ⟨vin⟩, rfl, by simpa [commandFields, Field.ReadFrom] using h₁⟩
  · obtain ⟨vin, h₁⟩ := reads_string_of_kind (h _ (List.mem_singleton.mpr rfl))
    exact ⟨.orderUpdateStatus ⟨vin⟩, rfl, by simpa [commandFields, Field.ReadFrom] using h₁⟩
  · simp only [List.forall_mem_cons] at h
    obtain ⟨h₁, h₂, _⟩ := h
    obtain ⟨vin, h₁⟩ := reads_string_of_kind h₁
    obtain ⟨id, h₂⟩ := reads_int64_of_kind h₂
    exact ⟨.tripCancel ⟨vin, id⟩, rfl, by simpa [commandFields] using ⟨h₁, h₂⟩⟩

/-- A command has fields, so it is read from an object. -/
theorem object_of_fields {cmd : GatewayCommand} {t : String} {j : Json}
    (ht : commandTopic cmd = some t) (h : ∀ f ∈ commandFields cmd, f.2.ReadFrom j f.1) :
    ∃ members, j = .obj members := by
  obtain ⟨f, hf⟩ : ∃ f, f ∈ commandFields cmd := by
    cases cmd with
    | notSet => exact absurd ht (by simp [commandTopic])
    | _ => exact ⟨_, List.mem_cons_self⟩
  obtain ⟨v, hv, _⟩ := readFrom_kind (h f hf)
  obtain ⟨members, hj, _⟩ := at_ok_iff.mp hv
  exact ⟨members, hj⟩

variable [JsonLibrary]

/-- **A message is accepted exactly if some command carries it.** -/
theorem accepts_iff_carries (m : Message) : accepts m = true ↔ ∃ cmd, Carries m cmd := by
  simp only [accepts, List.any_eq_true, Bool.and_eq_true, beq_iff_eq]
  constructor
  · rintro ⟨e, he, htopic, hkeys⟩
    split at hkeys
    · rename_i members hparse
      obtain ⟨cmd, ht, hfields⟩ := command_of_expected he (hasKeys_iff.mp hkeys)
      exact ⟨cmd, ⟨e.1, ht, htopic⟩, _, hparse, hfields⟩
    · exact absurd hkeys (by simp)
  · rintro ⟨cmd, ⟨t, ht, htopic⟩, j, hparse, hfields⟩
    obtain ⟨members, rfl⟩ := object_of_fields ht hfields
    refine ⟨_, expected_commandFields ht, htopic, ?_⟩
    rw [hparse]
    refine hasKeys_iff.mpr (fun k hk => ?_)
    obtain ⟨f, hf, rfl⟩ := List.mem_map.mp hk
    exact readFrom_kind (hfields f hf)

end CloudGateway.Proof
