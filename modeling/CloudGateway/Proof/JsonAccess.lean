import CloudGateway.Json

/-!
# Reading JSON documents

What `at` and `get` find, key by key, and what they find in an object that was
built by assignments. `Undoes` is what the code relies on when it parses a text
that the library has printed.
-/

namespace CloudGateway.Proof

open JsonLibrary

/-! ## Reading that may throw -/

/-- The value under a key, read by `get`. -/
def Reads {α : Type} (get : Json → Except JsonException α) (j : Json) (key : String) (a : α) :
    Prop :=
  ∃ v, j.at key = .ok v ∧ get v = .ok a

theorem bind_ok_iff {α β : Type} {x : Except JsonException α} {f : α → Except JsonException β}
    {b : β} : (x >>= f) = .ok b ↔ ∃ a, x = .ok a ∧ f a = .ok b := by
  constructor
  · intro h
    cases x with
    | error e => exact absurd h (fun h => by cases h)
    | ok a => exact ⟨a, rfl, h⟩
  · rintro ⟨a, rfl, h⟩
    exact h

/-- One line `auto x = j.at(key).get<…>();` of a handler. -/
theorem read_ok_iff {α β : Type} {j : Json} {key : String} {get : Json → Except JsonException α}
    {f : α → Except JsonException β} {b : β} :
    (j.at key >>= fun v => get v >>= f) = .ok b ↔ ∃ a, Reads get j key a ∧ f a = .ok b := by
  constructor
  · intro h
    obtain ⟨v, hv, h⟩ := bind_ok_iff.mp h
    obtain ⟨a, ha, h⟩ := bind_ok_iff.mp h
    exact ⟨a, ⟨v, hv, ha⟩, h⟩
  · rintro ⟨a, ⟨v, hv, ha⟩, h⟩
    exact bind_ok_iff.mpr ⟨v, hv, bind_ok_iff.mpr ⟨a, ha, h⟩⟩

theorem ok_of_isOk {ε α : Type} {x : Except ε α} (h : x.isOk = true) : ∃ a, x = .ok a := by
  cases x with
  | error e => exact Bool.noConfusion h
  | ok a => exact ⟨a, rfl⟩

theorem pure_ok_iff {α : Type} {a b : α} :
    (pure a : Except JsonException α) = .ok b ↔ a = b :=
  ⟨fun h => Except.ok.inj h, fun h => congrArg Except.ok h⟩

theorem at_ok_iff {j v : Json} {key : String} :
    j.at key = .ok v ↔ ∃ members, j = .obj members ∧ members.lookup key = some v := by
  constructor
  · intro h
    cases j with
    | obj members =>
        simp only [Json.at] at h
        split at h
        · rename_i hv
          exact ⟨members, rfl, hv.trans (congrArg some (Except.ok.inj h))⟩
        · exact absurd h (by simp)
    | _ => exact absurd h (by simp [Json.at])
  · rintro ⟨members, rfl, h⟩
    simp only [Json.at, h]

/-! ## Objects built by assignments -/

/-- The value assigned last is found. -/
theorem lookup_assign_self (key : String) (v : Json) (members : List (String × Json)) :
    (Json.assign key v members).lookup key = some v := by
  induction members with
  | nil => simp [Json.assign]
  | cons kv rest ih =>
      obtain ⟨k, w⟩ := kv
      simp only [Json.assign]
      split
      · simp
      · rename_i hlt
        split
        · simp
        · rename_i hne
          rw [List.lookup_cons, beq_eq_false_iff_ne.mpr hne]
          exact ih

/-- Other keys keep their values. -/
theorem lookup_assign_ne {key other : String} (h : other ≠ key) (v : Json)
    (members : List (String × Json)) :
    (Json.assign key v members).lookup other = members.lookup other := by
  have hbeq : (other == key) = false := beq_eq_false_iff_ne.mpr h
  induction members with
  | nil => simp [Json.assign, h]
  | cons kv rest ih =>
      obtain ⟨k, w⟩ := kv
      simp only [Json.assign]
      split
      · rw [List.lookup_cons, hbeq]
      · split
        · rename_i heq
          rw [List.lookup_cons, List.lookup_cons, ← heq, hbeq]
        · rw [List.lookup_cons, List.lookup_cons, ih]

theorem lookup_foldl_assign {key : String} {fields : List (String × Json)}
    (h : key ∉ fields.map (·.1)) (members : List (String × Json)) :
    (fields.foldl (fun members kv => Json.assign kv.1 kv.2 members) members).lookup key
      = members.lookup key := by
  induction fields generalizing members with
  | nil => rfl
  | cons kv fields ih =>
      simp only [List.map_cons, List.mem_cons, not_or] at h
      rw [List.foldl_cons, ih h.2, lookup_assign_ne h.1]

/-- **An object has the values that were assigned to it.** -/
theorem object_at {key : String} {v : Json} {fields : List (String × Json)}
    (hnodup : (fields.map (·.1)).Nodup) (hmem : (key, v) ∈ fields) :
    (Json.object fields).at key = .ok v := by
  have hlookup : ∀ members, (fields.foldl (fun members kv => Json.assign kv.1 kv.2 members)
      members).lookup key = some v := by
    induction fields with
    | nil => exact absurd hmem (by simp)
    | cons kv fields ih =>
        intro members
        obtain ⟨hnew, hrest⟩ := List.nodup_cons.mp hnodup
        rw [List.foldl_cons]
        rcases List.mem_cons.mp hmem with rfl | hmem
        · rw [lookup_foldl_assign hnew, lookup_assign_self]
        · exact ih hrest hmem _
  exact at_ok_iff.mpr ⟨_, rfl, hlookup []⟩

/-- An object has no others. -/
theorem object_lookup_iff {key : String} {v : Json} {fields : List (String × Json)}
    (hnodup : (fields.map (·.1)).Nodup) :
    (fields.foldl (fun members kv => Json.assign kv.1 kv.2 members) []).lookup key = some v
      ↔ (key, v) ∈ fields := by
  have hmem : ∀ w, (key, w) ∈ fields →
      (fields.foldl (fun members kv => Json.assign kv.1 kv.2 members) []).lookup key = some w := by
    intro w hw
    obtain ⟨members, hobj, hlookup⟩ := at_ok_iff.mp (object_at hnodup hw)
    rwa [← Json.obj.inj hobj] at hlookup
  refine ⟨fun h => ?_, hmem v⟩
  by_cases hkey : key ∈ fields.map (·.1)
  · obtain ⟨⟨_, w⟩, hw, rfl⟩ := List.mem_map.mp hkey
    obtain rfl := Option.some.inj ((hmem w hw).symm.trans h)
    exact hw
  · rw [lookup_foldl_assign hkey] at h
    exact nomatch h

/-- A key that only one of two objects has tells them apart. -/
theorem object_ne_of_key {key : String} {v : Json} {fields others : List (String × Json)}
    (hnodup : (fields.map (·.1)).Nodup) (hmem : (key, v) ∈ fields)
    (hnot : key ∉ others.map (·.1)) : Json.object fields ≠ Json.object others := by
  intro heq
  have hat := object_at hnodup hmem
  rw [heq] at hat
  obtain ⟨members, hobj, hlookup⟩ := at_ok_iff.mp hat
  obtain rfl := Json.obj.inj hobj
  rw [lookup_foldl_assign hnot] at hlookup
  exact nomatch hlookup

/-! ## Printing and parsing -/

/-- A value that survives being printed: a string, an integer, or a finite number. -/
def Plain : Json → Prop
  | .str _ => True
  | .int _ => True
  | .float d => d.isFinite = true
  | .null | .bool _ | .uint _ | .arr _ | .obj _ => False

/-- How such a value comes back. An integer that is not negative comes back unsigned. -/
def reread : Json → Json
  | .int n => if 0 ≤ n then .uint n.toUInt64 else .int n
  | .null => .null
  | .bool b => .bool b
  | .uint n => .uint n
  | .float d => .float d
  | .str s => .str s
  | .arr xs => .arr xs
  | .obj members => .obj members

/-- `parse` undoes a printer on the object with these members, if they are plain. -/
def Undoes [JsonLibrary] (print : Json → String) (fields : List (String × Json)) : Prop :=
  (∀ f ∈ fields, Plain f.2) →
    parse (utf8 (print (.object fields)))
      = .ok (.object (fields.map (fun f => (f.1, reread f.2))))

theorem getInt64_reread (n : Int64) : (reread (.int n)).getInt64 = .ok n := by
  simp only [reread]
  split <;> rfl

/-- What comes back under a key is what was printed, reread. -/
theorem reread_at {key : String} {v : Json} {fields : List (String × Json)}
    (hnodup : (fields.map (·.1)).Nodup) (hmem : (key, v) ∈ fields) :
    (Json.object (fields.map (fun f => (f.1, reread f.2)))).at key = .ok (reread v) := by
  refine object_at ?_ (List.mem_map.mpr ⟨(key, v), hmem, rfl⟩)
  rw [List.map_map]
  exact hnodup

/-- The library on a few texts, for runs on fixed inputs: it parses these and no others. -/
@[reducible]
def libraryOf (print : Json → String) (texts : List (Bytes × Json)) : JsonLibrary where
  dump := print
  dumpIndent := fun _ => print
  parse := fun text =>
    match texts.lookup text with
    | some j => .ok j
    | none => .error .parseError

theorem parse_libraryOf_self (print : Json → String) (text : Bytes) (j : Json) :
    (libraryOf print [(text, j)]).parse text = .ok j := by
  simp [JsonLibrary.parse]

theorem parse_libraryOf_none {print : Json → String} {texts : List (Bytes × Json)} {text : Bytes}
    (h : ∀ entry ∈ texts, text ≠ entry.1) :
    (libraryOf print texts).parse text = .error .parseError := by
  have hnone : texts.lookup text = none :=
    List.lookup_eq_none_iff.mpr (fun entry hentry => by simpa using h entry hentry)
  simp only [JsonLibrary.parse, hnone]

end CloudGateway.Proof
