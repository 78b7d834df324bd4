import CloudGateway.Proof.ActiveIds
import CloudGateway.Proof.Pipeline

/-!
# The ids as they are written

Three handlers pass on an id that the payload writes down as a number. The JSON
library keeps an integer literal as an integer while it has 64 bits, and any
other number as the nearest `double`; `get<int64_t>` then converts what it finds
without a check. So an id comes through as written if it is written as an
integer, or if a `double` holds it, and fits an `int64_t`.
-/

namespace CloudGateway.Proof

open Services Application Constants JsonLibrary BinaryFloat

/-! ## Number literals -/

/-- A number as JSON writes it. -/
structure NumberLiteral where
  negative : Bool
  /-- The number before the point. -/
  whole : Nat
  /-- The digits after it, if there is one. -/
  fraction : Option (List (Fin 10))
  /-- The power of ten after the `e`, if there is one. -/
  exponent : Option Int
deriving DecidableEq, Repr

namespace NumberLiteral

/-- What the digits after the point add. -/
def fractional : List (Fin 10) → ℚ
  | [] => 0
  | digit :: digits => ((digit : Nat) + fractional digits) / 10

/-- The number that is written. -/
def value (lit : NumberLiteral) : ℚ :=
  (if lit.negative then -1 else 1) * (lit.whole + fractional (lit.fraction.getD []))
    * 10 ^ lit.exponent.getD 0

/-- Neither a point nor an exponent. -/
def isInteger (lit : NumberLiteral) : Bool := lit.fraction.isNone && lit.exponent.isNone

/-- An integer literal that has 64 bits, signed or unsigned. -/
def IsInteger64 (lit : NumberLiteral) : Prop :=
  lit.isInteger = true ∧ -2 ^ 63 ≤ lit.value ∧ lit.value < 2 ^ 64

end NumberLiteral

/-- How the library stores a number. -/
def StoredAs (lit : NumberLiteral) : Json → Prop
  | .int n => lit.IsInteger64 ∧ lit.value = (n.toInt : ℚ)
  | .uint n => lit.IsInteger64 ∧ lit.value = (n.toNat : ℚ)
  | .float d => ¬ lit.IsInteger64 ∧ Nearest (F := .binary64) d.bits.toBitVec lit.value
  | .null | .bool _ | .str _ | .arr _ | .obj _ => False

/-- `static_cast<int64_t>` of a stored number, where C++ defines it. -/
def castInt64 : Json → Option Int64
  | .int n => some n
  | .uint n => some n.toInt64
  | .float d => d.toInt64?
  | .null | .bool _ | .str _ | .arr _ | .obj _ => none

/-- What the conversion gives is what `get<int64_t>` returns. -/
theorem getInt64_of_cast {v : Json} {n : Int64} (h : castInt64 v = some n) :
    v.getInt64 = .ok n := by
  cases v with
  | int m => exact congrArg Except.ok (Option.some.inj h)
  | uint m => exact congrArg Except.ok (Option.some.inj h)
  | float d => exact congrArg Except.ok (toInt64_of_toInt64? h)
  | _ => exact nomatch h

/-- The id survives: it is an `int64_t`, and written as an integer or held by a `double`. -/
def Survives (lit : NumberLiteral) : Prop :=
  ∃ n : Int64, lit.value = (n.toInt : ℚ) ∧ (lit.isInteger = true ∨ Fits 53 n.toInt.natAbs)

/-- An `int64_t` that is written as an integer has 64 bits. -/
theorem isInteger64_of_value {lit : NumberLiteral} {n : Int64}
    (hinteger : lit.isInteger = true) (hval : lit.value = (n.toInt : ℚ)) : lit.IsInteger64 := by
  obtain ⟨hlo, hhi⟩ := int64_range n
  refine ⟨hinteger, ?_, ?_⟩
  · rw [hval]; exact_mod_cast (by omega : (-2 ^ 63 : Int) ≤ n.toInt)
  · rw [hval]; exact_mod_cast (by omega : n.toInt < 2 ^ 64)

/-- **A stored number converts to the number written exactly if that survives.** -/
theorem cast_eq_written_iff {lit : NumberLiteral} {v : Json} (h : StoredAs lit v) :
    (∃ n : Int64, castInt64 v = some n ∧ lit.value = (n.toInt : ℚ)) ↔ Survives lit := by
  cases v with
  | int m =>
      obtain ⟨⟨hinteger, _⟩, hval⟩ := h
      exact ⟨fun ⟨n, _, hn⟩ => ⟨n, hn, .inl hinteger⟩, fun _ => ⟨m, rfl, hval⟩⟩
  | uint m =>
      obtain ⟨⟨hinteger, _⟩, hval⟩ := h
      refine ⟨fun ⟨n, _, hn⟩ => ⟨n, hn, .inl hinteger⟩, fun ⟨n, hn, _⟩ => ⟨m.toInt64, rfl, ?_⟩⟩
      -- a number below `2^63` keeps its value when it is read as signed
      have hmn : (m.toNat : Int) = n.toInt := by
        have : ((m.toNat : Int) : ℚ) = (n.toInt : ℚ) := by rw [← hn, hval]; norm_cast
        exact_mod_cast this
      have hhi := (int64_range n).2
      have hsame : m.toInt64.toInt = n.toInt := by
        have hbits : m.toInt64.toInt = m.toBitVec.toInt := rfl
        have hnat : m.toBitVec.toNat = m.toNat := rfl
        rw [hbits, BitVec.toInt_eq_toNat_of_lt (by omega), hnat, hmn]
      rw [hn, hsame]
  | float d =>
      obtain ⟨hnot, hnear⟩ := h
      constructor
      · rintro ⟨n, hcast, hn⟩
        exact ⟨n, hn, .inr (fits_of_toInt64? hcast)⟩
      · rintro ⟨n, hn, hinteger | hfits⟩
        · exact absurd (isInteger64_of_value hinteger hn) hnot
        · rw [hn] at hnear
          have hval := value_of_nearest (F := .binary64) (by decide) hfits (log2_int64 n) hnear
          exact ⟨n, toInt64?_eq_some_iff.mpr (trunc_of_value hval), hn⟩
  | _ => exact h.elim

/-! ## The handlers -/

/-- The handlers that pass an id on. -/
inductive IdHandler where
  | tripInit
  | tripMove
  | tripCancel
deriving DecidableEq, Repr

/-- Callbacks that write down the ids they are given. -/
def recorder : TripCallbacks (List Int64) where
  onTripInit := some (fun _ id _ _ _ _ ids => ids ++ [id])
  onTripMove := some (fun _ id _ _ ids => ids ++ [id])
  onTripPark := none
  onOrderUpdateLocation := none
  onOrderUpdateStatus := none
  onTripCancel := some (fun _ id ids => ids ++ [id])

namespace IdHandler

def topic : IdHandler → String
  | .tripInit => kTopicTripInit
  | .tripMove => kTopicTripMove
  | .tripCancel => kTopicTripCancel

/-- The key of the id. -/
def key : IdHandler → String
  | .tripInit => "requestId"
  | .tripMove => "tripId"
  | .tripCancel => "requestId"

/-- The handler, with those callbacks. -/
def handle [JsonLibrary] : IdHandler → Handler (Trips (List Int64))
  | .tripInit => Trips.handleTripInit recorder
  | .tripMove => Trips.handleTripMove recorder
  | .tripCancel => Trips.handleTripCancel recorder

end IdHandler

section Handlers

variable [JsonLibrary]

/--
What the library documents: `written payload key` is the number literal under a
key of the payload, and the parsed document has it there as `StoredAs` says.
-/
structure ReadsNumbers (written : Bytes → String → Option NumberLiteral) : Prop where
  stored : ∀ {payload key lit j v}, parse payload = .ok j → j.at key = .ok v →
    written payload key = some lit → StoredAs lit v
  /-- Every number is written somewhere. -/
  literal : ∀ {payload key j v}, parse payload = .ok j → j.at key = .ok v →
    isKind .number v = true → ∃ lit, written payload key = some lit

/-- The payload is one the handler takes. -/
def Readable (c : IdHandler) (payload : Bytes) : Prop := accepts ⟨utf8 c.topic, payload⟩ = true

/-- What is passed on is what is written, and nothing is done for an id that is no `int64_t`. -/
structure Unaltered (written : Bytes → String → Option NumberLiteral) (c : IdHandler)
    (payload : Bytes) (ids : TripIds) : Prop where
  /-- The conversion is one that C++ defines, and its result is the number of the literal. -/
  passed : ∀ id ∈ (c.handle payload ⟨ids, []⟩).2.world,
    (∃ j v, parse payload = .ok j ∧ j.at c.key = .ok v ∧ castInt64 v = some id)
      ∧ ∃ lit, written payload c.key = some lit ∧ lit.value = (id.toInt : ℚ)
  rejected : (¬ ∃ lit, ∃ n : Int64, written payload c.key = some lit
      ∧ lit.value = (n.toInt : ℚ)) →
    (∃ e, (c.handle payload ⟨ids, []⟩).1 = .error e)
      ∧ (c.handle payload ⟨ids, []⟩).2 = ⟨ids, []⟩

/-- Reading succeeds exactly on the messages of a topic that are accepted. -/
theorem Serves.read_cases {α : Type} {topic : String} {read : Bytes → Except JsonException α}
    {act : α → Trips World → Trips World} (h : Serves topic (Trips.handle read act))
    (payload : Bytes) :
    (∃ a, read payload = .ok a ∧ accepts ⟨utf8 topic, payload⟩ = true)
      ∨ ∃ e, read payload = .error e ∧ accepts ⟨utf8 topic, payload⟩ = false := by
  rcases h payload ⟨.new, .start⟩ with ⟨cmd, hcarries, hok⟩ | ⟨hnot, e, herr⟩
  · obtain ⟨a, ha, _⟩ := handle_ok hok
    exact .inl ⟨a, ha, (accepts_iff_carries _).mpr ⟨cmd, hcarries⟩⟩
  · cases hr : read payload with
    | ok a =>
        rw [handle_of_read hr] at herr
        exact absurd (congrArg Prod.fst herr) (by simp)
    | error e => exact .inr ⟨e, rfl, hnot⟩

/-- A handler passes on the one id of a payload it takes, or rejects the payload. -/
def PassesOn (topic key : String) (handler : Handler (Trips (List Int64))) : Prop :=
  ∀ payload ids,
    (∃ id, accepts ⟨utf8 topic, payload⟩ = true ∧ HasId payload key id
      ∧ (handler payload ⟨ids, []⟩).2.world = [id])
    ∨ accepts ⟨utf8 topic, payload⟩ = false
      ∧ ∃ e, handler payload ⟨ids, []⟩ = (.error e, ⟨ids, []⟩)

theorem passesOn_handle {α : Type} {topic key : String} {read : Bytes → Except JsonException α}
    {act : α → Trips World → Trips World}
    {record : α → Trips (List Int64) → Trips (List Int64)} (idOf : α → Int64)
    (hserves : Serves topic (Trips.handle read act))
    (hid : ∀ {payload a}, read payload = .ok a → HasId payload key (idOf a))
    (hrecord : ∀ a ids, (record a ⟨ids, []⟩).world = [idOf a]) :
    PassesOn topic key (Trips.handle read record) := by
  intro payload ids
  rcases hserves.read_cases payload with ⟨a, hread, haccepts⟩ | ⟨e, hread, hnot⟩
  · refine .inl ⟨idOf a, haccepts, hid hread, ?_⟩
    rw [handle_of_read hread]
    exact hrecord a ids
  · exact .inr ⟨hnot, .json e, by simp only [Trips.handle, hread]⟩

/-- All three handlers do. -/
theorem IdHandler.passesOn (c : IdHandler) : PassesOn c.topic c.key c.handle := by
  cases c with
  | tripInit =>
      exact passesOn_handle (fun a => a.2.1) serves_tripInit tripInit_hasId (fun _ _ => rfl)
  | tripMove =>
      exact passesOn_handle (fun a => a.2.1) serves_tripMove tripMove_hasId (fun _ _ => rfl)
  | tripCancel =>
      exact passesOn_handle (fun a => a.2) serves_tripCancel tripCancel_hasId (fun _ _ => rfl)

/--
**When decoding leaves an id alone.** A handler either does not take the payload,
or the id in it survives: it is an `int64_t`, written as an integer or one that a
`double` holds. Otherwise it is passed on altered.
-/
theorem unaltered_iff {written : Bytes → String → Option NumberLiteral}
    (hlib : ReadsNumbers written) (c : IdHandler) (payload : Bytes) (ids : TripIds) :
    Unaltered written c payload ids
      ↔ (Readable c payload → ∃ lit, written payload c.key = some lit ∧ Survives lit) := by
  rcases c.passesOn payload ids with ⟨id, haccepts, hid, hworld⟩ | ⟨hnot, e, herr⟩
  · obtain ⟨j, hj, v, hv, hget⟩ := hid
    obtain ⟨lit, hlit⟩ := hlib.literal hj hv (isKind_number_iff_int64.mpr ⟨id, hget⟩)
    have hstored := cast_eq_written_iff (hlib.stored hj hv hlit)
    constructor
    · intro h _
      obtain ⟨⟨j', v', hj', hv', hcast⟩, lit', hlit', hval⟩ :=
        h.passed id (by rw [hworld]; exact List.mem_singleton_self id)
      obtain rfl := Except.ok.inj (hj.symm.trans hj')
      obtain rfl := Except.ok.inj (hv.symm.trans hv')
      obtain rfl := Option.some.inj (hlit.symm.trans hlit')
      exact ⟨lit, hlit, hstored.mp ⟨id, hcast, hval⟩⟩
    · intro h
      obtain ⟨lit', hlit', hsurvives⟩ := h haccepts
      obtain rfl := Option.some.inj (hlit.symm.trans hlit')
      obtain ⟨n, hcast, hval⟩ := hstored.mpr hsurvives
      obtain rfl := Except.ok.inj (hget.symm.trans (getInt64_of_cast hcast))
      refine ⟨fun id' hid' => ?_, fun hnone => absurd ⟨lit, id, hlit, hval⟩ hnone⟩
      rw [hworld] at hid'
      obtain rfl := List.mem_singleton.mp hid'
      exact ⟨⟨j, v, hj, hv, hcast⟩, lit, hlit, hval⟩
  · have hread : ¬ Readable c payload := by rw [Readable, hnot]; decide
    refine iff_of_true ⟨?_, fun _ => ?_⟩ (fun h => absurd h hread)
    · rw [herr]
      intro id' hid'
      exact absurd hid' (by simp)
    · rw [herr]
      exact ⟨⟨e, rfl⟩, rfl⟩

end Handlers

section Runs

/-- A trip cancel whose id is written as `number`, -/
def cancelText (number : String) : Bytes :=
  utf8 ("\x7b\"vinNumber\":\"V1\",\"requestId\":" ++ number ++ "\x7d")

/-- its document, when the number is stored as `v`, -/
def cancelDocument (v : Json) : Json := .obj [("requestId", v), ("vinNumber", .str "V1")]

/-- and the only number literal in it. -/
def cancelLiteral (text : Bytes) (lit : NumberLiteral) : Bytes → String → Option NumberLiteral :=
  fun payload key => if payload = text ∧ key = "requestId" then some lit else none

theorem cancel_readsNumbers (text : Bytes) {lit : NumberLiteral} {v : Json}
    (h : StoredAs lit v) :
    @ReadsNumbers (libraryOf (fun _ => "") [(text, cancelDocument v)]) (cancelLiteral text lit) := by
  have hparse : ∀ {payload j}, @parse (libraryOf (fun _ => "") [(text, cancelDocument v)]) payload
      = .ok j → payload = text ∧ j = cancelDocument v := by
    intro payload j hj
    by_cases htext : payload = text
    · subst htext
      rw [parse_libraryOf_self] at hj
      exact ⟨rfl, (Except.ok.inj hj).symm⟩
    · rw [parse_libraryOf_none (by simpa using htext)] at hj
      exact nomatch hj
  let _ : JsonLibrary := libraryOf (fun _ => "") [(text, cancelDocument v)]
  refine ⟨?_, ?_⟩
  · intro payload key lit' j v' hj hv hlit
    obtain ⟨rfl, rfl⟩ := hparse hj
    unfold cancelLiteral at hlit
    split at hlit
    · rename_i hkey
      obtain ⟨_, rfl⟩ := hkey
      obtain rfl := Option.some.inj hlit
      obtain rfl : v = v' := Except.ok.inj hv
      exact h
    · exact nomatch hlit
  · intro payload key j v' hj hv hkind
    obtain ⟨rfl, rfl⟩ := hparse hj
    by_cases hkey : key = "requestId"
    · exact ⟨lit, if_pos ⟨rfl, hkey⟩⟩
    · -- the other value is no number
      obtain ⟨members, hmembers, hlookup⟩ := at_ok_iff.mp hv
      obtain rfl := Json.obj.inj hmembers
      rw [List.lookup_cons, beq_eq_false_iff_ne.mpr hkey] at hlookup
      by_cases hvin : key = "vinNumber"
      · subst hvin
        obtain rfl := Option.some.inj hlookup
        exact absurd hkind (by decide)
      · simp [List.lookup_cons, beq_eq_false_iff_ne.mpr hvin] at hlookup

/-- An id that is written with an exponent, and that a `double` holds. -/
theorem unaltered_iff_exponent :
    ∃ (_ : JsonLibrary) (written : Bytes → String → Option NumberLiteral),
      Readable .tripCancel (cancelText "1e3")
      ∧ Unaltered written .tripCancel (cancelText "1e3") .new := by
  have hstored : StoredAs ⟨false, 1, none, some 3⟩ (.float ⟨0x408f400000000000⟩) := by
    refine ⟨fun h => absurd h.1 (by decide), nearest_of_value ?_⟩
    show some (((8796093022208000 : Int) : ℚ) * 2 ^ (-43 : Int)) = _
    norm_num [NumberLiteral.value, NumberLiteral.fractional]
  let _ : JsonLibrary := libraryOf (fun _ => "")
    [(cancelText "1e3", cancelDocument (.float ⟨0x408f400000000000⟩))]
  have hparse : parse (cancelText "1e3") = .ok (cancelDocument (.float ⟨0x408f400000000000⟩)) :=
    parse_libraryOf_self _ _ _
  have hlib := cancel_readsNumbers (cancelText "1e3") hstored
  refine ⟨_, _, ?_, (unaltered_iff hlib .tripCancel _ .new).mpr (fun _ => ?_)⟩
  · rcases serves_tripCancel.read_cases (cancelText "1e3") with ⟨_, _, h⟩ | ⟨e, he, _⟩
    · exact h
    · rw [readTripCancel, hparse] at he
      cases he
  · have hint : Int64.toInt 1000 = 1000 := by decide
    refine ⟨_, if_pos ⟨rfl, rfl⟩, 1000, ?_, .inr (by decide)⟩
    rw [hint]
    norm_num [NumberLiteral.value, NumberLiteral.fractional]

/-- `7.5` is passed on as another id. -/
theorem not_ids_unaltered :
    ¬ ∀ (_ : JsonLibrary) (written : Bytes → String → Option NumberLiteral),
      ReadsNumbers written → ∀ c payload ids, Unaltered written c payload ids := by
  intro h
  have hvalue : NumberLiteral.value ⟨false, 7, some [5], none⟩ = 15 / 2 := by
    have hdigit : ((5 : Fin 10) : Nat) = 5 := rfl
    norm_num [NumberLiteral.value, NumberLiteral.fractional, hdigit]
  have hstored : StoredAs ⟨false, 7, some [5], none⟩ (.float ⟨0x401e000000000000⟩) := by
    refine ⟨fun h => absurd h.1 (by decide), nearest_of_value ?_⟩
    show some (((8444249301319680 : Int) : ℚ) * 2 ^ (-50 : Int)) = _
    rw [hvalue]
    norm_num
  let _ : JsonLibrary := libraryOf (fun _ => "")
    [(cancelText "7.5", cancelDocument (.float ⟨0x401e000000000000⟩))]
  have hparse : parse (cancelText "7.5") = .ok (cancelDocument (.float ⟨0x401e000000000000⟩)) :=
    parse_libraryOf_self _ _ _
  have hread : readTripCancel (cancelText "7.5")
      = .ok ("V1", Double.toInt64 ⟨0x401e000000000000⟩) := by
    rw [readTripCancel, hparse]; rfl
  obtain ⟨_, lit, hlit, hwritten⟩ := (h _ _ (cancel_readsNumbers (cancelText "7.5") hstored)
    .tripCancel (cancelText "7.5") .new).passed _
    (by rw [IdHandler.handle, Trips.handleTripCancel, handle_of_read hread]; exact .head _)
  obtain rfl : _ = lit := Option.some.inj ((if_pos ⟨rfl, rfl⟩).symm.trans hlit)
  -- twice the number is odd
  rw [hvalue, div_eq_iff (by norm_num)] at hwritten
  have hodd : (15 : Int) = (Double.toInt64 ⟨0x401e000000000000⟩).toInt * 2 := by
    exact_mod_cast hwritten
  omega

end Runs

end CloudGateway.Proof
