import CloudGateway.Lib.BinaryFloat

/-!
# JSON documents

The values of `nlohmann::json` as the gateway builds and reads them. The library
itself is third-party code: what it prints for a document is taken as a
parameter, the class `JsonText`, and what it makes of a text is another, in
`JsonLibrary`. Access to a parsed document is modelled: `at`, `value` and `get`
either read a value or throw, and `operator[]` also writes.
-/

namespace CloudGateway

/-- A C++ `double`, by its 64 bits. -/
structure Double where
  bits : UInt64
deriving DecidableEq, Repr, Inhabited

/-- `nlohmann::json`. Numbers keep the type they are stored with. -/
inductive Json where
  | null
  | bool (b : Bool)
  | int (n : Int64)
  | uint (n : UInt64)
  | float (d : Double)
  | str (s : String)
  | arr (xs : List Json)
  | obj (members : List (String × Json))
deriving Repr, Inhabited

namespace Json

/--
`j[key] = value` on the members of an object. Members are kept as `std::map`
keeps them, in key order and without repetition.
-/
def assign (key : String) (value : Json) : List (String × Json) → List (String × Json)
  | [] => [(key, value)]
  | (k, v) :: rest =>
      if key < k then (key, value) :: (k, v) :: rest
      else if key = k then (key, value) :: rest
      else (k, v) :: assign key value rest

/-- A fresh `json j;` after the assignments `j[key] = value`, in order. -/
def object (assignments : List (String × Json)) : Json :=
  .obj (assignments.foldl (fun members kv => assign kv.1 kv.2 members) [])

end Json

/-- The printing half of the JSON library: `json::dump()`. -/
class JsonText where
  /-- The text of a document. -/
  dump : Json → String

/-! ## Reading -/

/-- A `std::string` that comes from outside: any bytes. -/
abbrev Bytes := List UInt8

/-- The bytes of a text. -/
def utf8 (s : String) : Bytes := s.toUTF8.data.toList

theorem utf8_injective {s t : String} (h : utf8 s = utf8 t) : s = t := by
  have hdata : s.toByteArray.data = t.toByteArray.data := Array.ext' h
  exact String.toByteArray_inj.mp (ByteArray.ext hdata)

/-- The subclasses of `nlohmann::json::exception` that reading a document throws. -/
inductive JsonException where
  | parseError
  | typeError
  | outOfRange
deriving DecidableEq, Repr

/-- The JSON library: it also parses, and prints with an indentation. -/
class JsonLibrary extends JsonText where
  /-- `json::parse(text)`. -/
  parse : Bytes → Except JsonException Json
  /-- `json::dump(indent)`. -/
  dumpIndent : Nat → Json → String

namespace Double

/-- Sign, mantissa and exponent, or one of the special values. -/
def unpack (d : Double) : Float.Model.UnpackedFloat :=
  Float.Model.UnpackedFloat.unpack .binary64 d.bits.toBitVec

/-- `static_cast<double>` of an `int64_t`: the nearest `double`, the even one of two. -/
def ofInt64 (n : Int64) : Double := ⟨(Float.Model.ofInt64 n).toBits⟩

/-- `static_cast<double>` of a `uint64_t`. -/
def ofUInt64 (n : UInt64) : Double := ⟨(Float.Model.ofUInt64 n).toBits⟩

/-- `static_cast<int64_t>`, towards zero. C++ leaves it undefined out of range; here it saturates. -/
def toInt64 (d : Double) : Int64 := d.unpack.toInt64

/-- `static_cast<int64_t>` where C++ defines it: when the integer part is an `int64_t`. -/
def toInt64? (d : Double) : Option Int64 :=
  match BinaryFloat.trunc d.unpack with
  | none => none
  | some n =>
      if h : Int64.minValue.toInt ≤ n ∧ n ≤ Int64.maxValue.toInt then some (.ofIntLE n h.1 h.2)
      else none

/-- Neither infinite nor NaN: not all exponent bits are set. -/
def isFinite (d : Double) : Bool := (d.bits >>> 52) &&& 0x7ff != 0x7ff

end Double

/-- `j.at(key)`. -/
def Json.at (j : Json) (key : String) : Except JsonException Json :=
  match j with
  | .obj members =>
      match members.lookup key with
      | some v => .ok v
      | none => .error .outOfRange
  | _ => .error .typeError

/--
`j[key]` on a document that is not const: the value under the key, and the document
afterwards. What is missing is filled in with null, and a null becomes an object.
-/
def Json.subscript (j : Json) (key : String) : Except JsonException (Json × Json) :=
  match j with
  | .null => .ok (.null, .obj [(key, .null)])
  | .obj members =>
      match members.lookup key with
      | some v => .ok (v, .obj members)
      | none => .ok (.null, .obj (assign key .null members))
  | _ => .error .typeError

/-- What `dump` makes of a `std::string` in a document: it throws if that is not UTF-8. -/
def dumpable (s : Bytes) : Except JsonException String :=
  match String.fromUTF8? ⟨s.toArray⟩ with
  | some text => .ok text
  | none => .error .typeError

namespace Json

/-- `j.get<std::string>()`. -/
def getString : Json → Except JsonException String
  | .str s => .ok s
  | _ => .error .typeError

/-- `j.get<bool>()`. -/
def getBool : Json → Except JsonException Bool
  | .bool b => .ok b
  | _ => .error .typeError

/-- `j.get<int64_t>()`: a number of any storage type is converted. -/
def getInt64 : Json → Except JsonException Int64
  | .int n => .ok n
  | .uint n => .ok n.toInt64
  | .float d => .ok d.toInt64
  | _ => .error .typeError

/-- `j.get<double>()`: a number of any storage type is converted. -/
def getDouble : Json → Except JsonException Double
  | .int n => .ok (.ofInt64 n)
  | .uint n => .ok (.ofUInt64 n)
  | .float d => .ok d
  | _ => .error .typeError

/-- `j.value(key, fallback)`, where `read` is the `get` of the fallback's type. -/
def value {α : Type} (j : Json) (key : String) (read : Json → Except JsonException α)
    (fallback : α) : Except JsonException α :=
  match j with
  | .obj members =>
      match members.lookup key with
      | some v => read v
      | none => .ok fallback
  | _ => .error .typeError

end Json

end CloudGateway
