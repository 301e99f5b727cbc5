/-
JSON values as `nlohmann::json` holds them, and the library's accesses, which
throw a `type_error` or, for the constant `operator[]` on an absent key, have no
defined behaviour. A float is the rational its double stands for; an object is its
members with the key looked up by first match.
-/
import Mathlib.Data.Rat.Init

namespace MqttVscpd

/-- A `nlohmann::json` value. -/
inductive Json where
  | null
  | bool (b : Bool)
  | int (n : Int)
  | float (x : Rat)
  | str (s : String)
  | arr (xs : List Json)
  | obj (kvs : List (String × Json))

/-- `nlohmann::json::type_error` -/
structure TypeError where
  id : Nat
  text : String
  deriving DecidableEq

def TypeError.what (ex : TypeError) : String := s!"[json.exception.type_error.{ex.id}] {ex.text}"

/-- How an access fails. -/
inductive Failure where
  | thrown (ex : TypeError)
  /-- No exception: the library leaves the behaviour undefined. -/
  | undefined
  deriving DecidableEq

namespace Json

def isObject : Json → Bool
  | .obj _ => true
  | _ => false

def isString : Json → Bool
  | .str _ => true
  | _ => false

def isBoolean : Json → Bool
  | .bool _ => true
  | _ => false

def isNumber : Json → Bool
  | .int _ | .float _ => true
  | _ => false

def typeName : Json → String
  | .null => "null"
  | .bool _ => "boolean"
  | .int _ | .float _ => "number"
  | .str _ => "string"
  | .arr _ => "array"
  | .obj _ => "object"

/-- `find(key)` on an object; no other value has members. -/
def find? : Json → String → Option Json
  | .obj kvs, k => kvs.lookup k
  | _, _ => none

/-- `contains(key)`: false on everything but an object. -/
def contains (j : Json) (k : String) : Bool := (j.find? k).isSome

/-! ## Accesses that may fail -/

def typeError (id : Nat) (text : String) : Failure := .thrown ⟨id, text⟩

/-- `operator[](key) const` -/
def index (j : Json) (k : String) : Except Failure Json :=
  match j with
  | .obj kvs =>
    match kvs.lookup k with
    | none => .error .undefined
    | some v => .ok v
  | _ => .error (typeError 305 s!"cannot use operator[] with a string argument with {j.typeName}")

/-- `operator[](key)` on a value that may be changed: an absent key is entered with null. -/
def entry (j : Json) (k : String) : Except Failure Json :=
  match j with
  | .obj kvs => .ok ((kvs.lookup k).getD .null)
  | .null => .ok .null
  | _ => .error (typeError 305 s!"cannot use operator[] with a string argument with {j.typeName}")

/-- `get<std::string>()` -/
def getString : Json → Except Failure String
  | .str s => .ok s
  | j => .error (typeError 302 s!"type must be string, but is {j.typeName}")

/-- `get<bool>()` -/
def getBool : Json → Except Failure Bool
  | .bool b => .ok b
  | j => .error (typeError 302 s!"type must be boolean, but is {j.typeName}")

/-- `get<T>()` for an integer type narrower than the library's own, before the
value is cast to `T`. A boolean counts as a number here. -/
def getInt : Json → Except Failure Int
  | .int n => .ok n
  | .float x => .ok (x.num.tdiv x.den)
  | .bool b => .ok (if b then 1 else 0)
  | j => .error (typeError 302 s!"type must be number, but is {j.typeName}")

def getUInt8 (j : Json) : Except Failure UInt8 := UInt8.ofInt <$> j.getInt

def getUInt16 (j : Json) : Except Failure UInt16 := UInt16.ofInt <$> j.getInt

def getUInt32 (j : Json) : Except Failure UInt32 := UInt32.ofInt <$> j.getInt

/-- `value(key, default)` for a boolean default. -/
def valueBool (j : Json) (k : String) (default : Bool) : Except Failure Bool :=
  match j with
  | .obj kvs =>
    match kvs.lookup k with
    | none => .ok default
    | some v => v.getBool
  | _ => .error (typeError 306 s!"cannot use value() with {j.typeName}")

/-- What a loop from `begin()` to `end()` goes through: a value that is no
container is gone through once, and null not at all. -/
def elements : Json → List Json
  | .null => []
  | .arr xs => xs
  | .obj kvs => kvs.map (·.2)
  | j => [j]

/-! ## When they do not fail -/

theorem index_of_find {j v : Json} {k : String} (h : j.find? k = some v) : j.index k = .ok v := by
  cases j <;> simp_all [find?, index]

/-- A key that `contains` finds can be indexed. -/
theorem index_of_contains {j : Json} {k : String} (h : j.contains k = true) : ∃ v, j.index k = .ok v := by
  obtain ⟨v, hv⟩ := Option.isSome_iff_exists.mp h
  exact ⟨v, index_of_find hv⟩

theorem index_of_absent {j : Json} {k : String} (ho : j.isObject = true) (h : j.find? k = none) :
    j.index k = .error .undefined := by
  cases j with
  | obj kvs =>
    simp only [find?] at h
    simp only [index, h]
  | _ => simp [isObject] at ho

theorem getString_of_isString {j : Json} (h : j.isString = true) : ∃ s, j.getString = .ok s := by
  cases j <;> simp_all [isString, getString]

theorem getString_of_not {j : Json} (h : j.isString = false) : ∃ ex, j.getString = .error (.thrown ex) := by
  cases j <;> simp_all [isString, getString, typeError]

theorem getBool_of_isBoolean {j : Json} (h : j.isBoolean = true) : ∃ b, j.getBool = .ok b := by
  cases j <;> simp_all [isBoolean, getBool]

theorem getBool_of_not {j : Json} (h : j.isBoolean = false) : ∃ ex, j.getBool = .error (.thrown ex) := by
  cases j <;> simp_all [isBoolean, getBool, typeError]

theorem entry_of_isObject {j : Json} (h : j.isObject = true) (k : String) :
    j.entry k = .ok ((j.find? k).getD .null) := by
  cases j <;> simp_all [isObject, entry, find?]

theorem getInt_of_isNumber {j : Json} (h : j.isNumber = true) : ∃ n, j.getInt = .ok n := by
  cases j <;> simp_all [isNumber, getInt]

end Json

end MqttVscpd
