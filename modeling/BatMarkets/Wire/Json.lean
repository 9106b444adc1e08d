import Mathlib

/-!
# JSON values

JSON values as a library of the source's language keeps them: a number is an integer, or a text
that denotes a number with a fraction or an exponent; an object is a list of fields.  The readers
follow that library: they give `none` for a value of another kind.
-/

namespace Wire

/-- A JSON number. -/
inductive JsonNumber
  | integer (n : Int)
  /-- A floating-point number, by the text it is written with. -/
  | float (text : String)
  deriving DecidableEq, Repr

/-- How the number is written. -/
def JsonNumber.display : JsonNumber → String
  | .integer n => toString n
  | .float text => text

/-- A JSON value. -/
inductive Json
  | null
  | bool (b : Bool)
  | number (n : JsonNumber)
  | string (s : String)
  | array (items : List Json)
  | object (fields : List (String × Json))
  deriving Repr

namespace Json

/-- The integer as a JSON value. -/
abbrev integer (n : Int) : Json := .number (.integer n)

/-- The field of an object. -/
def get? (key : String) : Json → Option Json
  | object fields => (fields.find? (·.1 == key)).map (·.2)
  | _ => none

/-- The value is a text. -/
def asStr : Json → Option String
  | string s => some s
  | _ => none

/-- The value is a truth value. -/
def asBool : Json → Option Bool
  | bool b => some b
  | _ => none

/-- The value is a list. -/
def asArray : Json → Option (List Json)
  | array items => some items
  | _ => none

/-- The integer in the range of an `i64`. -/
def asI64 : Json → Option Int
  | number (.integer n) => if -2 ^ 63 ≤ n ∧ n < 2 ^ 63 then some n else none
  | _ => none

/-- The integer in the range of an `i64`, as a machine integer. -/
def asInt64 (value : Json) : Option Int64 := value.asI64.map .ofInt

/-- The integer in the range of a `u8`. -/
def asU8 : Json → Option UInt8
  | number (.integer n) => if 0 ≤ n ∧ n < 2 ^ 8 then some (.ofNat n.toNat) else none
  | _ => none

/-- The integer in the range of a `u32`. -/
def asU32 : Json → Option UInt32
  | number (.integer n) => if 0 ≤ n ∧ n < 2 ^ 32 then some (.ofNat n.toNat) else none
  | _ => none

/-- The items of an array, each by the same reader. -/
def each {α : Type} (read : Json → Option α) (value : Json) : Option (List α) :=
  value.asArray.bind (·.mapM read)

/-- An array of two strings. -/
def asPair : Json → Option (String × String)
  | array [string a, string b] => some (a, b)
  | _ => none

/-! ### Records

A record type is read from an object, or from an array of its fields in their order. -/

/-- The fields of a record type with these field names. -/
def record (names : List String) : Json → Option (List (String × Json))
  | object fields => some fields
  | array items => if items.length ≤ names.length then some (names.zip items) else none
  | _ => none

/-- The fields of a record type of which an array has to give the first `needed`. -/
def recordOf (names : List String) (needed : ℕ) : Json → Option (List (String × Json))
  | array items => if needed ≤ items.length then (array items).record names else none
  | value => value.record names

/-- The tag of a tagged record, and the rest of the record. -/
def tagged (key : String) : Json → Option (String × Json)
  | object fields => ((object fields).get? key).bind fun tag =>
      tag.asStr.map fun tag => (tag, object (fields.filter (·.1 != key)))
  | array (string tag :: items) => some (tag, array items)
  | _ => none

/-- A field that must be there, by the reader of its type. -/
def required {α : Type} (fields : List (String × Json)) (key : String) (read : Json → Option α) :
    Option α :=
  ((object fields).get? key).bind read

/-- A field that may be missing or null. -/
def optional {α : Type} (fields : List (String × Json)) (key : String) (read : Json → Option α) :
    Option (Option α) :=
  match (object fields).get? key with
  | none | some null => some none
  | some value => (read value).map some

/-- A field that may be missing, with the value it then has. -/
def defaulted {α : Type} (fields : List (String × Json)) (key : String) (read : Json → Option α)
    (d : α) : Option α :=
  match (object fields).get? key with
  | none => some d
  | some value => read value

/-! ### Writing -/

/-- A character inside a string. -/
def escapeChar (c : Char) : List Char :=
  if c = '"' then ['\\', '"']
  else if c = '\\' then ['\\', '\\']
  else if c = '\n' then ['\\', 'n']
  else if c = '\r' then ['\\', 'r']
  else if c = '\t' then ['\\', 't']
  else if c.toNat = 8 then ['\\', 'b']
  else if c.toNat = 12 then ['\\', 'f']
  else if c.toNat < 32 then
    ['\\', 'u', '0', '0', Nat.digitChar (c.toNat / 16), Nat.digitChar (c.toNat % 16)]
  else [c]

/-- A string with its quotes. -/
def displayString (s : String) : String :=
  String.ofList ('"' :: s.toList.flatMap escapeChar ++ ['"'])

mutual

/-- How the value is written, without white space. -/
def display : Json → String
  | null => "null"
  | bool b => if b then "true" else "false"
  | number n => n.display
  | string s => displayString s
  | array items => "[" ++ ",".intercalate (displayItems items) ++ "]"
  | object fields => "\x7b" ++ ",".intercalate (displayFields fields) ++ "\x7d"

/-- The items of a list as they are written. -/
def displayItems : List Json → List String
  | [] => []
  | item :: items => item.display :: displayItems items

/-- The fields of an object as they are written. -/
def displayFields : List (String × Json) → List String
  | [] => []
  | (key, value) :: fields => (displayString key ++ ":" ++ value.display) :: displayFields fields

end

/-! ### Fields -/

@[simp] theorem get?_object_nil (key : String) : (object []).get? key = none := rfl

@[simp] theorem get?_object_cons (key k : String) (v : Json) (fields : List (String × Json)) :
    (object ((k, v) :: fields)).get? key =
      if k == key then some v else (object fields).get? key := by
  cases h : k == key <;> simp [get?, h]

/-- The first of two lists of fields that has the field decides. -/
theorem get?_object_append (key : String) (xs ys : List (String × Json)) :
    (object (xs ++ ys)).get? key = ((object xs).get? key).or ((object ys).get? key) := by
  induction xs with
  | nil => rfl
  | cons x xs ih =>
    obtain ⟨k, v⟩ := x
    simp only [List.cons_append, get?_object_cons, ih]
    split <;> rfl

/-- A field that is there when the option is. -/
@[simp] theorem get?_object_toList {α : Type} (key k : String) (o : Option α) (f : α → Json) :
    (object (o.map fun a => (k, f a)).toList).get? key = if k == key then o.map f else none := by
  cases o with
  | none => simp
  | some a => simp

end Json

end Wire
