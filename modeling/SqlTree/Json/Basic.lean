/-! # JSON values

Main definitions:

* `Json`: the values. A number keeps whether it was written as an integer.
* `Json.depth`: how deeply a value is nested.
* `Json.record?`: the fields of a record, written as an object or as an array in field order.
* `Json.required`, `Json.defaulted`, `Json.optional`: reading one field of a record.
-/

namespace SqlTree

/-- A number: an integer, or a decimal `± mantissa * 10 ^ exponent` written with a point, an
exponent or the sign of a zero. -/
inductive JsonNumber where
  | integer (n : Int)
  | decimal (negative : Bool) (mantissa : Nat) (exponent : Int)
deriving DecidableEq, Repr

inductive Json where
  | null
  | bool (b : Bool)
  | number (n : JsonNumber)
  | string (s : String)
  | array (items : List Json)
  | object (fields : List (String × Json))
deriving Repr

namespace Json

instance : Inhabited Json := ⟨.null⟩

/-- The number with an integer value. -/
def int (n : Int) : Json := .number (.integer n)

/-- The number with a natural value. -/
def nat (n : Nat) : Json := .int n

mutual

/-- The number of values on the longest path from the root to a leaf. -/
def depth : Json → Nat
  | .array items => itemsDepth items + 1
  | .object fields => fieldsDepth fields + 1
  | _ => 1

def itemsDepth : List Json → Nat
  | [] => 0
  | j :: js => max j.depth (itemsDepth js)

def fieldsDepth : List (String × Json) → Nat
  | [] => 0
  | (_, j) :: fields => max j.depth (fieldsDepth fields)

end

/-- A value, or `null` where there is none. -/
def ofOption {α : Type} (f : α → Json) : Option α → Json
  | none => .null
  | some a => f a

/-! Reading. -/

abbrev Fields := List (String × Json)

/-- The fields of a record with the given field names. An array stands for the first so many
fields. -/
def record? (names : List String) : Json → Option Fields
  | .object fields => some fields
  | .array items => if items.length ≤ names.length then some (names.zip items) else none
  | _ => none

def bool? : Json → Option Bool
  | .bool b => some b
  | _ => none

def string? : Json → Option String
  | .string s => some s
  | _ => none

def integer? : Json → Option Int
  | .number (.integer n) => some n
  | _ => none

/-- An integer from `low` up to and including `high`. -/
def bounded? (low high : Int) (j : Json) : Option Int := do
  let n ← j.integer?
  if low ≤ n ∧ n ≤ high then some n else none

/-- A natural number up to and including `high`. -/
def natural? (high : Nat) (j : Json) : Option Nat := (j.bounded? 0 high).map Int.toNat

def list? {α : Type} (read : Json → Option α) : Json → Option (List α)
  | .array items => items.mapM read
  | _ => none

/-- One of several names, alone or as the only field of an object without content. -/
def choice? {α : Type} (ofName? : String → Option α) : Json → Option α
  | .string s => ofName? s
  | .object [(s, .null)] => ofName? s
  | _ => none

/-- A field that must be there. -/
def required {α : Type} (read : Json → Option α) (fields : Fields) (name : String) : Option α :=
  fields.lookup name >>= read

/-- A field with a value to take where it is absent. -/
def defaulted {α : Type} (read : Json → Option α) (absent : α) (fields : Fields) (name : String) :
    Option α :=
  match fields.lookup name with
  | none => some absent
  | some j => read j

/-- A field that may be absent or `null`. -/
def optional {α : Type} (read : Json → Option α) (fields : Fields) (name : String) :
    Option (Option α) :=
  match fields.lookup name with
  | none | some .null => some none
  | some j => (read j).map some

end Json

end SqlTree
