import SqlTree.Json.Text
import SqlTree.Literal

/-! # JSON form of types and literals

A literal is an object with its kind and its value. Integers are exact, a double is the text of its
bits, points in time have their ISO 8601 texts, and an interval is a number of milliseconds.

Main definitions:

* `DataType.tag`: the name of a type in JSON.
* `Literal.toJson`, `Literal.ofJson?`: the form of a literal.
* `Literal.valueJson`: the form of a literal as the result of a computation, which shows intervals
  to the nanosecond.
-/

namespace SqlTree

namespace DataType

def tag : DataType → String
  | .unknown => "unknown"
  | .boolean => "boolean"
  | .byte => "byte"
  | .int16 => "int16"
  | .int32 => "int32"
  | .int64 => "int64"
  | .uint64 => "u_int64"
  | .single => "single"
  | .double => "double"
  | .decimal => "decimal"
  | .char => "char"
  | .nChar => "n_char"
  | .varChar => "var_char"
  | .nVarChar => "n_var_char"
  | .text => "text"
  | .nText => "n_text"
  | .guid => "guid"
  | .binary => "binary"
  | .date => "date"
  | .time => "time"
  | .dateTime => "date_time"
  | .dateTimeOffset => "date_time_offset"
  | .interval => "interval"

def toJson (t : DataType) : Json := .string t.tag

def ofJson? (j : Json) : Option DataType := j.choice? fun s => all.find? (·.tag == s)

end DataType

def IntervalUnit.toJson (u : IntervalUnit) : Json := .string u.name

def IntervalUnit.ofJson? (j : Json) : Option IntervalUnit :=
  j.choice? fun s => all.find? (·.name == s)

/-- The bits of a double in 16 hexadecimal digits; all that is not a number is one value. -/
def doubleToJson (x : Float) : Json :=
  if x.isNaN then .string "nan" else .string (String.ofList (Json.hexDigits 16 x.toBits.toNat))

/-- A double from a number or from its bits. -/
def doubleOfJson? : Json → Option Float
  | .number (.integer n) => some (Binary64.ofInt n)
  | .number (.decimal negative m e) => some (Binary64.withSign negative (Decimal.ofScientific m e))
  | .string s => do
    if s.length ≠ 16 then none
    return Float.ofBits (UInt64.ofNat (← Json.hex? s.toList))
  | _ => none

namespace Literal

/-- An object with the kind of a literal and its value. -/
def tagged (tag : String) (value : Json) : Json :=
  .object [("literal_type", .string tag), ("value", value)]

def toJson : Literal → Json
  | .null => .object [("literal_type", .string "null")]
  | .boolean b => tagged "boolean" (.bool b)
  | .int n => tagged "int" (.int n.toInt)
  | .uint n => tagged "u_int" (.int n.toNat)
  | .float x => tagged "float" (doubleToJson x)
  | .string s => tagged "string" (.string s)
  | .date d => tagged "date" (.string d.text)
  | .dateTime t => tagged "date_time" (.string (t.text 'T'))
  | .dateTimeOffset t => tagged "date_time_offset" (.string (t.text true))
  | .interval d => tagged "interval" (.int d.wholeMillis)

def valueJson : Literal → Json
  | .interval d =>
    .object [("literal_type", .string "interval"), ("secs", .int d.wholeSeconds),
      ("nanos", .int d.subsecNanos)]
  | l => l.toJson

/-- The literal of a kind with a value. -/
def ofTagged? (tag : String) (value : Json) : Option Literal :=
  match tag with
  | "boolean" => value.bool?.map .boolean
  | "int" =>
    (value.bounded? Int64.minValue.toInt Int64.maxValue.toInt).map fun n => .int (Int64.ofInt n)
  | "u_int" => (value.bounded? 0 (UInt64.size - 1)).map fun n => .uint (UInt64.ofNat n.toNat)
  | "float" => (doubleOfJson? value).map .float
  | "string" => value.string?.map .string
  | "date" => do return .date (← Date.ofText? (← value.string?))
  | "date_time" => do return .dateTime (← DateTime.ofText? (← value.string?))
  | "date_time_offset" => do return .dateTimeOffset (← OffsetDateTime.ofText? (← value.string?))
  | "interval" => do
    let n ← value.bounded? Int64.minValue.toInt Int64.maxValue.toInt
    return .interval (← Interval.ofMillis? (Int64.ofInt n))
  | "null" =>
    match value with
    | .null => some .null
    | _ => none
  | _ => none

/-- A literal from its kind and value, by name or in this order. Only NULL may lack a value, and
only by name. In order the kind is a plain name. -/
def ofJson? : Json → Option Literal
  | .object fields => do
    let tag ← Json.required (Json.choice? some) fields "literal_type"
    match fields.lookup "value" with
    | some value => ofTagged? tag value
    | none => if tag = "null" then some .null else none
  | .array [.string tag, value] => ofTagged? tag value
  | _ => none

end Literal

end SqlTree
