import SqlTree.DataType
import SqlTree.Number.Decimal
import SqlTree.Time.Date

/-! # Literals

Constant values, how they compare as parts of a tree, and how they are written in SQL.

Main definitions:

* `Literal`: the values.
* `Literal.dataType`: the type a value has by itself.
* `Literal.same`: equality of values, by which zeros of both signs are one value, what is not a
  number differs from itself, and offsets of an instant do not count.
* `Literal.text`: the SQL text.
-/

namespace SqlTree

inductive Literal where
  | null
  | boolean (b : Bool)
  | int (n : Int64)
  | uint (n : UInt64)
  | float (x : Float)
  | string (s : String)
  | date (d : Date)
  | dateTime (t : DateTime)
  | dateTimeOffset (t : OffsetDateTime)
  | interval (d : Interval)
deriving DecidableEq, Repr

namespace Literal

def isNull : Literal → Bool
  | .null => true
  | _ => false

/-- The type of a value about which nothing else is known. -/
def dataType : Literal → DataType
  | .null => .unknown
  | .boolean _ => .boolean
  | .int _ => .int64
  | .uint _ => .uint64
  | .float _ => .double
  | .string _ => .nVarChar
  | .date _ => .date
  | .dateTime _ => .dateTime
  | .dateTimeOffset _ => .dateTimeOffset
  | .interval _ => .interval

def same : Literal → Literal → Bool
  | .null, .null => true
  | .boolean a, .boolean b => a == b
  | .int a, .int b => a == b
  | .uint a, .uint b => a == b
  | .float a, .float b => a == b
  | .string a, .string b => a == b
  | .date a, .date b => decide (a = b)
  | .dateTime a, .dateTime b => decide (a = b)
  | .dateTimeOffset a, .dateTimeOffset b => decide (a.utc = b.utc)
  | .interval a, .interval b => decide (a = b)
  | _, _ => false

/-- Every quote is written twice. -/
def doubleQuotes : List Char → List Char
  | [] => []
  | '\'' :: cs => '\'' :: '\'' :: doubleQuotes cs
  | c :: cs => c :: doubleQuotes cs

/-- The SQL text of a string. -/
def quotedText (s : String) : String :=
  String.ofList ('\'' :: (doubleQuotes s.toList ++ ['\'']))

def text : Literal → String
  | .null => "NULL"
  | .boolean b => if b then "TRUE" else "FALSE"
  | .int n => Decimal.integer n.toInt
  | .uint n => Decimal.integer n.toNat
  | .float x => Decimal.double x
  | .string s => quotedText s
  | .date d => "DATE '" ++ d.text ++ "'"
  | .dateTime t => "TIMESTAMP '" ++ t.text ' ' ++ "'"
  | .dateTimeOffset t => "TIMESTAMP '" ++ t.text false ++ "'"
  | .interval d => "INTERVAL '" ++ Decimal.integer d.wholeMillis ++ "' MILLISECOND"

end Literal

end SqlTree
