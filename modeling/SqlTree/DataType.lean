/-! # Static types

Main definitions:

* `DataType`: the types that are common to the engines, with the classes that conversions and
  arithmetic ask for.
-/

namespace SqlTree

inductive DataType where
  | unknown
  | boolean
  | byte
  | int16
  | int32
  | int64
  | uint64
  | single
  | double
  | decimal
  | char
  | nChar
  | varChar
  | nVarChar
  | text
  | nText
  | guid
  | binary
  | date
  | time
  | dateTime
  | dateTimeOffset
  | interval
deriving DecidableEq, Repr, Inhabited

namespace DataType

def all : List DataType :=
  [.unknown, .boolean, .byte, .int16, .int32, .int64, .uint64, .single, .double, .decimal, .char,
    .nChar, .varChar, .nVarChar, .text, .nText, .guid, .binary, .date, .time, .dateTime,
    .dateTimeOffset, .interval]

/-- The name shown to people. -/
def label : DataType → String
  | .unknown => "Unknown"
  | .boolean => "Boolean"
  | .byte => "Byte"
  | .int16 => "Int16"
  | .int32 => "Int32"
  | .int64 => "Int64"
  | .uint64 => "UInt64"
  | .single => "Single"
  | .double => "Double"
  | .decimal => "Decimal"
  | .char => "Char"
  | .nChar => "NChar"
  | .varChar => "VarChar"
  | .nVarChar => "NVarChar"
  | .text => "Text"
  | .nText => "NText"
  | .guid => "Guid"
  | .binary => "Binary"
  | .date => "Date"
  | .time => "Time"
  | .dateTime => "DateTime"
  | .dateTimeOffset => "DateTimeOffset"
  | .interval => "Interval"

def isInteger : DataType → Bool
  | .byte | .int16 | .int32 | .int64 | .uint64 => true
  | _ => false

/-- Numbers with a fraction, of floating or fixed point. -/
def isFloat : DataType → Bool
  | .single | .double | .decimal => true
  | _ => false

def isNumeric (t : DataType) : Bool := t.isInteger || t.isFloat

def isText : DataType → Bool
  | .char | .nChar | .varChar | .nVarChar | .text | .nText => true
  | _ => false

/-- Types of points in time that include a date. -/
def isTemporal : DataType → Bool
  | .date | .dateTime | .dateTimeOffset => true
  | _ => false

def isDuration : DataType → Bool
  | .interval => true
  | _ => false

end DataType

end SqlTree
