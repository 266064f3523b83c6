import SqlTree.Fold.Operator
import SqlTree.Text.Blank
import SqlTree.Text.Case

/-! # Functions on literals

Conversions between types and the functions whose value is known before a statement runs.

Main definitions:

* `Literal.convert?`: a literal as a value of another type.
* `foldCall?`: a call of one of the known functions.
* `callOverflows`: a call whose evaluation cannot go on from an argument.
-/

namespace SqlTree

namespace Literal

def toUInt64? : Literal → Option Literal
  | .int n => (Word.unsigned? n.toInt).map .uint
  | .uint n => some (.uint n)
  | .float x =>
    if 0.0 ≤ x ∧ x < 18446744073709551616.0 then
      (Word.unsigned? (Binary64.truncate x)).map .uint
    else none
  | .string s => do return .uint (← Word.unsigned? (← Decimal.unsigned? (Text.trim s.toList)))
  | _ => none

def toInt64? : Literal → Option Literal
  | .int n => some (.int n)
  | .uint n => (Word.signed? n.toNat).map .int
  | .float x =>
    if -9223372036854775808.0 ≤ x ∧ x < 9223372036854775808.0 then
      (Word.signed? (Binary64.truncate x)).map .int
    else none
  | .boolean b => some (.int (if b then 1 else 0))
  | .string s => do return .int (← Word.signed? (← Decimal.integer? (Text.trim s.toList)))
  | _ => none

def toFloat? : Literal → Option Literal
  | .string s => (Decimal.double? (Text.trim s.toList)).map .float
  | l => l.toDouble?.map .float

def toText? : Literal → Option Literal
  | .string s => some (.string s)
  | .int n => some (.string (Decimal.integer n.toInt))
  | .uint n => some (.string (Decimal.integer n.toNat))
  | .float x => some (.string (Decimal.double x))
  | _ => none

def toBoolean? : Literal → Option Literal
  | .boolean b => some (.boolean b)
  | .int n => some (.boolean (n != 0))
  | _ => none

/-- The literal as a value of the type `target`. Fractions are cut off, texts are read without the
blanks around them, and only numbers, texts and truth values are converted. -/
def convert? (target : DataType) (l : Literal) : Option Literal :=
  if l.isNull then some .null
  else if target = .uint64 then l.toUInt64?
  else if target.isInteger then l.toInt64?
  else if target.isFloat then l.toFloat?
  else if target.isText then l.toText?
  else if target = .boolean then l.toBoolean?
  else none

def floor? : Literal → Option Literal
  | .float x => some (.float (Binary64.floor x))
  | .int n => some (.int n)
  | .uint n => some (.uint n)
  | _ => none

def ceiling? : Literal → Option Literal
  | .float x => some (.float (Binary64.ceiling x))
  | .int n => some (.int n)
  | .uint n => some (.uint n)
  | _ => none

def abs? : Literal → Option Literal
  | .int n => (Word.signed? n.toInt.natAbs).map .int
  | .uint n => some (.uint n)
  | .float x => some (.float x.abs)
  | .interval d => some (.interval d.abs)
  | _ => none

def upper? : Literal → Option Literal
  | .string s => some (.string (Text.upper s))
  | _ => none

def lower? : Literal → Option Literal
  | .string s => some (.string (Text.lower s))
  | _ => none

/-- The number of code points of a text. -/
def length? : Literal → Option Literal
  | .string s => some (.int (Int64.ofNat s.length))
  | _ => none

end Literal

/-- The first value other than NULL. A value that is not known ends the search. -/
def coalesce? : List (Option Literal) → Option Literal
  | [] => some .null
  | none :: _ => none
  | some l :: ls => if l.isNull then coalesce? ls else some l

/-- A function of one argument, which yields NULL for NULL. -/
def applyUnary? (f : Literal → Option Literal) : List (Option Literal) → Option Literal
  | [some l] => if l.isNull then some .null else f l
  | _ => none

/-- The value of a call, given the arguments and those of their values that are known. Names count
in any case of ASCII letters. -/
def foldCall? (name : String) (args : List Expr) (values : List (Option Literal)) :
    Option Literal :=
  match name.toLower with
  | "coalesce" => coalesce? values
  | "convert" =>
    match args, values with
    | [.typeName target, _], [_, some l] => Literal.convert? target l
    | _, _ => none
  | "floor" => applyUnary? Literal.floor? values
  | "ceiling" => applyUnary? Literal.ceiling? values
  | "abs" => applyUnary? Literal.abs? values
  | "upper" => applyUnary? Literal.upper? values
  | "lower" => applyUnary? Literal.lower? values
  | "length" => applyUnary? Literal.length? values
  | _ => none

/-- The search for the first value other than NULL comes to an argument from which it cannot go
on. -/
def coalesceOverflows : List (Bool × Option Literal) → Bool
  | [] => false
  | (overflows, l) :: ls => overflows || (l.any Literal.isNull && coalesceOverflows ls)

def unaryOverflows : List (Bool × Option Literal) → Bool
  | [(overflows, _)] => overflows
  | _ => false

/-- The evaluation of a call cannot go on from one of the arguments that it evaluates, given for
each of them whether it cannot and the value. -/
def callOverflows (name : String) (args : List Expr) (values : List (Bool × Option Literal)) :
    Bool :=
  match name.toLower with
  | "coalesce" => coalesceOverflows values
  | "convert" =>
    match args, values with
    | [.typeName _, _], [_, (overflows, _)] => overflows
    | _, _ => false
  | "floor" | "ceiling" | "abs" | "upper" | "lower" | "length" => unaryOverflows values
  | _ => false

end SqlTree
