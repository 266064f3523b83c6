import SqlTree.Json.Basic
import SqlTree.Number.Decimal

/-! # JSON texts

Main definitions:

* `Json.parse?`: the value of a text. Of several fields with one name the last counts.
* `Json.render`: the text of a value, without blanks.
-/

namespace SqlTree.Json

/-! Reading. Each step consumes the front of a text and returns the rest. -/

def isSpace (c : Char) : Bool := c == ' ' || c == '\t' || c == '\n' || c == '\r'

def skipSpace (cs : List Char) : List Char := cs.dropWhile isSpace

def hexDigit? (c : Char) : Option Nat :=
  if c.isDigit then some (c.toNat - '0'.toNat)
  else if 'a' ≤ c ∧ c ≤ 'f' then some (c.toNat - 'a'.toNat + 10)
  else if 'A' ≤ c ∧ c ≤ 'F' then some (c.toNat - 'A'.toNat + 10)
  else none

/-- The value of hexadecimal digits. -/
def hex? (cs : List Char) : Option Nat :=
  cs.foldlM (fun n c => (hexDigit? c).map (n * 16 + ·)) 0

/-- The character of a one-letter escape. -/
def escape? : Char → Option Char
  | '"' => some '"'
  | '\\' => some '\\'
  | '/' => some '/'
  | 'b' => some '\x08'
  | 'f' => some '\x0c'
  | 'n' => some '\n'
  | 'r' => some '\r'
  | 't' => some '\t'
  | _ => none

/-- The characters up to the closing quote, after those in `done`, last first. An escaped character
above the basic plane is a pair of surrogates. -/
def readString? (done : List Char) : List Char → Option (String × List Char)
  | [] => none
  | '"' :: cs => some (String.ofList done.reverse, cs)
  | '\\' :: 'u' :: a :: b :: c :: d :: cs => do
    let n ← hex? [a, b, c, d]
    if 0xd800 ≤ n ∧ n < 0xdc00 then
      match cs with
      | '\\' :: 'u' :: a :: b :: c :: d :: cs => do
        let m ← hex? [a, b, c, d]
        if 0xdc00 ≤ m ∧ m < 0xe000 then
          readString? (Char.ofNat (0x10000 + (n - 0xd800) * 0x400 + (m - 0xdc00)) :: done) cs
        else none
      | _ => none
    else if 0xdc00 ≤ n ∧ n < 0xe000 then none
    else readString? (Char.ofNat n :: done) cs
  | '\\' :: c :: cs => do
    let c ← escape? c
    readString? (c :: done) cs
  | c :: cs => if c.toNat < 0x20 then none else readString? (c :: done) cs

/-- The digits in front, at least one of them. -/
def readDigits? (cs : List Char) : Option (List Char × List Char) :=
  match cs.takeWhile Char.isDigit with
  | [] => none
  | ds => some (ds, cs.dropWhile Char.isDigit)

/-- Digits after a point, if there is one. -/
def readFraction? : List Char → Option (Option (List Char) × List Char)
  | '.' :: cs => (readDigits? cs).map fun (ds, cs) => (some ds, cs)
  | cs => some (none, cs)

/-- A power of ten, if there is one. -/
def readExponent? : List Char → Option (Option Int × List Char)
  | c :: cs =>
    if c = 'e' ∨ c = 'E' then do
      let (negative, cs) := Decimal.splitSign cs
      let (ds, cs) ← readDigits? cs
      let n : Int := Nat.ofDigitChars 10 ds 0
      return (some (if negative then -n else n), cs)
    else some (none, c :: cs)
  | [] => some (none, [])

def readNumber? (cs : List Char) : Option (JsonNumber × List Char) := do
  let (negative, cs) :=
    match cs with
    | '-' :: cs => (true, cs)
    | cs => (false, cs)
  let (whole, cs) ← readDigits? cs
  if whole.head? = some '0' ∧ 1 < whole.length then none
  let (fraction, cs) ← readFraction? cs
  let (power, cs) ← readExponent? cs
  let fractionDigits := fraction.getD []
  let m := Nat.ofDigitChars 10 (whole ++ fractionDigits) 0
  if fraction.isNone ∧ power.isNone ∧ ¬ (negative ∧ m = 0) then
    return (.integer (if negative then -(m : Int) else m), cs)
  else return (.decimal negative m (power.getD 0 - fractionDigits.length), cs)

def readWord? (word : String) (j : Json) (cs : List Char) : Option (Json × List Char) :=
  if word.toList.isPrefixOf cs then some (j, cs.drop word.length) else none

mutual

/-- A value. Every step takes one off `fuel`, of which two for each character are enough. -/
def readValue? (fuel : Nat) (cs : List Char) : Option (Json × List Char) :=
  match fuel with
  | 0 => none
  | fuel + 1 =>
    match skipSpace cs with
    | 'n' :: cs => readWord? "null" .null ('n' :: cs)
    | 't' :: cs => readWord? "true" (.bool true) ('t' :: cs)
    | 'f' :: cs => readWord? "false" (.bool false) ('f' :: cs)
    | '"' :: cs => (readString? [] cs).map fun (s, cs) => (.string s, cs)
    | '[' :: cs =>
      match skipSpace cs with
      | ']' :: cs => some (.array [], cs)
      | cs => readItems? fuel [] cs
    | '\x7b' :: cs =>
      match skipSpace cs with
      | '\x7d' :: cs => some (.object [], cs)
      | cs => readFields? fuel [] cs
    | cs => (readNumber? cs).map fun (n, cs) => (.number n, cs)

/-- The items of an array after those in `done`, last first. -/
def readItems? (fuel : Nat) (done : List Json) (cs : List Char) : Option (Json × List Char) :=
  match fuel with
  | 0 => none
  | fuel + 1 => do
    let (j, cs) ← readValue? fuel cs
    match skipSpace cs with
    | ',' :: cs => readItems? fuel (j :: done) cs
    | ']' :: cs => some (.array (j :: done).reverse, cs)
    | _ => none

/-- The fields of an object after those in `done`, last first. -/
def readFields? (fuel : Nat) (done : Fields) (cs : List Char) : Option (Json × List Char) :=
  match fuel with
  | 0 => none
  | fuel + 1 =>
    match skipSpace cs with
    | '"' :: cs => do
      let (name, cs) ← readString? [] cs
      match skipSpace cs with
      | ':' :: cs => do
        let (j, cs) ← readValue? fuel cs
        let fields := (name, j) :: done.filter (·.1 != name)
        match skipSpace cs with
        | ',' :: cs => readFields? fuel fields cs
        | '\x7d' :: cs => some (.object fields.reverse, cs)
        | _ => none
      | _ => none
    | _ => none

end

/-- The value of a text. -/
def parse? (s : String) : Option Json := do
  let cs := s.toList
  let (j, rest) ← readValue? (2 * cs.length + 2) cs
  if (skipSpace rest).isEmpty then some j else none

/-! Writing. -/

def hexDigit (n : Nat) : Char := if n < 10 then Char.ofNat (48 + n) else Char.ofNat (87 + n)

/-- The low `width` hexadecimal digits of `n`. -/
def hexDigits : Nat → Nat → List Char
  | 0, _ => []
  | width + 1, n => hexDigits width (n / 16) ++ [hexDigit (n % 16)]

/-- Quotes, backslashes and control characters are escaped. -/
def escaped (c : Char) : List Char :=
  if c = '"' then ['\\', '"']
  else if c = '\\' then ['\\', '\\']
  else if c.toNat < 0x20 then '\\' :: 'u' :: hexDigits 4 c.toNat
  else [c]

def quoted (s : String) : String :=
  "\"" ++ String.ofList (s.toList.flatMap escaped) ++ "\""

def numberText : JsonNumber → String
  | .integer n => Decimal.integer n
  | .decimal negative m e =>
    (if negative then "-" else "") ++ String.ofList (Decimal.digits m) ++ "e" ++ Decimal.integer e

mutual

/-- Append the text of a value. -/
def renderOnto (out : String) : Json → String
  | .null => out ++ "null"
  | .bool b => out ++ if b then "true" else "false"
  | .number n => out ++ numberText n
  | .string s => out ++ quoted s
  | .array items => renderItems (out ++ "[") true items ++ "]"
  | .object fields => renderFields (out ++ "\x7b") true fields ++ "\x7d"

def renderItems (out : String) (first : Bool) : List Json → String
  | [] => out
  | j :: js => renderItems (renderOnto (if first then out else out ++ ",") j) false js

def renderFields (out : String) (first : Bool) : Fields → String
  | [] => out
  | (name, j) :: fields =>
    let out := (if first then out else out ++ ",") ++ quoted name ++ ":"
    renderFields (renderOnto out j) false fields

end

def render (j : Json) : String := renderOnto "" j

end SqlTree.Json
