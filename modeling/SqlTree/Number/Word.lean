/-! # Checked 64-bit integers

Signed and unsigned 64-bit integers with arithmetic that is carried out on unbounded integers and
refused when the result does not fit.

Main definitions:

* `Word.signed?`, `Word.unsigned?`: the word with a given value, if there is one.
* `Word.Operation`: the five arithmetic operations.
* `Word.Operation.value?`: the operation on unbounded integers.
-/

namespace SqlTree.Word

/-- The signed word with value `n`, if `n` is in range. -/
def signed? (n : Int) : Option Int64 :=
  if Int64.minValue.toInt ≤ n ∧ n ≤ Int64.maxValue.toInt then some (Int64.ofInt n) else none

/-- The unsigned word with value `n`, if `n` is in range. -/
def unsigned? (n : Int) : Option UInt64 :=
  if 0 ≤ n ∧ n < UInt64.size then some (UInt64.ofNat n.toNat) else none

/-- The value of an unsigned word. -/
def unsignedValue (n : UInt64) : Int := n.toNat

inductive Operation where
  | add
  | subtract
  | multiply
  | divide
  | modulo
deriving DecidableEq, Repr

/-- The operation on unbounded integers. Division goes toward zero, the remainder has the sign of
the dividend, and neither accepts a zero divisor. -/
def Operation.value? : Operation → Int → Int → Option Int
  | .add, a, b => some (a + b)
  | .subtract, a, b => some (a - b)
  | .multiply, a, b => some (a * b)
  | .divide, a, b => if b = 0 then none else some (a.tdiv b)
  | .modulo, a, b => if b = 0 then none else some (a.tmod b)

/-- The operation on signed words. A remainder is refused together with its quotient. -/
def Operation.signed? (op : Operation) (a b : Int64) : Option Int64 := do
  let n ← op.value? a.toInt b.toInt
  if op = .modulo then
    let _ ← Operation.divide.value? a.toInt b.toInt >>= Word.signed?
  Word.signed? n

/-- The operation on unsigned words. -/
def Operation.unsigned? (op : Operation) (a b : UInt64) : Option UInt64 :=
  op.value? (unsignedValue a) (unsignedValue b) >>= Word.unsigned?

end SqlTree.Word
