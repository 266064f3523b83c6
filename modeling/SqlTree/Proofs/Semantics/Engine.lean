import SqlTree.Expr

/-! # Engines

What an engine computes with is left open: literals, operators, functions, aggregates and engine
text get their meaning from it. It has a NULL, truth values and numbers among its values, and an
order by which rows are sorted. Where an operation has no result the evaluation of the statement
fails.

Main definitions:

* `Engine`: an engine with values of a type.
* `Engine.integers`: the engine whose values are integers and NULL, with three-valued logic.
* `Engine.keysLe`, `Engine.rank`: sorting rows by keys.
* `rowNumberKeys?`: the keys in the engine text of a row number.
-/

namespace SqlTree

structure Engine (V : Type) where
  null : V
  boolean : Bool → V
  number : Int → V
  literal : Literal → Option V
  typeName : DataType → Option V
  operator : Operator → V → V → Option V
  call : String → List V → Option V
  /-- An aggregate of a group, given the arguments at each of its rows. -/
  aggregate : String → List (List V) → Option V
  text : String → List V → Option V
  isTrue : V → Bool
  /-- The value as a number of rows. -/
  count? : V → Option Nat
  /-- The order of values, least first. -/
  le : V → V → Bool
  literal_congr : ∀ {l l'}, l.same l' = true → literal l = literal l'
  isTrue_boolean : ∀ b, isTrue (boolean b) = b
  eq_number_of_count? : ∀ {v n}, count? v = some n → v = number n
  le_number : ∀ m n, le (number m) (number n) = decide (m ≤ n)
  add_number : ∀ m n, operator .add (number m) (number n) = some (number (m + n))
  greater_number : ∀ m n, operator .greater (number m) (number n) = some (boolean (decide (n < m)))
  lessOrEqual_number :
    ∀ m n, operator .lessOrEqual (number m) (number n) = some (boolean (decide (m ≤ n)))
  and_boolean : ∀ b c, operator .and (boolean b) (boolean c) = some (boolean (b && c))

/-! Integers and NULL. -/

/-- An integer or NULL. -/
abbrev Value := Option Int

namespace Value

def ofBool (b : Bool) : Value := some (if b then 1 else 0)

/-- Whether the value counts as true: it is neither zero nor NULL. -/
def isTrue (v : Value) : Bool := v.any (· ≠ 0)

def ofLiteral : Literal → Option Value
  | .null => some none
  | .int n => some (some n.toInt)
  | .boolean b => some (ofBool b)
  | _ => none

/-- Conjunction: zero on either side decides, and otherwise NULL stands for an unknown truth
value. -/
def and : Value → Value → Value
  | some 0, _ => ofBool false
  | _, some 0 => ofBool false
  | some _, some _ => ofBool true
  | _, _ => none

def or (a b : Value) : Value :=
  if a.isTrue || b.isTrue then ofBool true
  else if a.isSome && b.isSome then ofBool false
  else none

/-- The operators on integers that have a meaning here. -/
def operation? (op : Operator) (m n : Int) : Option Value :=
  match op with
  | .add => some (some (m + n))
  | .subtract => some (some (m - n))
  | .multiply => some (some (m * n))
  | .equal => some (ofBool (decide (m = n)))
  | .notEqual => some (ofBool (decide (m ≠ n)))
  | .less => some (ofBool (decide (m < n)))
  | .lessOrEqual => some (ofBool (decide (m ≤ n)))
  | .greater => some (ofBool (decide (n < m)))
  | .greaterOrEqual => some (ofBool (decide (n ≤ m)))
  | .divide | .modulo | .concat | .and | .or => none

/-- An operator for two values. Apart from the logical operators, NULL yields NULL. -/
def operator (op : Operator) (a b : Value) : Option Value :=
  match op with
  | .and => some (a.and b)
  | .or => some (a.or b)
  | op =>
    match a, b with
    | some m, some n => operation? op m n
    | _, _ => some none

/-- Engine text: the test for NULL. -/
def text (format : String) (args : List Value) : Option Value :=
  if format = Expr.isNullFormat then args.head?.map fun v => ofBool v.isNone else none

/-- The aggregates that have a meaning here. They leave out the rows where an argument is NULL. -/
def aggregate (name : String) (rows : List (List Value)) : Option Value :=
  let rows := rows.filterMap fun row => row.mapM fun v => v
  match name with
  | "COUNT" => some (some rows.length)
  | "MIN" => some (rows.filterMap List.head?).min?
  | "MAX" => some (rows.filterMap List.head?).max?
  | _ => none

def count? : Value → Option Nat
  | some n => if 0 ≤ n then some n.toNat else none
  | none => none

/-- The order of values. NULL comes first. -/
def le : Value → Value → Bool
  | none, _ => true
  | some _, none => false
  | some m, some n => decide (m ≤ n)

theorem ofLiteral_congr {l l' : Literal} (h : l.same l' = true) : ofLiteral l = ofLiteral l' := by
  cases l <;> cases l' <;> simp_all [Literal.same, ofLiteral]

@[simp] theorem isTrue_ofBool (b : Bool) : isTrue (ofBool b) = b := by
  cases b <;> rfl

theorem eq_some_of_count? {v : Value} {n : Nat} (h : v.count? = some n) : v = some (n : Int) := by
  cases v with
  | none => simp [count?] at h
  | some m =>
    simp only [count?, Option.ite_none_right_eq_some, Option.some.injEq] at h
    rw [← h.2, Int.toNat_of_nonneg h.1]

theorem and_ofBool (b c : Bool) : and (ofBool b) (ofBool c) = ofBool (b && c) := by
  cases b <;> cases c <;> rfl

/-- A conjunction is true if both sides are. -/
@[simp] theorem isTrue_and (a b : Value) : (a.and b).isTrue = (a.isTrue && b.isTrue) := by
  unfold Value.and
  split
  · simp [isTrue, ofBool]
  · simp [isTrue, ofBool]
  · rename_i m n hm hn
    have hm' : m ≠ 0 := fun h => hm (by rw [h])
    have hn' : n ≠ 0 := fun h => hn (by rw [h])
    simp [isTrue, ofBool, hm', hn']
  · cases a <;> cases b <;> simp_all [isTrue]

/-- A disjunction is true if one side is. -/
@[simp] theorem isTrue_or (a b : Value) : (a.or b).isTrue = (a.isTrue || b.isTrue) := by
  unfold Value.or
  split
  · simp_all
  · rename_i h
    simp only [Bool.not_eq_true] at h
    rw [h]
    split <;> simp [isTrue, ofBool]

end Value

/-- The engine that computes with integers and NULL. It has no functions beside the aggregates, and
no texts beside the test for NULL. -/
def Engine.integers : Engine Value where
  null := none
  boolean := Value.ofBool
  number n := some n
  literal := Value.ofLiteral
  typeName _ := none
  operator := Value.operator
  call _ _ := none
  aggregate := Value.aggregate
  text := Value.text
  isTrue := Value.isTrue
  count? := Value.count?
  le := Value.le
  literal_congr := Value.ofLiteral_congr
  isTrue_boolean := Value.isTrue_ofBool
  eq_number_of_count? := Value.eq_some_of_count?
  le_number _ _ := rfl
  add_number _ _ := rfl
  greater_number _ _ := rfl
  lessOrEqual_number _ _ := rfl
  and_boolean b c := congrArg some (Value.and_ofBool b c)

@[simp] theorem Engine.integers_null : integers.null = none := rfl

@[simp] theorem Engine.integers_operator : integers.operator = Value.operator := rfl

@[simp] theorem Engine.integers_text : integers.text = Value.text := rfl

@[simp] theorem Engine.integers_isTrue : integers.isTrue = Value.isTrue := rfl

/-! Sorting. -/

namespace Engine

variable {V : Type}

/-- The order of rows by their keys: the first key decides in which two rows differ. A key that is
marked descends. -/
def keysLe (e : Engine V) : List Bool → List V → List V → Bool
  | true :: ds, a :: as, b :: bs => e.le b a && (!e.le a b || e.keysLe ds as bs)
  | false :: ds, a :: as, b :: bs => e.le a b && (!e.le b a || e.keysLe ds as bs)
  | _, _, _ => true

/-- The place of row `i` when the rows are sorted by their keys. Rows that do not differ in a key
stay in their order. -/
def rank (e : Engine V) (descending : List Bool) (keys : List (List V)) (i : Nat) : Nat :=
  ((keys.zipIdx.mergeSort fun a b => e.keysLe descending a.1 b.1).map (·.2)).idxOf i

end Engine

/-! The text of a row number. -/

/-- A key in the text of a row number: the place of an argument and whether the key descends. -/
def rowNumberKey? : List Char → Option (Nat × Bool)
  | ' ' :: '\x7b' :: cs => do
    let index ← Decimal.natural? (cs.takeWhile Char.isDigit)
    match String.ofList (cs.dropWhile Char.isDigit) with
    | "\x7d" => some (index, false)
    | "\x7d DESC" => some (index, true)
    | _ => none
  | _ => none

/-- The keys in the engine text of a row number. Other texts have none. -/
def rowNumberKeys? (format : String) : Option (List (Nat × Bool)) := do
  let rest ← "ROW_NUMBER() OVER (ORDER BY".toList.isPrefixOf? format.toList
  let keys ← [')'].isSuffixOf? rest
  (keys.splitOn ',').mapM rowNumberKey?

def Expr.rowNumberKeys? : Expr → Option (List (Nat × Bool))
  | .raw format _ _ _ => SqlTree.rowNumberKeys? format
  | _ => none

end SqlTree
