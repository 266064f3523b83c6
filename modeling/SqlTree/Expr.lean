import SqlTree.Literal
import SqlTree.Table

/-! # Expressions and queries

The tree of one statement. Expressions hold queries as scalar subqueries and tests for rows, and
queries hold expressions in all of their clauses, so the two are one family of types.

A query or a source is referred to by its id and never by position.

Main definitions:

* `Expr`, `Query`, `Column`, `Source`, `Origin`, `Join`, `OrderItem`: the tree.
* `Expr.dataType`, `Expr.canBeNull`, `Expr.precedence`: what is known statically of a value.
* `Expr.same`: equality of trees up to equality of literals.
* `Expr.function`, `Expr.operation` and the functions after them: expressions with derived
  nullability and precedence.
-/

namespace SqlTree

/-- The handle of a query inside one tree. -/
structure QueryId where
  val : Nat
deriving DecidableEq, Repr, Inhabited

/-- The handle of a source inside one tree. -/
structure SourceId where
  val : Nat
deriving DecidableEq, Repr, Inhabited

/-- The largest id of a query or source. -/
def maxId : Nat := 4294967295

namespace Precedence

/-! Precedence levels of operators; a higher level binds more tightly. -/

def primary : Int := 100
def unary : Int := 90
def multiplicative : Int := 80
def subtraction : Int := 70
def additive : Int := 60
def comparison : Int := 50
def bitwise : Int := 40
def logicalNegation : Int := 30
def logicalConjunction : Int := 20
def logicalDisjunction : Int := 10
def unknown : Int := 0

end Precedence

/-- Operators with two operands. -/
inductive Operator where
  | add
  | subtract
  | multiply
  | divide
  | modulo
  | concat
  | equal
  | notEqual
  | less
  | lessOrEqual
  | greater
  | greaterOrEqual
  | and
  | or
deriving DecidableEq, Repr

namespace Operator

def all : List Operator :=
  [.add, .subtract, .multiply, .divide, .modulo, .concat, .equal, .notEqual, .less, .lessOrEqual,
    .greater, .greaterOrEqual, .and, .or]

def symbol : Operator → String
  | .add => "+"
  | .subtract => "-"
  | .multiply => "*"
  | .divide => "/"
  | .modulo => "%"
  | .concat => "||"
  | .equal => "="
  | .notEqual => "<>"
  | .less => "<"
  | .lessOrEqual => "<="
  | .greater => ">"
  | .greaterOrEqual => ">="
  | .and => "AND"
  | .or => "OR"

def precedence : Operator → Int
  | .multiply | .divide | .modulo => Precedence.multiplicative
  | .subtract => Precedence.subtraction
  | .add | .concat => Precedence.additive
  | .equal | .notEqual | .less | .lessOrEqual | .greater | .greaterOrEqual => Precedence.comparison
  | .and => Precedence.logicalConjunction
  | .or => Precedence.logicalDisjunction

end Operator

/-- A value supplied by the caller: sent apart from the text if it is bound, written into it
otherwise. -/
structure Parameter where
  name : String
  value : Literal
  dataType : DataType
  isBound : Bool := true
deriving DecidableEq, Repr

/-- The parameter as it is written into the text. -/
def Parameter.unbind (p : Parameter) : Parameter := { p with isBound := false }

/-- A reference to a field of a source. -/
structure FieldRef where
  source : SourceId
  name : String
  dataType : DataType
  nullable : Bool := true
deriving DecidableEq, Repr

/-- A reference to a projected column of a nested query, by position. -/
structure ColumnRef where
  query : QueryId
  index : Nat
  dataType : DataType
deriving DecidableEq, Repr

/-- What is known of a function call. Only pure functions can be evaluated beforehand. -/
structure CallFlags where
  aggregate : Bool := false
  pure : Bool := true
  nullable : Bool := true
deriving DecidableEq, Repr

inductive JoinKind where
  | inner
  | left
  | right
  | full
  | crossApply
  | outerApply
deriving DecidableEq, Repr

mutual

inductive Expr where
  /-- A literal with the type it is written as. -/
  | value (literal : Literal) (dataType : DataType)
  | parameter (p : Parameter)
  | field (f : FieldRef)
  | column (c : ColumnRef)
  | call (name : String) (dataType : DataType) (args : List Expr) (flags : CallFlags)
  | binary (operator : Operator) (left right : Expr) (precedence : Int) (dataType : DataType)
      (nullable : Bool)
  /-- Text of the engine with a numbered place for each argument. -/
  | raw (format : String) (precedence : Int) (args : List Expr) (dataType : DataType)
  /-- A type in the place of an argument. -/
  | typeName (dataType : DataType)
  /-- The only value of a query. -/
  | subquery (q : Query)
  /-- Whether a query has rows. -/
  | existsRow (q : Query)

/-- One scope: projection, bounds, sources, filter, grouping and ordering. -/
structure Query where
  id : QueryId
  columns : List Column := []
  distinct : Bool := false
  /-- The number of leading rows to leave out. -/
  skip : Option Expr := none
  /-- The number of rows to return at most. -/
  take : Option Expr := none
  sources : List Source := []
  filter : Option Expr := none
  groupBy : List Expr := []
  having : Option Expr := none
  orderBy : List OrderItem := []

/-- A projected column. -/
structure Column where
  expr : Expr
  aliasName : Option String := none

/-- An entry of the FROM clause with the joins that hang off it. -/
structure Source where
  id : SourceId
  origin : Origin
  aliasName : Option String := none
  joins : List Join := []

/-- Where the rows of a source come from. -/
inductive Origin where
  | table (t : Table)
  | query (q : Query)

structure Join where
  kind : JoinKind
  source : Source
  condition : Option Expr := none

structure OrderItem where
  expr : Expr
  desc : Bool := false

end

instance : Inhabited Expr := ⟨.value .null .unknown⟩

instance : Inhabited Query := ⟨⟨⟨0⟩, [], false, none, none, [], none, [], none, []⟩⟩

/-! Static information. -/

mutual

/-- The type of the value. A subquery has the type of its first column. -/
def Expr.dataType : Expr → DataType
  | .value _ t => t
  | .parameter p => p.dataType
  | .field f => f.dataType
  | .column c => c.dataType
  | .call _ t _ _ => t
  | .binary _ _ _ _ t _ => t
  | .raw _ _ _ t => t
  | .typeName t => t
  | .subquery q => q.firstType
  | .existsRow _ => .boolean

def Query.firstType : Query → DataType
  | ⟨_, columns, _, _, _, _, _, _, _, _⟩ => firstColumnType columns

def firstColumnType : List Column → DataType
  | [] => .unknown
  | c :: _ => c.dataType

def Column.dataType : Column → DataType
  | ⟨expr, _⟩ => expr.dataType

end

namespace Expr

def canBeNull : Expr → Bool
  | .value l _ => l.isNull
  | .parameter _ => true
  | .field f => f.nullable
  | .column _ => true
  | .call _ _ _ flags => flags.nullable
  | .binary _ _ _ _ _ nullable => nullable
  | .raw .. => true
  | .typeName _ => false
  | .subquery _ => true
  | .existsRow _ => false

def precedence : Expr → Int
  | .binary _ _ _ p _ _ => p
  | .raw _ p _ _ => p
  | _ => Precedence.primary

/-- Whether the expression calls the function called `name`, in any case of ASCII letters. -/
def isCallOf (name : String) : Expr → Bool
  | .call n _ _ _ => n.toLower == name.toLower
  | _ => false

end Expr

/-! Equality. -/

def Parameter.same (p q : Parameter) : Bool :=
  p.name == q.name && p.value.same q.value && p.dataType == q.dataType && p.isBound == q.isBound

mutual

def Expr.same : Expr → Expr → Bool
  | .value l t, .value l' t' => l.same l' && t == t'
  | .parameter p, .parameter p' => p.same p'
  | .field f, .field f' => f == f'
  | .column c, .column c' => c == c'
  | .call n t as fs, .call n' t' as' fs' => n == n' && t == t' && sameExprs as as' && fs == fs'
  | .binary o l r p t n, .binary o' l' r' p' t' n' =>
    o == o' && l.same l' && r.same r' && p == p' && t == t' && n == n'
  | .raw f p as t, .raw f' p' as' t' => f == f' && p == p' && sameExprs as as' && t == t'
  | .typeName t, .typeName t' => t == t'
  | .subquery q, .subquery q' => q.same q'
  | .existsRow q, .existsRow q' => q.same q'
  | _, _ => false

def sameExprs : List Expr → List Expr → Bool
  | [], [] => true
  | e :: es, e' :: es' => e.same e' && sameExprs es es'
  | _, _ => false

def sameOptional : Option Expr → Option Expr → Bool
  | none, none => true
  | some e, some e' => e.same e'
  | _, _ => false

def Query.same : Query → Query → Bool
  | ⟨i, cs, d, sk, tk, ss, f, g, h, o⟩, ⟨i', cs', d', sk', tk', ss', f', g', h', o'⟩ =>
    i == i' && sameColumns cs cs' && d == d' && sameOptional sk sk' && sameOptional tk tk' &&
      sameSources ss ss' && sameOptional f f' && sameExprs g g' && sameOptional h h' &&
      sameOrder o o'

def Column.same : Column → Column → Bool
  | ⟨e, a⟩, ⟨e', a'⟩ => e.same e' && a == a'

def sameColumns : List Column → List Column → Bool
  | [], [] => true
  | c :: cs, c' :: cs' => c.same c' && sameColumns cs cs'
  | _, _ => false

def Source.same : Source → Source → Bool
  | ⟨i, o, a, js⟩, ⟨i', o', a', js'⟩ => i == i' && o.same o' && a == a' && sameJoins js js'

def sameSources : List Source → List Source → Bool
  | [], [] => true
  | s :: ss, s' :: ss' => s.same s' && sameSources ss ss'
  | _, _ => false

def Origin.same : Origin → Origin → Bool
  | .table t, .table t' => t == t'
  | .query q, .query q' => q.same q'
  | _, _ => false

def Join.same : Join → Join → Bool
  | ⟨k, s, c⟩, ⟨k', s', c'⟩ => k == k' && s.same s' && sameOptional c c'

def sameJoins : List Join → List Join → Bool
  | [], [] => true
  | j :: js, j' :: js' => j.same j' && sameJoins js js'
  | _, _ => false

def OrderItem.same : OrderItem → OrderItem → Bool
  | ⟨e, d⟩, ⟨e', d'⟩ => e.same e' && d == d'

def sameOrder : List OrderItem → List OrderItem → Bool
  | [], [] => true
  | o :: os, o' :: os' => o.same o' && sameOrder os os'
  | _, _ => false

end

/-! Expressions with derived parts. -/

namespace Expr

/-- A literal with its own type. -/
def literal (l : Literal) : Expr := .value l l.dataType

def int (n : Int64) : Expr := .value (.int n) .int32

def long (n : Int64) : Expr := .value (.int n) .int64

def string (s : String) : Expr := .value (.string s) .nVarChar

def null (t : DataType) : Expr := .value .null t

/-- A call that can be NULL if one of its arguments can. -/
def function (name : String) (t : DataType) (args : List Expr) : Expr :=
  .call name t args { nullable := args.any canBeNull }

/-- An operation that can be NULL if one of its operands can. -/
def operation (operator : Operator) (left right : Expr) (t : DataType) : Expr :=
  .binary operator left right operator.precedence t (left.canBeNull || right.canBeNull)

def eq (left right : Expr) : Expr := operation .equal left right .boolean

def and (left right : Expr) : Expr := operation .and left right .boolean

def or (left right : Expr) : Expr := operation .or left right .boolean

/-- The engine text of a test for NULL. -/
def isNullFormat : String := "\x7b0\x7d IS NULL"

def isNull (e : Expr) : Expr := .raw isNullFormat Precedence.comparison [e] .boolean

/-- Equality by which NULL equals NULL. It is the plain one unless both sides can be NULL. -/
def nullSafeEq (left right : Expr) : Expr :=
  if left.canBeNull && right.canBeNull then or (eq left right) (and left.isNull right.isNull)
  else eq left right

/-- The conversion of a value to the type `target`. -/
def convert (target : DataType) (e : Expr) : Expr :=
  function "Convert" target [.typeName target, e]

end Expr

end SqlTree
