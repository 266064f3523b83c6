import SqlTree.Codec.Literal
import SqlTree.Statement

/-! # JSON form of statement trees

Records are objects with all of their fields, and a variant is an object with its name as the only
field. Fields with a natural default may be left out when a tree is read.

Main definitions:

* `Expr.toJson`, `Query.toJson`, `Source.toJson`, `Statement.toJson`: writing.
* `Expr.ofJson?`, `Query.ofJson?`, `Source.ofJson?`, `Statement.ofJson?`: reading.
-/

namespace SqlTree

def QueryId.toJson (id : QueryId) : Json := .nat id.val

def QueryId.ofJson? (j : Json) : Option QueryId := (j.natural? maxId).map QueryId.mk

def SourceId.toJson (id : SourceId) : Json := .nat id.val

def SourceId.ofJson? (j : Json) : Option SourceId := (j.natural? maxId).map SourceId.mk

namespace Operator

def tag : Operator → String
  | .add => "add"
  | .subtract => "subtract"
  | .multiply => "multiply"
  | .divide => "divide"
  | .modulo => "modulo"
  | .concat => "concat"
  | .equal => "equal"
  | .notEqual => "not_equal"
  | .less => "less"
  | .lessOrEqual => "less_or_equal"
  | .greater => "greater"
  | .greaterOrEqual => "greater_or_equal"
  | .and => "and"
  | .or => "or"

def toJson (o : Operator) : Json := .string o.tag

def ofJson? (j : Json) : Option Operator := j.choice? fun s => all.find? (·.tag == s)

end Operator

namespace JoinKind

def all : List JoinKind := [.inner, .left, .right, .full, .crossApply, .outerApply]

def tag : JoinKind → String
  | .inner => "inner"
  | .left => "left"
  | .right => "right"
  | .full => "full"
  | .crossApply => "cross_apply"
  | .outerApply => "outer_apply"

def toJson (k : JoinKind) : Json := .string k.tag

def ofJson? (j : Json) : Option JoinKind := j.choice? fun s => all.find? (·.tag == s)

end JoinKind

namespace MergeKind

def all : List MergeKind := [.update, .delete, .insert]

def tag : MergeKind → String
  | .update => "update"
  | .delete => "delete"
  | .insert => "insert"

def toJson (k : MergeKind) : Json := .string k.tag

def ofJson? (j : Json) : Option MergeKind := j.choice? fun s => all.find? (·.tag == s)

end MergeKind

namespace StatementKind

def all : List StatementKind :=
  [.select, .insert, .update, .delete, .merge, .createTable, .dropTable]

def tag : StatementKind → String
  | .select => "select"
  | .insert => "insert"
  | .update => "update"
  | .delete => "delete"
  | .merge => "merge"
  | .createTable => "create_table"
  | .dropTable => "drop_table"

def toJson (k : StatementKind) : Json := .string k.tag

def ofJson? (j : Json) : Option StatementKind := j.choice? fun s => all.find? (·.tag == s)

end StatementKind

/-! Tables. -/

namespace Field

def toJson (f : Field) : Json :=
  .object [("name", .string f.name), ("data_type", f.dataType.toJson),
    ("nullable", .bool f.nullable), ("primary_key", .ofOption .nat f.keyOrdinal)]

def ofJson? (j : Json) : Option Field := do
  let r ← j.record? ["name", "data_type", "nullable", "primary_key"]
  return {
    name := ← Json.required Json.string? r "name"
    dataType := ← Json.required DataType.ofJson? r "data_type"
    nullable := ← Json.defaulted Json.bool? true r "nullable"
    keyOrdinal := ← Json.optional (Json.natural? 65535) r "primary_key" }

end Field

namespace Table

def toJson (t : Table) : Json :=
  .object [("name", .string t.name), ("schema", .ofOption .string t.schema),
    ("database", .ofOption .string t.database), ("server", .ofOption .string t.server),
    ("temporary", .bool t.temporary), ("fields", .array (t.fields.map Field.toJson))]

def ofJson? (j : Json) : Option Table := do
  let r ← j.record? ["name", "schema", "database", "server", "temporary", "fields"]
  return {
    name := ← Json.required Json.string? r "name"
    schema := ← Json.optional Json.string? r "schema"
    database := ← Json.optional Json.string? r "database"
    server := ← Json.optional Json.string? r "server"
    temporary := ← Json.defaulted Json.bool? false r "temporary"
    fields := ← Json.defaulted (Json.list? Field.ofJson?) [] r "fields" }

end Table

/-! Leaves of expressions. -/

namespace Parameter

def toJson (p : Parameter) : Json :=
  .object [("name", .string p.name), ("value", p.value.toJson), ("data_type", p.dataType.toJson),
    ("is_bound", .bool p.isBound)]

def ofJson? (j : Json) : Option Parameter := do
  let r ← j.record? ["name", "value", "data_type", "is_bound"]
  return {
    name := ← Json.required Json.string? r "name"
    value := ← Json.required Literal.ofJson? r "value"
    dataType := ← Json.required DataType.ofJson? r "data_type"
    isBound := ← Json.defaulted Json.bool? true r "is_bound" }

end Parameter

namespace FieldRef

def toJson (f : FieldRef) : Json :=
  .object [("source", f.source.toJson), ("name", .string f.name),
    ("data_type", f.dataType.toJson), ("nullable", .bool f.nullable)]

def ofJson? (j : Json) : Option FieldRef := do
  let r ← j.record? ["source", "name", "data_type", "nullable"]
  return {
    source := ← Json.required SourceId.ofJson? r "source"
    name := ← Json.required Json.string? r "name"
    dataType := ← Json.required DataType.ofJson? r "data_type"
    nullable := ← Json.defaulted Json.bool? true r "nullable" }

end FieldRef

namespace ColumnRef

def toJson (c : ColumnRef) : Json :=
  .object [("query", c.query.toJson), ("index", .nat c.index), ("data_type", c.dataType.toJson)]

def ofJson? (j : Json) : Option ColumnRef := do
  let r ← j.record? ["query", "index", "data_type"]
  return {
    query := ← Json.required QueryId.ofJson? r "query"
    index := ← Json.required (Json.natural? (UInt64.size - 1)) r "index"
    dataType := ← Json.required DataType.ofJson? r "data_type" }

end ColumnRef

namespace CallFlags

def toJson (f : CallFlags) : Json :=
  .object [("aggregate", .bool f.aggregate), ("pure", .bool f.pure), ("nullable", .bool f.nullable)]

def ofJson? (j : Json) : Option CallFlags := do
  let r ← j.record? ["aggregate", "pure", "nullable"]
  return {
    aggregate := ← Json.required Json.bool? r "aggregate"
    pure := ← Json.required Json.bool? r "pure"
    nullable := ← Json.required Json.bool? r "nullable" }

end CallFlags

/-- A precedence has 32 bits. -/
def precedenceOfJson? (j : Json) : Option Int :=
  j.bounded? Int32.minValue.toInt Int32.maxValue.toInt

/-! Writing trees. -/

mutual

def Expr.toJson : Expr → Json
  | .value l t => .object [("value", .object [("value", l.toJson), ("data_type", t.toJson)])]
  | .parameter p => .object [("parameter", p.toJson)]
  | .field f => .object [("field", f.toJson)]
  | .column c => .object [("column_ref", c.toJson)]
  | .call name t args flags =>
    .object [("function", .object [("name", .string name), ("data_type", t.toJson),
      ("args", .array (exprsToJson args)), ("flags", flags.toJson)])]
  | .binary op left right p t nullable =>
    .object [("binary_op", .object [("left", left.toJson), ("operator", op.toJson),
      ("right", right.toJson), ("precedence", .int p), ("data_type", t.toJson),
      ("nullable", .bool nullable)])]
  | .raw format p args t =>
    .object [("raw", .object [("format", .string format), ("precedence", .int p),
      ("args", .array (exprsToJson args)), ("data_type", t.toJson)])]
  | .typeName t => .object [("data_type", t.toJson)]
  | .subquery q => .object [("subquery", q.toJson)]
  | .existsRow q => .object [("exists", q.toJson)]

def exprsToJson : List Expr → List Json
  | [] => []
  | e :: es => e.toJson :: exprsToJson es

def optionalToJson : Option Expr → Json
  | none => .null
  | some e => e.toJson

def Query.toJson : Query → Json
  | ⟨id, columns, distinct, skip, take, sources, filter, groupBy, having, orderBy⟩ =>
    .object [("id", id.toJson),
      ("select", .object [("columns", .array (columnsToJson columns)), ("distinct", .bool distinct),
        ("skip", optionalToJson skip), ("take", optionalToJson take)]),
      ("from", .array (sourcesToJson sources)), ("where_clause", optionalToJson filter),
      ("group_by", .array (exprsToJson groupBy)), ("having", optionalToJson having),
      ("order_by", .array (orderToJson orderBy))]

def Column.toJson : Column → Json
  | ⟨expr, aliasName⟩ =>
    .object [("expression", expr.toJson), ("alias", .ofOption .string aliasName)]

def columnsToJson : List Column → List Json
  | [] => []
  | c :: cs => c.toJson :: columnsToJson cs

def Source.toJson : Source → Json
  | ⟨id, origin, aliasName, joins⟩ =>
    .object [("id", id.toJson), ("origin", origin.toJson), ("alias", .ofOption .string aliasName),
      ("joins", .array (joinsToJson joins))]

def sourcesToJson : List Source → List Json
  | [] => []
  | s :: ss => s.toJson :: sourcesToJson ss

def Origin.toJson : Origin → Json
  | .table t => .object [("table", t.toJson)]
  | .query q => .object [("query", q.toJson)]

def Join.toJson : Join → Json
  | ⟨kind, source, condition⟩ =>
    .object [("kind", kind.toJson), ("source", source.toJson),
      ("condition", optionalToJson condition)]

def joinsToJson : List Join → List Json
  | [] => []
  | j :: js => j.toJson :: joinsToJson js

def OrderItem.toJson : OrderItem → Json
  | ⟨expr, desc⟩ => .object [("expression", expr.toJson), ("desc", .bool desc)]

def orderToJson : List OrderItem → List Json
  | [] => []
  | o :: os => o.toJson :: orderToJson os

end

/-! Reading trees. A step down into the JSON value takes one off the fuel, which the depth of the
value bounds. -/

/-- The bounds and columns of a query. -/
structure SelectPart where
  columns : List Column := []
  distinct : Bool := false
  skip : Option Expr := none
  take : Option Expr := none

mutual

def exprOfJson? : Nat → Json → Option Expr
  | fuel + 1, .object [(tag, body)] =>
    match tag with
    | "value" => do
      let r ← body.record? ["value", "data_type"]
      return .value (← Json.required Literal.ofJson? r "value")
        (← Json.required DataType.ofJson? r "data_type")
    | "parameter" => (Parameter.ofJson? body).map .parameter
    | "field" => (FieldRef.ofJson? body).map .field
    | "column_ref" => (ColumnRef.ofJson? body).map .column
    | "function" => do
      let r ← body.record? ["name", "data_type", "args", "flags"]
      return .call (← Json.required Json.string? r "name")
        (← Json.required DataType.ofJson? r "data_type")
        (← Json.required (Json.list? (exprOfJson? fuel)) r "args")
        (← Json.defaulted CallFlags.ofJson? {} r "flags")
    | "binary_op" => do
      let r ← body.record? ["left", "operator", "right", "precedence", "data_type", "nullable"]
      return .binary (← Json.required Operator.ofJson? r "operator")
        (← Json.required (exprOfJson? fuel) r "left") (← Json.required (exprOfJson? fuel) r "right")
        (← Json.required precedenceOfJson? r "precedence")
        (← Json.required DataType.ofJson? r "data_type") (← Json.required Json.bool? r "nullable")
    | "raw" => do
      let r ← body.record? ["format", "precedence", "args", "data_type"]
      return .raw (← Json.required Json.string? r "format")
        (← Json.required precedenceOfJson? r "precedence")
        (← Json.required (Json.list? (exprOfJson? fuel)) r "args")
        (← Json.required DataType.ofJson? r "data_type")
    | "data_type" => (DataType.ofJson? body).map .typeName
    | "subquery" => (queryOfJson? fuel body).map .subquery
    | "exists" => (queryOfJson? fuel body).map .existsRow
    | _ => none
  | _, _ => none

def queryOfJson? : Nat → Json → Option Query
  | fuel + 1, j => do
    let r ← j.record? ["id", "select", "from", "where_clause", "group_by", "having", "order_by"]
    let select ← Json.defaulted (selectOfJson? fuel) {} r "select"
    return {
      id := ← Json.required QueryId.ofJson? r "id"
      columns := select.columns, distinct := select.distinct, skip := select.skip
      take := select.take
      sources := ← Json.defaulted (Json.list? (sourceOfJson? fuel)) [] r "from"
      filter := ← Json.optional (exprOfJson? fuel) r "where_clause"
      groupBy := ← Json.defaulted (Json.list? (exprOfJson? fuel)) [] r "group_by"
      having := ← Json.optional (exprOfJson? fuel) r "having"
      orderBy := ← Json.defaulted (Json.list? (orderOfJson? fuel)) [] r "order_by" }
  | _, _ => none

def selectOfJson? : Nat → Json → Option SelectPart
  | fuel + 1, j => do
    let r ← j.record? ["columns", "distinct", "skip", "take"]
    return {
      columns := ← Json.defaulted (Json.list? (columnOfJson? fuel)) [] r "columns"
      distinct := ← Json.defaulted Json.bool? false r "distinct"
      skip := ← Json.optional (exprOfJson? fuel) r "skip"
      take := ← Json.optional (exprOfJson? fuel) r "take" }
  | _, _ => none

def columnOfJson? : Nat → Json → Option Column
  | fuel + 1, j => do
    let r ← j.record? ["expression", "alias"]
    return {
      expr := ← Json.required (exprOfJson? fuel) r "expression"
      aliasName := ← Json.optional Json.string? r "alias" }
  | _, _ => none

def orderOfJson? : Nat → Json → Option OrderItem
  | fuel + 1, j => do
    let r ← j.record? ["expression", "desc"]
    return {
      expr := ← Json.required (exprOfJson? fuel) r "expression"
      desc := ← Json.defaulted Json.bool? false r "desc" }
  | _, _ => none

def sourceOfJson? : Nat → Json → Option Source
  | fuel + 1, j => do
    let r ← j.record? ["id", "origin", "alias", "joins"]
    return {
      id := ← Json.required SourceId.ofJson? r "id"
      origin := ← Json.required (originOfJson? fuel) r "origin"
      aliasName := ← Json.optional Json.string? r "alias"
      joins := ← Json.defaulted (Json.list? (joinOfJson? fuel)) [] r "joins" }
  | _, _ => none

def originOfJson? : Nat → Json → Option Origin
  | fuel + 1, .object [(tag, body)] =>
    match tag with
    | "table" => (Table.ofJson? body).map .table
    | "query" => (queryOfJson? fuel body).map .query
    | _ => none
  | _, _ => none

def joinOfJson? : Nat → Json → Option Join
  | fuel + 1, j => do
    let r ← j.record? ["kind", "source", "condition"]
    return {
      kind := ← Json.required JoinKind.ofJson? r "kind"
      source := ← Json.required (sourceOfJson? fuel) r "source"
      condition := ← Json.optional (exprOfJson? fuel) r "condition" }
  | _, _ => none

end

def Expr.ofJson? (j : Json) : Option Expr := exprOfJson? j.depth j

def Query.ofJson? (j : Json) : Option Query := queryOfJson? j.depth j

def Source.ofJson? (j : Json) : Option Source := sourceOfJson? j.depth j

/-! Statements. -/

namespace SetItem

def toJson (i : SetItem) : Json :=
  .object [("column", .string i.column), ("expression", i.expr.toJson)]

def ofJson? (j : Json) : Option SetItem := do
  let r ← j.record? ["column", "expression"]
  return {
    column := ← Json.required Json.string? r "column"
    expr := ← Json.required Expr.ofJson? r "expression" }

end SetItem

namespace MergeOperation

def toJson (o : MergeOperation) : Json :=
  .object [("kind", o.kind.toJson), ("condition", optionalToJson o.condition),
    ("items", .array (o.items.map SetItem.toJson))]

def ofJson? (j : Json) : Option MergeOperation := do
  let r ← j.record? ["kind", "condition", "items"]
  return {
    kind := ← Json.required MergeKind.ofJson? r "kind"
    condition := ← Json.optional Expr.ofJson? r "condition"
    items := ← Json.defaulted (Json.list? SetItem.ofJson?) [] r "items" }

end MergeOperation

namespace Statement

def toJson (s : Statement) : Json :=
  .object [(s.kind.tag,
    match s with
    | .select q => .object [("query", q.toJson)]
    | .insert into items q =>
      .object [("into", into.toJson), ("items", .array (items.map SetItem.toJson)),
        ("query", q.toJson)]
    | .update target items q =>
      .object [("target", .ofOption SourceId.toJson target),
        ("items", .array (items.map SetItem.toJson)), ("query", q.toJson)]
    | .delete target q =>
      .object [("target", .ofOption SourceId.toJson target), ("query", q.toJson)]
    | .merge target q on operations =>
      .object [("target", target.toJson), ("source", q.toJson), ("on", optionalToJson on),
        ("operations", .array (operations.map MergeOperation.toJson))]
    | .createTable t => .object [("table", t.toJson)]
    | .dropTable t ifExists => .object [("table", t.toJson), ("if_exists", .bool ifExists)])]

def ofJson? : Json → Option Statement
  | .object [(tag, body)] =>
    match tag with
    | "select" => do
      let r ← body.record? ["query"]
      return .select (← Json.required Query.ofJson? r "query")
    | "insert" => do
      let r ← body.record? ["into", "items", "query"]
      return .insert (← Json.required Table.ofJson? r "into")
        (← Json.defaulted (Json.list? SetItem.ofJson?) [] r "items")
        (← Json.required Query.ofJson? r "query")
    | "update" => do
      let r ← body.record? ["target", "items", "query"]
      return .update (← Json.optional SourceId.ofJson? r "target")
        (← Json.required (Json.list? SetItem.ofJson?) r "items")
        (← Json.required Query.ofJson? r "query")
    | "delete" => do
      let r ← body.record? ["target", "query"]
      return .delete (← Json.optional SourceId.ofJson? r "target")
        (← Json.required Query.ofJson? r "query")
    | "merge" => do
      let r ← body.record? ["target", "source", "on", "operations"]
      return .merge (← Json.required Source.ofJson? r "target")
        (← Json.required Query.ofJson? r "source") (← Json.optional Expr.ofJson? r "on")
        (← Json.required (Json.list? MergeOperation.ofJson?) r "operations")
    | "create_table" => do
      let r ← body.record? ["table"]
      return .createTable (← Json.required Table.ofJson? r "table")
    | "drop_table" => do
      let r ← body.record? ["table", "if_exists"]
      return .dropTable (← Json.required Table.ofJson? r "table")
        (← Json.defaulted Json.bool? false r "if_exists")
    | _ => none
  | _ => none

end Statement

end SqlTree
