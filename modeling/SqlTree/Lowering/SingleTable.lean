import SqlTree.Ids
import SqlTree.Transform.Basic

/-! # Deletions and updates over a single table

For an engine that deletes from or updates one table at a time, a statement over joined sources
becomes one over a new source of the target table. Its rows are those for which the query of the
statement, tied to the row by the key of the table, has a row. A value that reads other sources
becomes a subquery over a copy of that query with ids of its own.

Main definitions:

* `syntheticAlias`: an alias that no source has.
* `Table.keyEquality`: the condition that two sources are at the same row of a table.
* `Renaming`, `Query.renumber`: a copy of a query with new ids.
* `Statement.toSingleTable`: the pass.
-/

namespace SqlTree

/-! The alias of the new source. -/

/-- The alias of the new source, unless it is taken. -/
def targetAlias : String := "$"

/-- The alias with a number from 1 on. -/
def numberedAlias (k : Nat) : String := targetAlias ++ Decimal.integer ((k + 1 : Nat) : Int)

/-- The first alias that is not taken: the plain one or else one with a number. Of one more alias
than are taken, one is free. -/
def freshAlias (taken : List String) : String :=
  let candidates := targetAlias :: (List.range taken.length).map numberedAlias
  (candidates.find? fun a => !taken.contains a).getD targetAlias

/-- The aliases of all sources at and below a node. -/
def Node.aliases (n : Node) : List String := n.walk.filterMap fun m => m.source?.bind (·.aliasName)

def syntheticAlias (s : Statement) : String := freshAlias (Node.statement s).aliases

/-! The key of the target. -/

/-- The target of a statement that reads other sources too. -/
structure Target where
  id : SourceId
  table : Table

/-- The target, if the query does not have the shape of one over a single table and the fields of
the table are known. -/
def Query.target? (q : Query) (target : Option SourceId) : Option Target := do
  let first ← q.sources.head?
  let id := target.getD first.id
  if !q.isMultiTable && first.id == id then none
  let table ← (← q.source? id).table?
  if table.fields.isEmpty then none
  return { id, table }

namespace Table

/-- A reference to a field of the table from the source `id`. -/
def fieldRef (t : Table) (id : SourceId) (name : String) : Expr :=
  match t.field? name with
  | some f => .field { source := id, name, dataType := f.dataType, nullable := f.nullable }
  | none => .field { source := id, name, dataType := .unknown, nullable := true }

/-- The conditions that two sources of the table agree in each field of the key. -/
def keyConditions (t : Table) (inner outer : SourceId) : List Expr :=
  t.keyFields.map fun f => .nullSafeEq (t.fieldRef inner f.name) (t.fieldRef outer f.name)

/-- The condition that two sources of the table are at the same row. -/
def keyEquality (t : Table) (inner outer : SourceId) : Option Expr :=
  match t.keyConditions inner outer with
  | [] => none
  | c :: cs => some (cs.foldl Expr.and c)

end Table

/-- The query with one more condition, if there is one. -/
def Query.addFilter? (q : Query) : Option Expr → Query
  | some e => q.addFilter e
  | none => q

/-! Copies with new ids. -/

/-- New ids for old ones. The first entry for an id counts. -/
structure Renaming where
  sources : List (SourceId × SourceId) := []
  queries : List (QueryId × QueryId) := []

namespace Renaming

def source (r : Renaming) (id : SourceId) : SourceId := (r.sources.lookup id).getD id

def query (r : Renaming) (id : QueryId) : QueryId := (r.queries.lookup id).getD id

/-- The reference to a renamed source or query. -/
def reference (r : Renaming) : Expr → Expr
  | .field f => .field { f with source := r.source f.source }
  | .column c => .column { c with query := r.query c.query }
  | e => e

/-- New ids for the sources of a query in their order, counted from `base`. -/
def addSources (r : Renaming) (base : Nat) (ids : List SourceId) : Renaming :=
  { r with sources := (ids.mapIdx fun i id => (id, SourceId.mk (base + i))).reverse ++ r.sources }

def addQuery (r : Renaming) (old new : QueryId) : Renaming :=
  { r with queries := (old, new) :: r.queries }

end Renaming

mutual

/-- The source and those joined to it with consecutive ids from `n` on. -/
def Source.numberFrom (n : Nat) : Source → Source
  | ⟨_, origin, aliasName, joins⟩ => ⟨⟨n⟩, origin, aliasName, numberJoins (n + 1) joins⟩

def numberJoins (n : Nat) : List Join → List Join
  | [] => []
  | ⟨kind, source, condition⟩ :: joins =>
    ⟨kind, source.numberFrom n, condition⟩ :: numberJoins (n + source.withJoined.length) joins

end

def numberSources (n : Nat) : List Source → List Source
  | [] => []
  | s :: ss => s.numberFrom n :: numberSources (n + s.withJoined.length) ss

/-- The ids that come next and the new names so far. -/
structure Renumbering where
  ids : Ids
  names : Renaming := {}

namespace Renumbering

def drawQuery (old : QueryId) (r : Renumbering) : QueryId × Renumbering :=
  let (id, ids) := r.ids.drawQuery
  (id, { ids, names := r.names.addQuery old id })

def drawSources (old : List SourceId) (r : Renumbering) : Nat × Renumbering :=
  let (base, ids) := r.ids.drawSources old.length
  (base, { ids, names := r.names.addSources base old })

end Renumbering

/-- Give a query and its sources new ids before the queries below it. -/
def Transform.renumber : Transform (StateM Renumbering) where
  query q p := do
    let id ← modifyGet (Renumbering.drawQuery q.id)
    let base ← modifyGet (Renumbering.drawSources (q.allSources.map (·.id)))
    let copy ← p.rebuild q
    return { copy with id, sources := numberSources base copy.sources }

/-- A copy of the query with new ids for all queries and sources, and what became of the old ones.
References still name the old ones. -/
def Query.renumber (q : Query) (ids : Ids) : Query × Renumbering :=
  (q.transform .renumber).run { ids }

/-! What a value reads. -/

/-- Whether an expression reads no source of the query but the target. -/
def Query.readsOnly (q : Query) (target : SourceId) (e : Expr) : Bool :=
  let sources := q.allSources
  let derived := sources.filterMap fun s =>
    match s.origin with
    | .query q => some q.id
    | .table _ => none
  !e.contains fun
    | .expr (.field f) => f.source != target && sources.any (·.id == f.source)
    | .expr (.column c) => derived.contains c.query
    | _ => false

namespace Query

/-- The query as a test for rows that are at the row of `outer`. -/
def correlatedFilter (q : Query) (target : Target) (outer : SourceId) : Query :=
  ({ q with columns := [{ expr := .int 1 }] }).addFilter?
    (target.table.keyEquality target.id outer)

/-- A value over a copy of the query that is at the row of `outer`. -/
def correlatedValue (q : Query) (value : Expr) (target : Target) (outer : SourceId) :
    StateM Ids Expr := do
  let (copy, r) := q.renumber (← get)
  set r.ids
  let copy := copy.mapUp r.names.reference
  let value := value.mapUp r.names.reference
  let copy := { copy with columns := [{ expr := value }], orderBy := [] }
  return .subquery
    (copy.addFilter? (target.table.keyEquality (r.names.source target.id) outer))

/-- A value to be set, as it is read at the row of `outer`. -/
def setValue (q : Query) (target : Target) (outer : SourceId) (value : Expr) : StateM Ids Expr :=
  if q.readsOnly target.id value then
    return value.mapUp ({ sources := [(target.id, outer)] } : Renaming).reference
  else
    q.correlatedValue value target outer

/-- The query over the new source that has the rows of the target which the query `q` finds. -/
def overTarget (q : Query) (target : Target) (outer : SourceId) (aliasName : String)
    (id : QueryId) : Query :=
  { id
    sources := [{ id := outer, origin := .table target.table, aliasName := some aliasName }]
    filter := some (.existsRow (q.correlatedFilter target outer)) }

end Query

namespace Statement

/-- The statement over a single table. -/
def singleTable (aliasName : String) : Statement → StateM Ids Statement
  | .delete target q => do
    let some t := q.target? target | return .delete target q
    let outer ← modifyGet Ids.drawSource
    let id ← modifyGet Ids.drawQuery
    return .delete (some outer) (q.overTarget t outer aliasName id)
  | .update target items q => do
    let some t := q.target? target | return .update target items q
    let outer ← modifyGet Ids.drawSource
    let items ← items.mapM fun i => return { i with expr := ← q.setValue t outer i.expr }
    let id ← modifyGet Ids.drawQuery
    return .update (some outer) items (q.overTarget t outer aliasName id)
  | s => return s

/-- Give a deletion or an update over several tables the shape of one over a single table. -/
def toSingleTable (s : Statement) : Statement :=
  ((s.singleTable (syntheticAlias s)).run (.after (.statement s))).run.1

end Statement

end SqlTree
