import SqlTree.Expr

/-! # Operations on queries and sources

Main definitions:

* `Query.addColumn`, `Query.addFilter`, `Query.addOrder`: a query with one more part.
* `Query.allSources`, `Query.source?`: the sources of one scope.
* `Source.field`, `Source.keyExprs`: references to what a source offers.
-/

namespace SqlTree

namespace Source

def table? (s : Source) : Option Table :=
  match s.origin with
  | .table t => some t
  | .query _ => none

/-- A reference to the field called `name`, with the type from the table if it is known there. -/
def field (s : Source) (name : String) : Expr :=
  match s.table? >>= (·.field? name) with
  | some f => .field { source := s.id, name, dataType := f.dataType, nullable := f.nullable }
  | none => .field { source := s.id, name, dataType := .unknown, nullable := true }

/-- A reference to a field of a known definition. -/
def fieldOf (id : SourceId) (f : Field) : Expr :=
  .field { source := id, name := f.name, dataType := f.dataType, nullable := f.nullable }

end Source

/-- References to all projected columns of a query, under the id `id`. -/
def Query.columnRefs (q : Query) (id : QueryId) : List Expr :=
  q.columns.mapIdx fun index c => .column { query := id, index, dataType := c.dataType }

namespace Source

/-- The expressions that identify a row: the key fields of a table or all columns of a query. -/
def keyExprs (s : Source) : List Expr :=
  match s.origin with
  | .table t => t.keyFields.map (fieldOf s.id)
  | .query q => q.columnRefs q.id

/-- The source with one more join. -/
def join (s : Source) (kind : JoinKind) (other : Source) (condition : Expr) : Source :=
  { s with joins := s.joins ++ [{ kind, source := other, condition := some condition }] }

def withAlias (s : Source) (aliasName : String) : Source := { s with aliasName := some aliasName }

end Source

mutual

/-- A source and the sources joined to it at any depth, in order of declaration. Derived tables are
not entered. -/
def Source.withJoined : Source → List Source
  | ⟨id, origin, aliasName, joins⟩ => ⟨id, origin, aliasName, joins⟩ :: joinedSources joins

def joinedSources : List Join → List Source
  | [] => []
  | ⟨_, source, _⟩ :: joins => source.withJoined ++ joinedSources joins

end

namespace Query

def addColumn (q : Query) (e : Expr) : Query := { q with columns := q.columns ++ [{ expr := e }] }

/-- The query with an ascending order item at the end. -/
def addOrder (q : Query) (e : Expr) : Query := { q with orderBy := q.orderBy ++ [{ expr := e }] }

/-- The query whose rows meet one more condition. -/
def addFilter (q : Query) (e : Expr) : Query :=
  match q.filter with
  | some old => { q with filter := some (Expr.and old e) }
  | none => { q with filter := some e }

def hasSkip (q : Query) : Bool := q.skip.isSome

/-- All sources of the scope. -/
def allSources (q : Query) : List Source := q.sources.flatMap Source.withJoined

def source? (q : Query) (id : SourceId) : Option Source := q.allSources.find? (·.id == id)

/-- Whether more than one source is joined in the scope. -/
def isMultiTable (q : Query) : Bool :=
  decide (1 < q.sources.length) || q.sources.any fun s => !s.joins.isEmpty

end Query

end SqlTree
