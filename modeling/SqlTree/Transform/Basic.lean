import SqlTree.Statement

/-! # Transformations by recursion on the tree

An expression is put together again from its transformed children and then handed to the
transformation. A query is handed over as it stands, with an action for each of its clauses, so that
a transformation can act before the clauses, move them to another place or run one of them twice.

Main definitions:

* `QueryParts`: the actions that transform the clauses of a query.
* `Transform`: what to do with an expression and with a query.
* `Expr.transform`, `Query.transform`, `Statement.transform`: the walk.
* `Expr.mapUp`, `Query.mapUp`, `Statement.mapUp`: a function on all expressions, children first.
-/

namespace SqlTree

/-- The transformed clauses of a query, each as an action. -/
structure QueryParts (m : Type → Type) where
  columns : m (List Column)
  skip : m (Option Expr)
  take : m (Option Expr)
  sources : m (List Source)
  filter : m (Option Expr)
  groupBy : m (List Expr)
  having : m (Option Expr)
  orderBy : m (List OrderItem)

/-- The query with all of its clauses transformed in their order. -/
def QueryParts.rebuild {m : Type → Type} [Monad m] (q : Query) (p : QueryParts m) : m Query := do
  return {
    id := q.id
    columns := ← p.columns
    distinct := q.distinct
    skip := ← p.skip
    take := ← p.take
    sources := ← p.sources
    filter := ← p.filter
    groupBy := ← p.groupBy
    having := ← p.having
    orderBy := ← p.orderBy }

structure Transform (m : Type → Type) [Monad m] where
  /-- Acts on an expression whose children are transformed. -/
  expr : Expr → m Expr := pure
  /-- Acts on a query as it stands. -/
  query : Query → QueryParts m → m Query := QueryParts.rebuild

variable {m : Type → Type} [Monad m]

mutual

def Expr.transform (t : Transform m) : Expr → m Expr
  | .value l ty => t.expr (.value l ty)
  | .parameter p => t.expr (.parameter p)
  | .field f => t.expr (.field f)
  | .column c => t.expr (.column c)
  | .call name ty args flags => do t.expr (.call name ty (← transformExprs t args) flags)
  | .binary op left right p ty nullable => do
    t.expr (.binary op (← left.transform t) (← right.transform t) p ty nullable)
  | .raw format p args ty => do t.expr (.raw format p (← transformExprs t args) ty)
  | .typeName ty => t.expr (.typeName ty)
  | .subquery q => do t.expr (.subquery (← q.transform t))
  | .existsRow q => do t.expr (.existsRow (← q.transform t))

def transformExprs (t : Transform m) : List Expr → m (List Expr)
  | [] => return []
  | e :: es => return (← e.transform t) :: (← transformExprs t es)

def transformOptional (t : Transform m) : Option Expr → m (Option Expr)
  | none => return none
  | some e => return some (← e.transform t)

def Query.transform (t : Transform m) : Query → m Query
  | ⟨id, columns, distinct, skip, take, sources, filter, groupBy, having, orderBy⟩ =>
    t.query ⟨id, columns, distinct, skip, take, sources, filter, groupBy, having, orderBy⟩
      { columns := transformColumns t columns
        skip := transformOptional t skip
        take := transformOptional t take
        sources := transformSources t sources
        filter := transformOptional t filter
        groupBy := transformExprs t groupBy
        having := transformOptional t having
        orderBy := transformOrder t orderBy }

def Column.transform (t : Transform m) : Column → m Column
  | ⟨expr, aliasName⟩ => return ⟨← expr.transform t, aliasName⟩

def transformColumns (t : Transform m) : List Column → m (List Column)
  | [] => return []
  | c :: cs => return (← c.transform t) :: (← transformColumns t cs)

def Source.transform (t : Transform m) : Source → m Source
  | ⟨id, origin, aliasName, joins⟩ =>
    return ⟨id, ← origin.transform t, aliasName, ← transformJoins t joins⟩

def transformSources (t : Transform m) : List Source → m (List Source)
  | [] => return []
  | s :: ss => return (← s.transform t) :: (← transformSources t ss)

def Origin.transform (t : Transform m) : Origin → m Origin
  | .table table => return .table table
  | .query q => return .query (← q.transform t)

def Join.transform (t : Transform m) : Join → m Join
  | ⟨kind, source, condition⟩ =>
    return ⟨kind, ← source.transform t, ← transformOptional t condition⟩

def transformJoins (t : Transform m) : List Join → m (List Join)
  | [] => return []
  | j :: js => return (← j.transform t) :: (← transformJoins t js)

def OrderItem.transform (t : Transform m) : OrderItem → m OrderItem
  | ⟨expr, desc⟩ => return ⟨← expr.transform t, desc⟩

def transformOrder (t : Transform m) : List OrderItem → m (List OrderItem)
  | [] => return []
  | o :: os => return (← o.transform t) :: (← transformOrder t os)

end

def SetItem.transform (t : Transform m) (i : SetItem) : m SetItem :=
  return { i with expr := ← i.expr.transform t }

def MergeOperation.transform (t : Transform m) (o : MergeOperation) : m MergeOperation :=
  return { o with
    condition := ← transformOptional t o.condition
    items := ← o.items.mapM (SetItem.transform t) }

/-- Transform all queries and expressions of a statement. Values that are set come before the
query. -/
def Statement.transform (t : Transform m) : Statement → m Statement
  | .select q => return .select (← q.transform t)
  | .insert into items q =>
    return .insert into (← items.mapM (SetItem.transform t)) (← q.transform t)
  | .update target items q =>
    return .update target (← items.mapM (SetItem.transform t)) (← q.transform t)
  | .delete target q => return .delete target (← q.transform t)
  | .merge target q on operations =>
    return .merge (← target.transform t) (← q.transform t) (← transformOptional t on)
      (← operations.mapM (MergeOperation.transform t))
  | .createTable table => return .createTable table
  | .dropTable table ifExists => return .dropTable table ifExists

/-- The transformation that acts on expressions by a function. -/
def Transform.ofFun (f : Expr → Expr) : Transform Id where
  expr e := pure (f e)

def Expr.mapUp (f : Expr → Expr) (e : Expr) : Expr := (e.transform (.ofFun f)).run

def Query.mapUp (f : Expr → Expr) (q : Query) : Query := (q.transform (.ofFun f)).run

def Statement.mapUp (f : Expr → Expr) (s : Statement) : Statement := (s.transform (.ofFun f)).run

end SqlTree
