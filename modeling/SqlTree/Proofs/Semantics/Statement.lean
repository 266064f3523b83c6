import SqlTree.Proofs.Semantics.Basic

/-! # What statements do

Main definitions:

* `Statement.result?`: the rows that a selection returns.
* `Statement.removed?`, `Statement.updated?`: what a deletion removes from its target, and what an
  update writes to which of its rows.
* `Table.Fits`, `Table.Conforms`: rows with the fields, and also the key, that a table declares.
* `Database.Fits`, `Database.Conforms`: databases with such rows.
-/

namespace SqlTree

variable {V : Type} [DecidableEq V] (db : Database V)

/-- The query runs over groups, whatever it projects. -/
def Query.groupsRows (q : Query) : Bool := isGrouped { q with columns := [] }

/-- The environments that a statement with this query acts on, which are none of groups. The order
counts only if there are bounds. -/
def Query.selected? (q : Query) : Option (List (Env V)) := do
  let c := q.scan db
  if q.groupsRows then none
  else
    let envs ← c.bindings .empty
    if c.bounded then
      let keyed ← envs.mapM fun b => do return (b, ← c.keys b)
      let sorted := keyed.mergeSort fun a b => db.engine.keysLe c.descending a.2 b.2
      let (skip, take) ← c.bounds .empty
      return (page skip take sorted).map (·.1)
    else return envs

theorem Query.selected?_of_unbounded {q : Query} (hskip : q.skip = none) (htake : q.take = none) :
    q.selected? db = if q.groupsRows then none else (q.scan db).bindings .empty := by
  have hbounded : (q.scan db).bounded = false := by simp [scan_eq, hskip, htake]
  simp [selected?, hbounded]

/-- The source that a deletion or an update is about: the first one unless it is named. -/
def Query.targetId? (q : Query) (target : Option SourceId) : Option SourceId :=
  target <|> q.sources.head?.map (·.id)

namespace Statement

/-- The rows that a selection of columns returns. -/
def result? : Statement → Option (List (List V))
  | .select q => if q.columns.isEmpty then none else (q.scan db).rows db.engine .empty
  | _ => none

/-- The rows of the target that a deletion removes: those that occur in an environment. -/
def removed? : Statement → Option (List (Row V))
  | .delete target q => do
    let id ← q.targetId? target
    (← q.selected? db).mapM fun b => b.source id
  | _ => none

/-- The values that an update assigns to columns, in an environment. -/
def assigned? (items : List SetItem) (b : Env V) : Option (List (String × V)) :=
  items.mapM fun i => (i.expr.eval db b).map fun v => (i.column, v)

/-- The row of the source `id` in an environment with the values assigned to columns there. -/
def assignment? (id : SourceId) (items : List SetItem) (b : Env V) :
    Option (Row V × List (String × V)) := do
  return (← b.source id, ← assigned? db items b)

theorem assignment?_eq_some {id : SourceId} {items : List SetItem} {b : Env V}
    {u : Row V × List (String × V)} :
    assignment? db id items b = some u ↔
      b.source id = some u.1 ∧ assigned? db items b = some u.2 := by
  obtain ⟨x, vs⟩ := u
  simp [assignment?, Option.bind_eq_some_iff]

/-- The rows of the target that an update writes to, each with the values assigned to columns. -/
def updated? : Statement → Option (List (Row V × List (String × V)))
  | .update target items q => do
    let id ← q.targetId? target
    (← q.selected? db).mapM (assignment? db id items)
  | _ => none

end Statement

/-- The rows have exactly the fields that the table declares, and hold no NULL in a field that
excludes it. -/
structure Table.Fits (null : V) (t : Table) (rows : List (Row V)) : Prop where
  isSome_iff : ∀ x ∈ rows, ∀ name, (x name).isSome ↔ ∃ f ∈ t.fields, name = f.name
  notNull : ∀ x ∈ rows, ∀ f ∈ t.fields, f.nullable = false → x f.name ≠ some null

/-- The rows are as the table declares them and are told apart by the primary key if there is
one. -/
structure Table.Conforms (null : V) (t : Table) (rows : List (Row V)) : Prop extends
    t.Fits null rows where
  unique : (∃ f ∈ t.fields, f.keyOrdinal.isSome) → ∀ x ∈ rows, ∀ y ∈ rows,
    (∀ f ∈ t.fields, f.keyOrdinal.isSome → x f.name = y f.name) → x = y

/-- The database has the table, with rows that have the declared fields. -/
def Database.Fits (t : Table) : Prop :=
  ∃ rows, db.tables t.name = some rows ∧ t.Fits db.engine.null rows

/-- The database has the table, with rows as the table declares them. -/
def Database.Conforms (t : Table) : Prop :=
  ∃ rows, db.tables t.name = some rows ∧ t.Conforms db.engine.null rows

variable {db} in
omit [DecidableEq V] in
theorem Database.Conforms.fits {t : Table} (h : db.Conforms t) : db.Fits t := by
  obtain ⟨rows, hrows, hconforms⟩ := h
  exact ⟨rows, hrows, hconforms.toFits⟩

/-- The database of integers and NULL with the given tables. -/
def Database.integers (tables : String → Option (List (Row Value))) : Database Value :=
  ⟨Engine.integers, tables⟩

@[simp] theorem Database.integers_engine (tables : String → Option (List (Row Value))) :
    (integers tables).engine = Engine.integers := rfl

@[simp] theorem Database.integers_tables (tables : String → Option (List (Row Value))) :
    (integers tables).tables = tables := rfl

end SqlTree
