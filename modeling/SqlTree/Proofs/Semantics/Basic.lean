import SqlTree.Proofs.Semantics.Engine
import SqlTree.Statement

/-! # What expressions and queries mean

Expressions are evaluated in an environment, which holds a row for each source in scope and the
values of a row for each derived table in scope. A query runs through the environments that its
sources and its filter leave over. A query with groups brings these together by the values of its
group keys and runs through the groups, where an environment also holds the rows of the group, over
which aggregates are taken. Evaluation fails where a name is not bound, where the engine has no
result, where a scalar subquery has several rows, and where an aggregate stands outside of a group.

Main definitions:

* `Database`, `Frame`, `Env`: the data, the rows at hand, and the group that they stand for.
* `Side`: one side of a join, with `Side.join` for all kinds of joins.
* `Scan`: the meaning of a query, clause by clause; `Scan.bindings`, `Scan.units`, `Scan.rows`,
  `Scan.single?`, `Scan.hasRow`: what it yields.
* `Expr.aggregates`, `Query.isGrouped`: aggregates, and the queries that they make run over groups.
* `Expr.eval`, `Query.scan`, `Source.side`: the evaluation.
-/

namespace SqlTree

/-- The values of a row by the names of its fields. -/
abbrev Row (V : Type) := String → Option V

/-- The row with the given fields. -/
def Row.ofFields {V : Type} (fields : List (String × V)) : Row V := fun name => fields.lookup name

structure Database (V : Type) where
  engine : Engine V
  /-- The rows of the tables by name. -/
  tables : String → Option (List (Row V))

/-- The rows at hand: those of sources over tables and those of derived tables. -/
structure Frame (V : Type) where
  source : SourceId → Option (Row V) := fun _ => none
  derived : QueryId → Option (List V) := fun _ => none

/-- The rows at hand, and the rows of the group that they stand for, if there is one. -/
structure Env (V : Type) extends Frame V where
  group : Option (List (Frame V)) := none

namespace Frame

variable {V : Type}

def bindSource (f : Frame V) (id : SourceId) (r : Row V) : Frame V :=
  { f with source := fun i => if i = id then some r else f.source i }

def bindDerived (f : Frame V) (id : QueryId) (vs : List V) : Frame V :=
  { f with derived := fun i => if i = id then some vs else f.derived i }

theorem source_bindSource (f : Frame V) (id i : SourceId) (r : Row V) :
    (f.bindSource id r).source i = if i = id then some r else f.source i := rfl

theorem derived_bindDerived (f : Frame V) (id i : QueryId) (vs : List V) :
    (f.bindDerived id vs).derived i = if i = id then some vs else f.derived i := rfl

end Frame

namespace Env

variable {V : Type}

/-- The environment in which no name is bound. -/
def empty : Env V := {}

def bindSource (env : Env V) (id : SourceId) (r : Row V) : Env V :=
  { env with toFrame := env.toFrame.bindSource id r }

def bindDerived (env : Env V) (id : QueryId) (vs : List V) : Env V :=
  { env with toFrame := env.toFrame.bindDerived id vs }

/-- The environment of a group. It is at the first of the members, or where there is none at the
environment around the query. -/
def ofMembers (env : Env V) (members : List (Env V)) : Env V :=
  { members.head?.getD env with group := some (members.map toFrame) }

@[simp] theorem source_empty (id : SourceId) : (empty : Env V).source id = none := rfl

@[simp] theorem derived_empty (id : QueryId) : (empty : Env V).derived id = none := rfl

@[simp] theorem group_empty : (empty : Env V).group = none := rfl

theorem source_bindSource (env : Env V) (id i : SourceId) (r : Row V) :
    (env.bindSource id r).source i = if i = id then some r else env.source i := rfl

@[simp] theorem source_bindSource_self (env : Env V) (id : SourceId) (r : Row V) :
    (env.bindSource id r).source id = some r := if_pos rfl

@[simp] theorem derived_bindSource (env : Env V) (id : SourceId) (r : Row V) :
    (env.bindSource id r).derived = env.derived := rfl

@[simp] theorem group_bindSource (env : Env V) (id : SourceId) (r : Row V) :
    (env.bindSource id r).group = env.group := rfl

theorem derived_bindDerived (env : Env V) (id i : QueryId) (vs : List V) :
    (env.bindDerived id vs).derived i = if i = id then some vs else env.derived i := rfl

@[simp] theorem derived_bindDerived_self (env : Env V) (id : QueryId) (vs : List V) :
    (env.bindDerived id vs).derived id = some vs := if_pos rfl

@[simp] theorem source_bindDerived (env : Env V) (id : QueryId) (vs : List V) :
    (env.bindDerived id vs).source = env.source := rfl

@[simp] theorem group_bindDerived (env : Env V) (id : QueryId) (vs : List V) :
    (env.bindDerived id vs).group = env.group := rfl

end Env

/-- The first of the elements that `f` maps to each value. -/
def distinctOn {α β : Type} [DecidableEq β] (f : α → β) : List α → List α
  | [] => []
  | x :: xs => x :: (distinctOn f xs).filter fun y => f y ≠ f x

/-- The elements in classes with the same key, in the order of their first elements. -/
def classes {α κ : Type} [DecidableEq κ] (keyed : List (κ × α)) : List (List α) :=
  (distinctOn (·.1) keyed).map fun x => (keyed.filter fun y => y.1 = x.1).map (·.2)

/-- The elements after the first `skip`, at most `take` of them. -/
def page {α : Type} (skip : Nat) (take : Option Nat) (xs : List α) : List α :=
  match take with
  | none => xs.drop skip
  | some n => (xs.drop skip).take n

@[simp] theorem page_zero_none {α : Type} (xs : List α) : page 0 none xs = xs := rfl

theorem page_zero_eq_nil {α : Type} {n : Option Nat} {xs : List α} :
    page 0 n xs = [] ↔ n = some 0 ∨ xs = [] := by
  cases n <;> simp [page]

/-- The environment by itself or nothing, as a condition says. -/
def Env.keepIf {V : Type} (env : Env V) (condition : Option Bool) : Option (List (Env V)) :=
  condition.map fun b => if b then [env] else []

theorem flatMapM_keepIf {V : Type} {bs : List (Env V)} {holds : Env V → Option Bool}
    {p : Env V → Bool} (h : ∀ b ∈ bs, holds b = some (p b)) :
    (bs.flatMapM fun b => b.keepIf (holds b)) = some (bs.filter p) := by
  induction bs with
  | nil => rfl
  | cons b bs ih =>
    have hfirst : b.keepIf (holds b) = some (if p b then [b] else []) := by
      rw [h b List.mem_cons_self]
      rfl
    rw [List.flatMapM_cons, hfirst, ih fun c hc => h c (List.mem_cons_of_mem b hc)]
    cases hp : p b <;> simp [hp]

/-! Joins. -/

/-- One side of a join: the environments with its rows, and the one with NULLs in their place. -/
structure Side (V : Type) where
  bind : Env V → Option (List (Env V))
  nulls : Env V → Env V

namespace Side

variable {V : Type} (a b : Side V) (holds : Env V → Option Bool) (env : Env V)

/-- The environments that meet a condition. -/
def kept : Option (List (Env V)) := do (← a.bind env).flatMapM fun e => e.keepIf (holds e)

/-- The rows of the first side with those of the second one that meet the condition. -/
def matched : Option (List (Env V)) := do (← a.bind env).flatMapM fun e => b.kept holds e

/-- Where the second side has no row that meets the condition, the rows of the first one with
NULLs. -/
def unmatched : Option (List (Env V)) := do
  (← a.bind env).flatMapM fun e => do
    return if (← b.kept holds e).isEmpty then [b.nulls e] else []

/-- The rows of the first side with those of the second one that meet the condition, or with NULLs
if there are none. -/
def extended : Option (List (Env V)) := do
  (← a.bind env).flatMapM fun e => do
    let es ← b.kept holds e
    return if es.isEmpty then [b.nulls e] else es

/-- The sides joined. An apply join is one whose second side may read the rows of the first one,
which all joins but right and full ones permit here. -/
def join (kind : JoinKind) : Side V where
  bind env :=
    match kind with
    | .inner | .crossApply => a.matched b holds env
    | .left | .outerApply => a.extended b holds env
    | .right => b.extended a holds env
    | .full => do return (← a.extended b holds env) ++ (← b.unmatched a holds env)
  nulls env := b.nulls (a.nulls env)

end Side

/-! Queries. -/

/-- The meaning of a query, clause by clause. -/
structure Scan (V : Type) where
  bind : Env V → Option (List (Env V))
  holds : Env V → Option Bool
  /-- The rows are brought together in groups. -/
  grouped : Bool
  /-- There is one group, even if there are no rows. -/
  whole : Bool
  groupKeys : Env V → Option (List V)
  /-- Whether a group is kept. -/
  keeps : Env V → Option Bool
  /-- The projected values at an environment, given all environments and its place among them. -/
  project : List (Env V) → Nat → Env V → Option (List V)
  /-- The value of the first column, if there is no other environment. -/
  first : Env V → Option V
  keys : Env V → Option (List V)
  descending : List Bool
  distinct : Bool
  /-- The rows to leave out and the most rows to return. -/
  bounds : Env V → Option (Nat × Option Nat)
  bounded : Bool

namespace Scan

variable {V : Type} [DecidableEq V] (e : Engine V) (c : Scan V)

/-- The environments that the sources yield and the filter keeps. -/
def bindings (env : Env V) : Option (List (Env V)) := do
  (← c.bind env).flatMapM fun b => b.keepIf (c.holds b)

/-- The groups that environments are brought together in. -/
def groups (envs : List (Env V)) : Option (List (List (Env V))) := do
  let keyed ← envs.mapM fun b => do return (← c.groupKeys b, b)
  return if c.whole then [envs] else classes keyed

/-- The environments that the query runs through: those of its rows, or those of its groups. -/
def units (env : Env V) : Option (List (Env V)) := do
  let envs ← c.bindings env
  if c.grouped then
    (← c.groups envs).flatMapM fun members =>
      (env.ofMembers members).keepIf (c.keeps (env.ofMembers members))
  else return envs

/-- The projected values and the keys at each environment. -/
def entries (envs : List (Env V)) : Option (List (List V × List V)) :=
  envs.zipIdx.mapM fun b => do return (← c.project envs b.2 b.1, ← c.keys b.1)

/-- The entries without repeated rows if they are to be distinct, sorted by their keys. -/
def arrange (entries : List (List V × List V)) : List (List V × List V) :=
  (if c.distinct then distinctOn (·.1) entries else entries).mergeSort fun a b =>
    e.keysLe c.descending a.2 b.2

/-- The rows of the query: filter, group, project, remove repeated rows, sort, and cut to the
bounds. -/
def rows (env : Env V) : Option (List (List V)) := do
  let entries ← c.entries (← c.units env)
  let (skip, take) ← c.bounds env
  return (page skip take (c.arrange e entries)).map (·.1)

/-- Whether the query has a row. Without bounds this depends neither on columns nor on order. -/
def hasRow (env : Env V) : Option Bool :=
  if c.bounded then (c.rows e env).map fun rows => !rows.isEmpty
  else (c.units env).map fun envs => !envs.isEmpty

/-- The only value of the query, or NULL if it has no row. -/
def single? (env : Env V) : Option V := do
  if c.bounded || c.distinct then
    match ← c.rows e env with
    | [] => return e.null
    | [values] => values.head?
    | _ => none
  else
    match ← c.units env with
    | [] => return e.null
    | [b] => c.first b
    | _ => none

variable {c} in
/-- Without groups a query runs through the environments of its rows. -/
theorem units_of_ungrouped (h : c.grouped = false) (env : Env V) :
    c.units env = c.bindings env := by
  simp [units, h]

end Scan

mutual

/-- The expression has an aggregate, apart from those in subqueries. -/
def Expr.aggregates : Expr → Bool
  | .call _ _ args flags => flags.aggregate || anyAggregates args
  | .binary _ left right _ _ _ => left.aggregates || right.aggregates
  | .raw _ _ args _ => anyAggregates args
  | _ => false

def anyAggregates : List Expr → Bool
  | [] => false
  | e :: es => e.aggregates || anyAggregates es

end

/-- The query runs over groups: it has group keys, a condition on groups, or an aggregate to project
or to sort by. -/
def Query.isGrouped (q : Query) : Bool :=
  !q.groupBy.isEmpty || q.having.isSome || q.columns.any (·.expr.aggregates) ||
    q.orderBy.any (·.expr.aggregates)

variable {V : Type} [DecidableEq V] (db : Database V)

mutual

def Expr.eval (env : Env V) : Expr → Option V
  | .value l _ => db.engine.literal l
  | .parameter p => db.engine.literal p.value
  | .field f => do (← env.source f.source) f.name
  | .column c => do (← env.derived c.query)[c.index]?
  | .call name _ args flags =>
    if flags.aggregate then do
      -- The arguments belong to the rows of the group and not to the group itself.
      let rows ← (← env.group).mapM fun member => evalExprs { toFrame := member } args
      db.engine.aggregate name rows
    else do db.engine.call name (← evalExprs env args)
  | .binary op left right _ _ _ => do
    db.engine.operator op (← left.eval env) (← right.eval env)
  | .raw format _ args _ =>
    if (rowNumberKeys? format).isSome then none
    else do db.engine.text format (← evalExprs env args)
  | .typeName t => db.engine.typeName t
  | .subquery q => q.scan.single? db.engine env
  | .existsRow q => (q.scan.hasRow db.engine env).map db.engine.boolean

def evalExprs (env : Env V) : List Expr → Option (List V)
  | [] => some []
  | e :: es => do return (← e.eval env) :: (← evalExprs env es)

/-- The arguments of engine text. -/
def Expr.evalArgs (env : Env V) : Expr → Option (List V)
  | .raw _ _ args _ => evalExprs env args
  | _ => none

/-- The value of a column at the environment `env`, which has the place `i` among `peers`. A row
number is counted over all of them. -/
def Column.eval (peers : List (Env V)) (i : Nat) (env : Env V) : Column → Option V
  | ⟨e, _⟩ =>
    match e.rowNumberKeys? with
    | none => e.eval env
    | some keys => do
      let values ← peers.mapM fun peer => do
        let args ← e.evalArgs peer
        keys.mapM fun k => args[k.1]?
      return db.engine.number (db.engine.rank (keys.map (·.2)) values i + 1)

def evalColumns (peers : List (Env V)) (i : Nat) (env : Env V) : List Column → Option (List V)
  | [] => some []
  | c :: cs => do return (← c.eval peers i env) :: (← evalColumns peers i env cs)

def evalFirst (env : Env V) : List Column → Option V
  | [] => none
  | c :: _ => c.eval [env] 0 env

/-- Whether an optional condition is true. -/
def evalCondition (env : Env V) : Option Expr → Option Bool
  | none => some true
  | some e => (e.eval env).map db.engine.isTrue

def evalSkip (env : Env V) : Option Expr → Option Nat
  | none => some 0
  | some e => do db.engine.count? (← e.eval env)

def evalTake (env : Env V) : Option Expr → Option (Option Nat)
  | none => some none
  | some e => do return some (← db.engine.count? (← e.eval env))

def OrderItem.eval (env : Env V) : OrderItem → Option V
  | ⟨e, _⟩ => e.eval env

def evalOrder (env : Env V) : List OrderItem → Option (List V)
  | [] => some []
  | o :: os => do return (← o.eval env) :: (← evalOrder env os)

def Query.scan : Query → Scan V
  | ⟨_, columns, distinct, skip, take, sources, filter, groupBy, having, orderBy⟩ =>
    { bind := fun env => bindSources env sources
      holds := fun env => evalCondition env filter
      grouped := !groupBy.isEmpty || having.isSome || columns.any (·.expr.aggregates) ||
        orderBy.any (·.expr.aggregates)
      whole := groupBy.isEmpty
      groupKeys := fun env => evalExprs env groupBy
      keeps := fun env => evalCondition env having
      project := fun peers i env => evalColumns peers i env columns
      first := fun env => evalFirst env columns
      keys := fun env => evalOrder env orderBy
      descending := orderBy.map (·.desc)
      distinct
      bounds := fun env => do return (← evalSkip env skip, ← evalTake env take)
      bounded := skip.isSome || take.isSome }

/-- The environments with the rows of the sources. -/
def bindSources (env : Env V) : List Source → Option (List (Env V))
  | [] => some [env]
  | s :: ss => do (← s.side.bind env).flatMapM fun env => bindSources env ss

/-- The rows of the source and of those joined to it. -/
def Source.side : Source → Side V
  | ⟨id, origin, _, joins⟩ => joinSides (origin.side id) joins

def Origin.side (id : SourceId) : Origin → Side V
  | .table t =>
    { bind := fun env => (db.tables t.name).map fun rows => rows.map (env.bindSource id)
      nulls := fun env => env.bindSource id fun _ => some db.engine.null }
  | .query q =>
    { bind := fun env => (q.scan.rows db.engine env).map fun rows => rows.map (env.bindDerived q.id)
      nulls := fun env =>
        env.bindDerived q.id (List.replicate q.columns.length db.engine.null) }

/-- What is joined so far, joined to a further source. -/
def Join.side (left : Side V) : Join → Side V
  | ⟨kind, source, condition⟩ =>
    left.join source.side (fun env => evalCondition env condition) kind

def joinSides (left : Side V) : List Join → Side V
  | [] => left
  | j :: js => joinSides (j.side left) js

end

/-! The evaluation without lists. -/

theorem anyAggregates_eq_any (es : List Expr) : anyAggregates es = es.any Expr.aggregates := by
  induction es with
  | nil => rfl
  | cons e es ih => simp [anyAggregates, ih]

section Equations

variable (env : Env V)

theorem evalExprs_eq_mapM (es : List Expr) : evalExprs db env es = es.mapM (Expr.eval db env) := by
  induction es with
  | nil => rfl
  | cons e es ih => simp [evalExprs, ih]

theorem evalColumns_eq_mapM (peers : List (Env V)) (i : Nat) (cs : List Column) :
    evalColumns db peers i env cs = cs.mapM (Column.eval db peers i env) := by
  induction cs with
  | nil => rfl
  | cons c cs ih => simp [evalColumns, ih]

theorem evalOrder_eq_mapM (os : List OrderItem) :
    evalOrder db env os = os.mapM fun o => o.expr.eval db env := by
  induction os with
  | nil => rfl
  | cons o os ih =>
    cases o
    simp [evalOrder, OrderItem.eval, ih]

theorem Query.scan_eq (q : Query) :
    q.scan db = {
      bind := fun env => bindSources db env q.sources
      holds := fun env => evalCondition db env q.filter
      grouped := q.isGrouped
      whole := q.groupBy.isEmpty
      groupKeys := fun env => evalExprs db env q.groupBy
      keeps := fun env => evalCondition db env q.having
      project := fun peers i env => evalColumns db peers i env q.columns
      first := fun env => evalFirst db env q.columns
      keys := fun env => evalOrder db env q.orderBy
      descending := q.orderBy.map (·.desc)
      distinct := q.distinct
      bounds := fun env => do return (← evalSkip db env q.skip, ← evalTake db env q.take)
      bounded := q.skip.isSome || q.take.isSome } := by
  cases q
  rfl

/-- The environments of a query depend on its sources and its filter. -/
theorem Query.bindings_eq (q : Query) :
    (q.scan db).bindings env = (bindSources db env q.sources >>= fun bs =>
      bs.flatMapM fun b => b.keepIf (evalCondition db b q.filter)) := by
  rw [scan_eq]
  rfl

theorem Query.units_of_not_isGrouped {q : Query} (h : q.isGrouped = false) :
    (q.scan db).units env = (q.scan db).bindings env :=
  Scan.units_of_ungrouped (by rw [scan_eq, h]) env

theorem Source.side_eq (s : Source) :
    s.side db = joinSides db (s.origin.side db s.id) s.joins := by
  cases s
  rfl

theorem Join.side_eq (left : Side V) (j : Join) :
    j.side db left =
      left.join (j.source.side db) (fun env => evalCondition db env j.condition) j.kind := by
  cases j
  rfl

theorem Column.eval_of_rowNumberKeys? {c : Column} (h : c.expr.rowNumberKeys? = none)
    (peers : List (Env V)) (i : Nat) : c.eval db peers i env = c.expr.eval db env := by
  cases c
  simp only at h
  simp [Column.eval, h]

variable {db env} in
/-- Row numbers have no value of their own. -/
theorem Expr.rowNumberKeys?_eq_none {e : Expr} {v : V} (h : e.eval db env = some v) :
    e.rowNumberKeys? = none := by
  cases e with
  | raw format p args t =>
    rw [Expr.eval] at h
    split at h
    · cases h
    · rename_i hkeys
      simpa [Expr.rowNumberKeys?] using hkeys
  | _ => rfl

theorem Column.eval_rowNumber {c : Column} {keys : List (Nat × Bool)}
    (h : c.expr.rowNumberKeys? = some keys) (peers : List (Env V)) (i : Nat) :
    c.eval db peers i env =
      (peers.mapM fun peer => c.expr.evalArgs db peer >>= fun args =>
        keys.mapM fun k => args[k.1]?).map fun values =>
          db.engine.number (db.engine.rank (keys.map (·.2)) values i + 1) := by
  cases c
  simp only at h
  simp only [Column.eval, h, Option.map_eq_bind]
  rfl

/-- Queries with the same sources and the same filter lead to the same environments. -/
theorem Query.bindings_congr {q q' : Query} (hsources : q'.sources = q.sources)
    (hfilter : q'.filter = q.filter) :
    (q'.scan db).bindings env = (q.scan db).bindings env := by
  rw [bindings_eq, bindings_eq, hsources, hfilter]

/-- If the queries bring these together in the same groups, they run through the same
environments. -/
theorem Query.units_congr {q q' : Query} (hsources : q'.sources = q.sources)
    (hfilter : q'.filter = q.filter) (hgroupBy : q'.groupBy = q.groupBy)
    (hhaving : q'.having = q.having) (hgrouped : q'.isGrouped = q.isGrouped) :
    (q'.scan db).units env = (q.scan db).units env := by
  unfold Scan.units Scan.groups
  rw [bindings_congr db env hsources hfilter, scan_eq, scan_eq, hgroupBy, hhaving, hgrouped]

theorem Query.bounds_of_unbounded {q : Query} (hskip : q.skip = none) (htake : q.take = none) :
    (q.scan db).bounds env = some (0, none) := by
  simp [scan_eq, evalSkip, evalTake, hskip, htake]

end Equations

/-! Conjunctions. -/

/-- The condition `e`, after the condition `o` if there is one. -/
def conjoin (o : Option Expr) (e : Expr) : Option Expr :=
  some (match o with
    | some old => .and old e
    | none => e)

theorem Query.foldl_addFilter (es : List Expr) (q : Query) :
    es.foldl addFilter q = { q with filter := es.foldl conjoin q.filter } := by
  induction es generalizing q with
  | nil => cases q; rfl
  | cons e es ih =>
    rw [List.foldl_cons, ih, List.foldl_cons]
    unfold addFilter conjoin
    cases q.filter <;> rfl

end SqlTree
