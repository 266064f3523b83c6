import SqlTree.Proofs.Pagination.Emulation

/-! # The queries that a transformation meets

A transformation that acts on queries meets them in the order of the walk: a query before the ones
below it, and these in the order of the clauses. What is said of a run by the queries that it meets
is said of the walk through a tree, if it passes from step to step.

Main definitions:

* `Survey`: a notion of what a computation does, by the queries that it meets.
* `Transform.Surveyed`: a transformation that meets a query and then those in its clauses.

Main statements:

* `Node.queries_eq`: the queries at and below a node, by its children.
* `Transform.Surveyed.onStatement`: it meets the queries of a statement, as the walk does.
-/

namespace SqlTree

theorem Node.queries_eq (n : Node) :
    n.queries = n.query?.toList ++ n.children.flatMap queries :=
  filterMap_preorder query? n

namespace Node

section

attribute [local simp] query? children

@[simp] theorem queries_column (c : Column) : (column c).queries = (expr c.expr).queries := by
  simp [queries_eq (.column c)]

@[simp] theorem queries_order (o : OrderItem) : (order o).queries = (expr o.expr).queries := by
  simp [queries_eq (.order o)]

@[simp] theorem queries_setItem (i : SetItem) : (setItem i).queries = (expr i.expr).queries := by
  simp [queries_eq (.setItem i)]

@[simp] theorem queries_table (t : Table) : (table t).queries = [] := by
  simp [queries_eq (.table t)]

theorem queries_join (j : Join) :
    (join j).queries = (source j.source).queries ++ (ofOption j.condition).flatMap queries := by
  simp [queries_eq (.join j)]

theorem queries_mergeOperation (o : MergeOperation) : (mergeOperation o).queries =
    (ofOption o.condition).flatMap queries ++ o.items.flatMap fun i => (setItem i).queries := by
  simp [queries_eq (.mergeOperation o), List.flatMap_map]

theorem queries_call (name : String) (t : DataType) (args : List Expr) (flags : CallFlags) :
    (expr (.call name t args flags)).queries = args.flatMap fun e => (expr e).queries := by
  simp [queries_eq (.expr (.call name t args flags)), List.flatMap_map]

theorem queries_binary (op : Operator) (l r : Expr) (p : Int) (t : DataType) (n : Bool) :
    (expr (.binary op l r p t n)).queries = (expr l).queries ++ (expr r).queries := by
  simp [queries_eq (.expr (.binary op l r p t n))]

theorem queries_raw (format : String) (p : Int) (args : List Expr) (t : DataType) :
    (expr (.raw format p args t)).queries = args.flatMap fun e => (expr e).queries := by
  simp [queries_eq (.expr (.raw format p args t)), List.flatMap_map]

theorem queries_subquery (q : Query) : (expr (.subquery q)).queries = (query q).queries := by
  simp [queries_eq (.expr (.subquery q))]

theorem queries_existsRow (q : Query) : (expr (.existsRow q)).queries = (query q).queries := by
  simp [queries_eq (.expr (.existsRow q))]

theorem queries_source (s : Source) :
    (source s).queries = (match s.origin with
      | .table _ => []
      | .query q => (query q).queries) ++ s.joins.flatMap fun j => (join j).queries := by
  cases ho : s.origin <;> simp [queries_eq (.source s), List.flatMap_map, ho]

end

theorem queries_query (q : Query) :
    (query q).queries = q :: (query q).children.flatMap queries := by
  rw [queries_eq]
  rfl

end Node

/-- A notion of what a computation does, by the queries that it meets: none if it just returns, and
those of one step before those of the next. -/
structure Survey (m : Type → Type) [Monad m] where
  Holds : {α : Type} → List Query → m α → Prop
  pure : ∀ {α : Type} (a : α), Holds [] (Pure.pure a)
  bind : ∀ {α β : Type} {l l' : List Query} {x : m α} {f : α → m β},
    Holds l x → (∀ a, Holds l' (f a)) → Holds (l ++ l') (x >>= f)

variable {m : Type → Type} [Monad m] [LawfulMonad m]

/-- The actions on the clauses of a query meet the queries in the clauses. -/
structure QueryParts.Surveyed (S : Survey m) (q : Query) (p : QueryParts m) : Prop where
  columns : S.Holds (q.columns.flatMap fun c => (Node.expr c.expr).queries) p.columns
  skip : S.Holds ((Node.ofOption q.skip).flatMap Node.queries) p.skip
  take : S.Holds ((Node.ofOption q.take).flatMap Node.queries) p.take
  sources : S.Holds (q.sources.flatMap fun s => (Node.source s).queries) p.sources
  filter : S.Holds ((Node.ofOption q.filter).flatMap Node.queries) p.filter
  groupBy : S.Holds (q.groupBy.flatMap fun e => (Node.expr e).queries) p.groupBy
  having : S.Holds ((Node.ofOption q.having).flatMap Node.queries) p.having
  orderBy : S.Holds (q.orderBy.flatMap fun o => (Node.expr o.expr).queries) p.orderBy

/-- The transformation meets no query at an expression, and at a query first the query itself and
then those in its clauses. -/
structure Transform.Surveyed (S : Survey m) (t : Transform m) : Prop where
  expr : ∀ e, S.Holds [] (t.expr e)
  query : ∀ {q : Query} {p : QueryParts m}, p.Surveyed S q →
    S.Holds (Node.query q).queries (t.query q p)

namespace Survey

variable {S : Survey m} {α β : Type} {l : List Query}

omit [LawfulMonad m] in
theorem map {x : m α} (h : S.Holds l x) (f : α → β) :
    S.Holds l (x >>= fun a => Pure.pure (f a)) := by
  simpa using S.bind h fun a => S.pure (f a)

theorem mapM {g : α → List Query} {f : α → m β} {xs : List α} (h : ∀ x ∈ xs, S.Holds (g x) (f x)) :
    S.Holds (xs.flatMap g) (xs.mapM f) := by
  induction xs with
  | nil => exact S.pure []
  | cons x xs ih =>
    rw [List.mapM_cons, List.flatMap_cons]
    refine S.bind (h x List.mem_cons_self) fun y => S.map ?_ _
    exact ih fun z hz => h z (List.mem_cons_of_mem x hz)

end Survey

omit [LawfulMonad m] in
theorem QueryParts.Surveyed.rebuild {S : Survey m} {q : Query} {p : QueryParts m}
    (h : p.Surveyed S q) :
    S.Holds ((Node.query q).children.flatMap Node.queries) (p.rebuild q) := by
  simp only [Node.children, List.flatMap_append, List.flatMap_map, Node.queries_column,
    Node.queries_order, List.append_assoc]
  exact S.bind h.columns fun cs => S.bind h.skip fun sk => S.bind h.take fun tk =>
    S.bind h.sources fun ss => S.bind h.filter fun f => S.bind h.groupBy fun g =>
      S.bind h.having fun v => S.map h.orderBy _

namespace Transform.Surveyed

variable {S : Survey m} {t : Transform m}

omit [LawfulMonad m] in
theorem optional {o : Option Expr}
    (h : ∀ e ∈ o, S.Holds (Node.expr e).queries (e.transform t)) :
    S.Holds ((Node.ofOption o).flatMap Node.queries) (transformOptional t o) := by
  cases o with
  | none => exact S.pure none
  | some e =>
    have hqueries : (Node.ofOption (some e)).flatMap Node.queries = (Node.expr e).queries := by
      simp [Node.ofOption]
    rw [hqueries]
    exact S.map (h e rfl) some

theorem exprs {es : List Expr} (h : ∀ e ∈ es, S.Holds (Node.expr e).queries (e.transform t)) :
    S.Holds (es.flatMap fun e => (Node.expr e).queries) (transformExprs t es) := by
  rw [transformExprs_eq_mapM]
  exact S.mapM h

theorem parts {q : Query} (h : q.Each (fun e => S.Holds (Node.expr e).queries (e.transform t))
    fun s => S.Holds (Node.source s).queries (s.transform t)) :
    QueryParts.Surveyed S q
      { columns := transformColumns t q.columns
        skip := transformOptional t q.skip
        take := transformOptional t q.take
        sources := transformSources t q.sources
        filter := transformOptional t q.filter
        groupBy := transformExprs t q.groupBy
        having := transformOptional t q.having
        orderBy := transformOrder t q.orderBy } where
  columns := by
    rw [transformColumns_eq_mapM]
    exact S.mapM fun c hc => S.map (h.columns c hc) _
  skip := optional h.skip
  take := optional h.take
  sources := by
    rw [transformSources_eq_mapM]
    exact S.mapM h.sources
  filter := optional h.filter
  groupBy := exprs h.groupBy
  having := optional h.having
  orderBy := by
    rw [transformOrder_eq_mapM]
    exact S.mapM fun o ho => S.map (h.orderBy o ho) _

theorem source {s : Source} (h : s.Each (fun e => S.Holds (Node.expr e).queries (e.transform t))
    (fun q => S.Holds (Node.query q).queries (q.transform t))
    fun s => S.Holds (Node.source s).queries (s.transform t)) :
    S.Holds (Node.source s).queries (s.transform t) := by
  have hjoins : S.Holds (s.joins.flatMap fun j => (Node.join j).queries)
      (transformJoins t s.joins) := by
    rw [transformJoins_eq_mapM]
    refine S.mapM fun j hj => ?_
    rw [Node.queries_join]
    exact S.bind (h.joins j hj) fun source => S.map (optional (h.conditions j hj)) _
  rw [Source.transform_eq, Node.queries_source]
  refine S.bind ?_ fun origin => S.map hjoins _
  cases ho : s.origin with
  | table table => exact S.pure _
  | query q => exact S.map (h.origin q ho) _

theorem closed (h : t.Surveyed S) :
    Tree.Closed (fun e => S.Holds (Node.expr e).queries (e.transform t))
      (fun q => S.Holds (Node.query q).queries (q.transform t))
      (fun s => S.Holds (Node.source s).queries (s.transform t)) where
  value l ty := h.expr (.value l ty)
  parameter p := h.expr (.parameter p)
  field f := h.expr (.field f)
  column c := h.expr (.column c)
  call name ty args flags ih := by
    rw [Node.queries_call, ← List.append_nil (args.flatMap _)]
    exact S.bind (exprs ih) fun args => h.expr (.call name ty args flags)
  binary op l r p ty n hl hr := by
    rw [Node.queries_binary, ← List.append_nil (Node.expr r).queries]
    exact S.bind hl fun l => S.bind hr fun r => h.expr (.binary op l r p ty n)
  raw format p args ty ih := by
    rw [Node.queries_raw, ← List.append_nil (args.flatMap _)]
    exact S.bind (exprs ih) fun args => h.expr (.raw format p args ty)
  typeName ty := h.expr (.typeName ty)
  subquery q ih := by
    rw [Node.queries_subquery, ← List.append_nil (Node.query q).queries]
    exact S.bind ih fun q => h.expr (.subquery q)
  existsRow q ih := by
    rw [Node.queries_existsRow, ← List.append_nil (Node.query q).queries]
    exact S.bind ih fun q => h.expr (.existsRow q)
  query q ih := by
    rw [Query.transform_eq]
    exact h.query (parts ih)
  source s ih := source ih

theorem onItems (h : t.Surveyed S) (items : List SetItem) :
    S.Holds (items.flatMap fun i => (Node.setItem i).queries)
      (items.mapM (SetItem.transform t)) := by
  refine S.mapM fun i _ => ?_
  rw [Node.queries_setItem]
  exact S.map (h.closed.onExpr i.expr) _

theorem onOperations (h : t.Surveyed S) (operations : List MergeOperation) :
    S.Holds (operations.flatMap fun o => (Node.mergeOperation o).queries)
      (operations.mapM (MergeOperation.transform t)) := by
  refine S.mapM fun o _ => ?_
  rw [Node.queries_mergeOperation]
  exact S.bind (optional fun e _ => h.closed.onExpr e) fun condition => S.map (h.onItems o.items) _

/-- The transformation meets the queries of a statement in the order of the walk. -/
theorem onStatement (h : t.Surveyed S) (s : Statement) :
    S.Holds (Node.statement s).queries (s.transform t) := by
  rw [Node.queries_eq]
  simp only [Node.query?, Option.toList_none, List.nil_append]
  cases s with
  | select q =>
    simp only [Node.children, List.flatMap_singleton]
    exact S.map (h.closed.onQuery q) _
  | insert into items q =>
    simp only [Node.children, List.flatMap_cons, List.flatMap_append, List.flatMap_map,
      List.flatMap_nil, List.append_nil, Node.queries_table, List.nil_append]
    exact S.bind (h.onItems items) fun items => S.map (h.closed.onQuery q) _
  | update target items q =>
    simp only [Node.children, List.flatMap_append, List.flatMap_map, List.flatMap_singleton]
    exact S.bind (h.onItems items) fun items => S.map (h.closed.onQuery q) _
  | delete target q =>
    simp only [Node.children, List.flatMap_singleton]
    exact S.map (h.closed.onQuery q) _
  | merge target q on operations =>
    simp only [Node.children, List.flatMap_cons, List.flatMap_append, List.flatMap_map]
    exact S.bind (h.closed.onSource target) fun target => S.bind (h.closed.onQuery q) fun q =>
      S.bind (optional fun e _ => h.closed.onExpr e) fun on => S.map (h.onOperations operations) _
  | createTable table => exact S.pure _
  | dropTable table ifExists => exact S.pure _

end Transform.Surveyed

end SqlTree
