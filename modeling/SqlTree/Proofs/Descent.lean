import SqlTree.Lowering.RowNumber
import SqlTree.Proofs.Invariant
import SqlTree.Transform.Hooks

/-! # Transformations from the top down

A transformation may act on a query before its clauses. A walk with hooks then goes on into the
query that was made, which can be larger than the one before and hold parts of it twice. The walk
ends if the calls of the hook are well-founded: what is called for lies below what a call returned.

Main definitions:

* `Transform.TopDown`: a transformation that acts on a query first, and then on the clauses of the
  query that it made.
* `Hooks.descending`: the hooks of the walk, which keep a list of their calls.
* `Query.CalledFor`: one call of a hook follows from another one.
* `Agrees`: the walk returns, and returns what a computation returns.

Main statements:

* `Transform.TopDown.onStatement`: if the calls are well-founded, the walk returns what the
  transformation returns, whatever the limit from some limit on.
-/

namespace SqlTree

section Clauses

variable {m : Type → Type} [Monad m]

/-- The clauses of a query as they stand. -/
def QueryParts.unchanged (q : Query) : QueryParts m where
  columns := pure q.columns
  skip := pure q.skip
  take := pure q.take
  sources := pure q.sources
  filter := pure q.filter
  groupBy := pure q.groupBy
  having := pure q.having
  orderBy := pure q.orderBy

/-- The transformed clauses of a query. -/
def QueryParts.transformed (t : Transform m) (q : Query) : QueryParts m where
  columns := transformColumns t q.columns
  skip := transformOptional t q.skip
  take := transformOptional t q.take
  sources := transformSources t q.sources
  filter := transformOptional t q.filter
  groupBy := transformExprs t q.groupBy
  having := transformOptional t q.having
  orderBy := transformOrder t q.orderBy

/-- What the transformation makes of a query before it turns to the clauses. -/
def Transform.atQuery (t : Transform m) (q : Query) : m Query := t.query q (.unchanged q)

/-- The query with its clauses transformed where they stand. -/
def Query.descend (t : Transform m) (q : Query) : m Query := (QueryParts.transformed t q).rebuild q

/-- The transformation leaves expressions alone. It acts on a query as it stands, and then on the
clauses of the query that it made. -/
structure Transform.TopDown (t : Transform m) : Prop where
  expr : ∀ e, t.expr e = pure e
  query : ∀ q, t.query q (.transformed t q) = t.atQuery q >>= Query.descend t

end Clauses

/-! The walk. -/

/-- A computation that takes new ids, can fail, and keeps a list of queries also if it fails. -/
abbrev Recorded := StateT Ids (ExceptT Error (StateM (List Query)))

namespace Recorded

/-- Add a query to the list. -/
def note (q : Query) : Recorded Unit := liftM (modify (· ++ [q]) : StateM (List Query) PUnit)

def ofNumbering {α : Type} (x : Numbering α) : Recorded α :=
  fun ids => ExceptT.mk (pure (x.run ids))

/-- The result, and the list after `calls`. -/
def outcome {α : Type} (x : Recorded α) (ids : Ids) (calls : List Query) :
    Except Error (α × Ids) × List Query :=
  (x.run ids).run.run calls

theorem outcome_bind {α β : Type} (x : Recorded α) (f : α → Recorded β) (ids : Ids)
    (calls : List Query) :
    (x >>= f).outcome ids calls =
      match x.outcome ids calls with
      | (.ok (a, ids'), calls') => (f a).outcome ids' calls'
      | (.error e, calls') => (.error e, calls') := by
  unfold outcome
  rw [StateT.run_bind, ExceptT.run_bind, StateT.run_bind]
  rcases (x.run ids).run.run calls with ⟨_ | ⟨a, ids'⟩, calls'⟩ <;> rfl

end Recorded

/-- The hooks that call `f` with each query before its clauses. -/
def Hooks.descending (f : Query → Numbering Query) : Hooks Recorded where
  enterQuery q := do
    Recorded.note q
    return .descend (← .ofNumbering (f q))

/-- The result of the walk over a statement that calls `f` with its queries, and the calls. -/
def Statement.walked (f : Query → Numbering Query) (limit : Nat) (s : Statement) :
    Except Error Statement × List Query :=
  (((Hooks.descending f).onStatement limit s).run' (.after (.statement s))).run.run []

/-- The call with `q` can lead to one with `q'`: this query lies below one that the first call
returns. -/
def Query.CalledFor (f : Query → Numbering Query) (q' q : Query) : Prop :=
  ∃ ids r ids', (f q).run ids = .ok (r, ids') ∧
    ∃ c ∈ (Node.query r).children, .query q' ∈ c.preorder

/-! Calls that end. -/

/-- The property of all queries below a query. -/
abbrev Query.EachBelow (P : Query → Prop) (q : Query) : Prop :=
  q.Each (Expr.EachQuery P) (Source.EachQuery P)

/-- A property of queries that passes from all queries below a query to the query. -/
theorem Query.belowInduction {P : Query → Prop} (h : ∀ q : Query, q.EachBelow P → P q) (q : Query) :
    P q := by
  have hclosed : Tree.Closed (Expr.EachQuery P) (Query.EachQuery P) (Source.EachQuery P) :=
    { value := Expr.eachQuery_value
      parameter := Expr.eachQuery_parameter
      field := Expr.eachQuery_field
      column := Expr.eachQuery_column
      call := fun name t args flags => (Expr.eachQuery_call name t args flags).2
      binary := fun op l r p t n hl hr => (Expr.eachQuery_binary op l r p t n).2 ⟨hl, hr⟩
      raw := fun format p args t => (Expr.eachQuery_raw format p args t).2
      typeName := Expr.eachQuery_typeName
      subquery := fun q => (Expr.eachQuery_subquery q).2
      existsRow := fun q => (Expr.eachQuery_existsRow q).2
      query := fun q hq => (Query.eachQuery_iff q).2 ⟨h q hq, hq⟩
      source := fun s => (Source.eachQuery_iff s).2 }
  exact (hclosed.onQuery q).self q rfl

/-- The calls that follow from one end if those do that are for queries below a result. -/
theorem Query.acc_calledFor {f : Query → Numbering Query} {q : Query}
    (h : ∀ ids r ids', (f q).run ids = .ok (r, ids') → r.EachBelow (Acc (CalledFor f))) :
    Acc (CalledFor f) q := by
  refine Acc.intro q ?_
  rintro q' ⟨ids, r, ids', hrun, c, hc, hq'⟩
  have hchildren := (Node.forall_children_query (Node.IfQuery.ofTrees _) r).2 (h ids r ids' hrun)
  exact hchildren c hc _ hq' q' rfl

variable {m : Type → Type} [MonadLiftT m Numbering]

/-- From some limit on, the walk returns what the computation returns, and its calls are the
same. -/
def Agrees {α : Type} (x : m α) (walk : Nat → Recorded α) : Prop :=
  ∀ ids calls, ∃ calls' bound, ∀ limit, bound ≤ limit →
    (walk limit).outcome ids calls = ((liftM x : Numbering α).run ids, calls')

namespace Agrees

variable {α β : Type}

/-- The first step of a walk may use up one of the limit. -/
theorem of_succ {x : m α} {walk : Nat → Recorded α} (h : Agrees x fun limit => walk (limit + 1)) :
    Agrees x walk := by
  intro ids calls
  obtain ⟨calls', bound, hbound⟩ := h ids calls
  refine ⟨calls', bound + 1, fun limit hlimit => ?_⟩
  obtain ⟨limit, rfl⟩ := Nat.exists_eq_add_of_le' (Nat.le_trans (Nat.le_add_left 1 bound) hlimit)
  exact hbound limit (Nat.le_of_succ_le_succ hlimit)

theorem ofNumbering (x : m α) : Agrees x fun _ => Recorded.ofNumbering (liftM x) :=
  fun _ calls => ⟨calls, 0, fun _ _ => rfl⟩

variable [Monad m] [LawfulMonadLiftT m Numbering]

protected theorem pure (a : α) : Agrees (pure a : m α) fun _ => pure a := by
  intro ids calls
  refine ⟨calls, 0, fun limit _ => ?_⟩
  rw [liftM_pure]
  rfl

/-- The second step needs to agree for values only that the first one returns. -/
theorem bind_of_returns {x : m α} {walk : Nat → Recorded α} {f : α → m β}
    {next : Nat → α → Recorded β} (hx : Agrees x walk)
    (hf : ∀ a ids ids', (liftM x : Numbering α).run ids = .ok (a, ids') →
      Agrees (f a) (next · a)) :
    Agrees (x >>= f) fun limit => walk limit >>= next limit := by
  intro ids calls
  obtain ⟨calls₁, bound₁, h₁⟩ := hx ids calls
  cases hrun : (liftM x : Numbering α).run ids with
  | error e =>
    refine ⟨calls₁, bound₁, fun limit hlimit => ?_⟩
    rw [Recorded.outcome_bind, h₁ limit hlimit, liftM_bind, StateT.run_bind, hrun]
    rfl
  | ok r =>
    obtain ⟨a, ids'⟩ := r
    obtain ⟨calls₂, bound₂, h₂⟩ := hf a ids ids' hrun ids' calls₁
    refine ⟨calls₂, max bound₁ bound₂, fun limit hlimit => ?_⟩
    rw [Recorded.outcome_bind, h₁ limit (by omega), liftM_bind, StateT.run_bind, hrun]
    exact h₂ limit (by omega)

protected theorem bind {x : m α} {walk : Nat → Recorded α} {f : α → m β}
    {next : Nat → α → Recorded β} (hx : Agrees x walk) (hf : ∀ a, Agrees (f a) (next · a)) :
    Agrees (x >>= f) fun limit => walk limit >>= next limit :=
  hx.bind_of_returns fun a _ _ _ => hf a

/-- A result that is put together after a step. -/
protected theorem map {x : m α} {walk : Nat → Recorded α} (h : Agrees x walk) (k : α → β) :
    Agrees (x >>= fun a => pure (k a)) fun limit => walk limit >>= fun a => pure (k a) :=
  h.bind fun a => .pure (k a)

theorem note (q : Query) : Agrees (pure () : m Unit) fun _ => Recorded.note q := by
  intro ids calls
  refine ⟨calls ++ [q], 0, fun limit _ => ?_⟩
  rw [liftM_pure]
  rfl

theorem mapM [LawfulMonad m] {k : α → m β} {walk : Nat → α → Recorded β} {xs : List α}
    (h : ∀ x ∈ xs, Agrees (k x) (walk · x)) :
    Agrees (xs.mapM k) fun limit => xs.mapM (walk limit) := by
  induction xs with
  | nil => exact .pure []
  | cons x xs ih =>
    simp only [List.mapM_cons]
    refine (h x List.mem_cons_self).bind fun y => ?_
    exact (ih fun z hz => h z (List.mem_cons_of_mem x hz)).map (y :: ·)

end Agrees

/-! From the parts of a node to the node. -/

section Walked

variable [Monad m] (t : Transform m)

/-- The hooks that act on queries as the transformation does before it turns to their clauses. -/
abbrev Transform.hooks : Hooks Recorded := .descending fun q => liftM (t.atQuery q)

/-- The walk over an expression agrees with the transformation. -/
def Expr.Walked (e : Expr) : Prop := Agrees (e.transform t) fun limit => t.hooks.onExpr limit e

def Query.Walked (q : Query) : Prop := Agrees (q.transform t) fun limit => t.hooks.onQuery limit q

def Source.Walked (s : Source) : Prop :=
  Agrees (s.transform t) fun limit =>
    Hooks.inSource (t.hooks.onExpr limit) (t.hooks.onQuery limit) s

variable {t}

/-- The hooks leave an expression to the walk over its children. -/
theorem Expr.walked_of_inExpr {e : Expr} (h : Agrees (e.transform t) fun limit =>
    Hooks.inExpr (t.hooks.onExpr limit) (t.hooks.onQuery limit) e) : e.Walked t := by
  refine .of_succ ?_
  simpa only [Hooks.onExpr, Hooks.descending, pure_bind, bind_pure] using h

variable [LawfulMonadLiftT m Numbering]

namespace Agrees

theorem optional {o : Option Expr} (h : ∀ e ∈ o, e.Walked t) :
    Agrees (transformOptional t o) fun limit => Hooks.inOptional (t.hooks.onExpr limit) o := by
  cases o with
  | none => exact .pure none
  | some e => exact (h e rfl).map some

variable [LawfulMonad m]

theorem exprs {es : List Expr} (h : ∀ e ∈ es, e.Walked t) :
    Agrees (transformExprs t es) fun limit => es.mapM (t.hooks.onExpr limit) := by
  rw [transformExprs_eq_mapM]
  exact mapM h

theorem columns {cs : List Column} (h : ∀ c ∈ cs, c.expr.Walked t) :
    Agrees (transformColumns t cs) fun limit =>
      cs.mapM (Hooks.inColumn (t.hooks.onExpr limit)) := by
  rw [transformColumns_eq_mapM]
  exact mapM fun c hc => (h c hc).map fun e => { c with expr := e }

theorem order {os : List OrderItem} (h : ∀ o ∈ os, o.expr.Walked t) :
    Agrees (transformOrder t os) fun limit =>
      os.mapM (Hooks.inOrderItem (t.hooks.onExpr limit)) := by
  rw [transformOrder_eq_mapM]
  exact mapM fun o ho => (h o ho).map fun e => { o with expr := e }

theorem sources {ss : List Source} (h : ∀ s ∈ ss, s.Walked t) :
    Agrees (transformSources t ss) fun limit =>
      ss.mapM (Hooks.inSource (t.hooks.onExpr limit) (t.hooks.onQuery limit)) := by
  rw [transformSources_eq_mapM]
  exact mapM h

theorem items {is : List SetItem} (h : ∀ i ∈ is, i.expr.Walked t) :
    Agrees (is.mapM (SetItem.transform t)) fun limit =>
      is.mapM (Hooks.inSetItem (t.hooks.onExpr limit)) :=
  mapM fun i hi => (h i hi).map (SetItem.mk i.column)

theorem joins {js : List Join} (hsources : ∀ j ∈ js, j.source.Walked t)
    (hconditions : ∀ j ∈ js, ∀ e ∈ j.condition, e.Walked t) :
    Agrees (transformJoins t js) fun limit =>
      Hooks.inJoins (t.hooks.onExpr limit) (t.hooks.onQuery limit) js := by
  induction js with
  | nil => exact .pure []
  | cons j js ih =>
    obtain ⟨hsource, hrest⟩ := List.forall_mem_cons.1 hsources
    obtain ⟨hcondition, hrest'⟩ := List.forall_mem_cons.1 hconditions
    cases j with
    | mk kind source condition =>
      simp only [transformJoins, Join.transform, bind_assoc, pure_bind]
      refine Agrees.bind hsource fun s => (optional hcondition).bind fun c => ?_
      exact (ih hrest hrest').map (⟨kind, s, c⟩ :: ·)

theorem inQuery {q : Query} (h : q.Each (Expr.Walked t) (Source.Walked t)) :
    Agrees (q.descend t) fun limit =>
      Hooks.inQuery (t.hooks.onExpr limit) (t.hooks.onQuery limit) q := by
  refine (columns h.columns).bind fun cs => (optional h.skip).bind fun sk => ?_
  refine (optional h.take).bind fun tk => (sources h.sources).bind fun ss => ?_
  refine (optional h.filter).bind fun f => (exprs h.groupBy).bind fun g => ?_
  refine (optional h.having).bind fun v => ?_
  exact (order h.orderBy).map (Query.mk q.id cs q.distinct sk tk ss f g v)

end Agrees

/-- An expression without children. -/
theorem Transform.TopDown.walked_leaf (ht : t.TopDown) {e : Expr}
    (he : e.transform t = t.expr e) (hin : ∀ f g, Hooks.inExpr (m := Recorded) f g e = pure e) :
    e.Walked t := by
  refine Expr.walked_of_inExpr ?_
  rw [he, ht.expr]
  simp only [hin]
  exact .pure e

variable [LawfulMonad m]

theorem Source.walked_of_each {s : Source}
    (h : s.Each (Expr.Walked t) (Query.Walked t) (Source.Walked t)) : s.Walked t := by
  cases s with
  | mk id origin aliasName joins =>
    have horigin : Agrees (origin.transform t) fun limit =>
        Hooks.inOrigin (t.hooks.onQuery limit) origin := by
      cases origin with
      | table table => exact .pure (Origin.table table)
      | query q => exact (h.origin q rfl).map Origin.query
    have hjoins := Agrees.joins h.joins h.conditions
    exact horigin.bind fun origin => hjoins.map (Source.mk id origin aliasName)

namespace Transform.TopDown

variable (ht : t.TopDown)

include ht

/-- The walk over a tree agrees with the transformation if the walk over its queries does. -/
theorem closed : Tree.Closed (fun e => e.EachQuery (Query.Walked t) → e.Walked t)
    (fun q => q.EachQuery (Query.Walked t) → q.Walked t)
    (fun s => s.EachQuery (Query.Walked t) → s.Walked t) where
  value _ _ _ := ht.walked_leaf rfl fun _ _ => rfl
  parameter _ _ := ht.walked_leaf rfl fun _ _ => rfl
  field _ _ := ht.walked_leaf rfl fun _ _ => rfl
  column _ _ := ht.walked_leaf rfl fun _ _ => rfl
  typeName _ _ := ht.walked_leaf rfl fun _ _ => rfl
  call name ty args flags ih h := by
    have hargs := Agrees.exprs fun e he => ih e he (h.arg e he)
    refine Expr.walked_of_inExpr ?_
    simp only [Expr.transform, ht.expr]
    exact hargs.map (Expr.call name ty · flags)
  raw format p args ty ih h := by
    have hargs := Agrees.exprs fun e he => ih e he (h.rawArg e he)
    refine Expr.walked_of_inExpr ?_
    simp only [Expr.transform, ht.expr]
    exact hargs.map (Expr.raw format p · ty)
  binary op l r p ty n hl hr h := by
    refine Expr.walked_of_inExpr ?_
    simp only [Expr.transform, ht.expr]
    exact (hl h.left).bind fun l => (hr h.right).map (Expr.binary op l · p ty n)
  subquery q ih h := by
    refine Expr.walked_of_inExpr ?_
    simp only [Expr.transform, ht.expr]
    exact (ih h.subquery).map Expr.subquery
  existsRow q ih h := by
    refine Expr.walked_of_inExpr ?_
    simp only [Expr.transform, ht.expr]
    exact (ih h.existsRow).map Expr.existsRow
  query q _ h := h.self q rfl
  source s ih h := s.walked_of_each (ih.mp ((Source.eachQuery_iff s).1 h))

variable (hwf : WellFounded (Query.CalledFor fun q => liftM (t.atQuery q)))

include hwf

/-- The queries below one that the hook returned are called later. -/
theorem walked_query (q : Query) : q.Walked t := by
  induction q using hwf.induction with
  | h q ih =>
    have hmade : ∀ r ids ids', (liftM (t.atQuery q) : Numbering Query).run ids = .ok (r, ids') →
        r.Each (Expr.Walked t) (Source.Walked t) := by
      intro r ids ids' hrun
      have hbelow : ∀ c ∈ (Node.query r).children, c.All (Node.IfQuery (Query.Walked t)) := by
        rintro c hc _ hq q' rfl
        exact ih q' ⟨ids, r, ids', hrun, c, hc, hq⟩
      exact (Node.All.clauses_of_children hbelow).imp ht.closed.onExpr ht.closed.onSource
    refine .of_succ ?_
    have hstep : ∀ limit, t.hooks.onQuery (limit + 1) q = Recorded.note q >>= fun _ =>
        .ofNumbering (liftM (t.atQuery q)) >>= fun r =>
          Hooks.inQuery (t.hooks.onExpr limit) (t.hooks.onQuery limit) r := by
      intro limit
      simp only [Hooks.onQuery, Hooks.descending, bind_assoc, pure_bind, bind_pure]
    have htransform : q.transform t = pure () >>= fun _ => t.atQuery q >>= Query.descend t := by
      rw [pure_bind, Query.transform_eq]
      exact ht.query q
    simp only [hstep, htransform]
    refine (Agrees.note q).bind fun _ => ?_
    exact (Agrees.ofNumbering (t.atQuery q)).bind_of_returns fun r ids ids' hrun =>
      .inQuery (hmade r ids ids' hrun)

theorem walked_expr (e : Expr) : e.Walked t :=
  ht.closed.onExpr e fun _ _ q _ => ht.walked_query hwf q

theorem walked_source (s : Source) : s.Walked t :=
  ht.closed.onSource s fun _ _ q _ => ht.walked_query hwf q

theorem agrees_onStatement (s : Statement) :
    Agrees (s.transform t) fun limit => t.hooks.onStatement limit s := by
  have hexpr := ht.walked_expr hwf
  have hquery := ht.walked_query hwf
  have hitems (items : List SetItem) := Agrees.items fun i (_ : i ∈ items) => hexpr i.expr
  cases s with
  | select q => exact (hquery q).map Statement.select
  | insert into items q =>
    exact (hitems items).bind fun items => (hquery q).map (Statement.insert into items)
  | update target items q =>
    exact (hitems items).bind fun items => (hquery q).map (Statement.update target items)
  | delete target q => exact (hquery q).map (Statement.delete target)
  | merge target q on operations =>
    refine Agrees.bind (ht.walked_source hwf target) fun target => (hquery q).bind fun q => ?_
    refine (Agrees.optional fun e _ => hexpr e).bind fun on => ?_
    have hoperations : Agrees (operations.mapM (MergeOperation.transform t)) fun limit =>
        operations.mapM fun o => do
          return { o with condition := ← Hooks.inOptional (t.hooks.onExpr limit) o.condition
                          items := ← o.items.mapM (Hooks.inSetItem (t.hooks.onExpr limit)) } :=
      Agrees.mapM fun o _ => (Agrees.optional fun e _ => hexpr e).bind fun condition =>
        (hitems o.items).map fun items => { o with condition, items }
    exact hoperations.map (Statement.merge target q on)
  | createTable table => exact .pure _
  | dropTable table ifExists => exact .pure _

/-- If the calls are well-founded, the walk returns what the transformation returns, after the same
calls whatever the limit from some limit on. -/
theorem onStatement (s : Statement) :
    ∃ calls bound, ∀ limit, bound ≤ limit →
      s.walked (fun q => liftM (t.atQuery q)) limit =
        ((liftM (s.transform t) : Numbering Statement).run' (.after (.statement s)), calls) := by
  obtain ⟨calls, bound, h⟩ := ht.agrees_onStatement hwf s (.after (.statement s)) []
  refine ⟨calls, bound, fun limit hlimit => ?_⟩
  have houtcome := h limit hlimit
  unfold Recorded.outcome at houtcome
  unfold Statement.walked
  rw [StateT.run'_eq, StateT.run'_eq, ExceptT.run_map, StateT.run_map, houtcome]
  rfl

end Transform.TopDown

end Walked

end SqlTree
