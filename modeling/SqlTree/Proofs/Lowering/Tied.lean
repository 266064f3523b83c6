import SqlTree.Proofs.Lowering.Bounds
import SqlTree.Proofs.Pagination.Queries

/-! # Properties of all nodes, before and after a pass

Some passes move nodes, copy them or leave out those that are found elsewhere. What they keep is a
property of all nodes, in both directions: it holds of the tree after the pass if and only if it
holds of the tree before. The properties ask something of parameters and of queries that skip rows
without a column.

Main definitions:

* `Node.Tied`: two trees with a property of all nodes in both or in neither.
* `Query.SameForm`: two queries of the same form.
* `Node.Steady`: the properties in question.
* `Query.CopiedAs`: a copy of a query under another id.

Main statements:

* `Query.OrderedAs.tied_node`, `Query.ProjectedAs.tied_node`: the queries that passes complete.
* `Transform.copies_renumber`, `Transform.copies_reference`: the copies that values are read in.
* `Query.all_overTarget`, `Query.all_setItems`: deletions and updates over a single table.
-/

namespace SqlTree

/-- The property holds of all nodes of both trees or of neither. -/
def Node.Tied (P : Node → Prop) (n n' : Node) : Prop := n.All P ↔ n'.All P

abbrev Expr.Tied (P : Node → Prop) (e e' : Expr) : Prop := Node.Tied P (.expr e) (.expr e')

abbrev Source.Tied (P : Node → Prop) (s s' : Source) : Prop := Node.Tied P (.source s) (.source s')

/-- The queries agree in whether they skip rows, and in which of these clauses are empty. -/
structure Query.SameForm (q q' : Query) : Prop where
  hasSkip : q'.hasSkip = q.hasSkip
  columns : q'.columns.isEmpty = q.columns.isEmpty
  groupBy : q'.groupBy.isEmpty = q.groupBy.isEmpty
  orderBy : q'.orderBy.isEmpty = q.orderBy.isEmpty

theorem Query.SameForm.symm {q q' : Query} (h : q.SameForm q') : q'.SameForm q :=
  ⟨h.hasSkip.symm, h.columns.symm, h.groupBy.symm, h.orderBy.symm⟩

theorem Query.Aligned.sameForm {RE : Expr → Expr → Prop} {RS : Source → Source → Prop}
    {q q' : Query} (h : q.Aligned RE RS q') : q.SameForm q' :=
  ⟨rel_isSome h.skip, isEmpty_of_forall₂ h.columns, isEmpty_of_forall₂ h.groupBy,
    isEmpty_of_forall₂ h.orderBy⟩

/-- The property asks nothing but of parameters and of queries that skip rows without a column. Of
these it depends on the form only. -/
structure Node.Steady (P : Node → Prop) : Prop extends Node.Selective P where
  hasSkip : ∀ q : Query, q.hasSkip = false → P (.query q)
  columns : ∀ q : Query, q.columns ≠ [] → P (.query q)
  form : ∀ {q q' : Query}, q.SameForm q' → P (.query q) → P (.query q')

/-! Trees from tied parts. -/

section Aligned

variable {P : Node → Prop} {RQ : Query → Query → Prop}
  (hQ : ∀ q q', RQ q q' → Node.Tied P (.query q) (.query q'))

theorem Query.Aligned.each_iff {q q' : Query}
    (h : q.Aligned (Expr.Tied P) (Source.Tied P) q') :
    q.Each (fun e => (Node.expr e).All P) (fun s => (Node.source s).All P) ↔
      q'.Each (fun e => (Node.expr e).All P) (fun s => (Node.source s).All P) :=
  ⟨h.leads (fun _ _ h => h.1) fun _ _ h => h.1, h.symm.leads (fun _ _ h => h.2) fun _ _ h => h.2⟩

theorem Query.Aligned.tied_node (hP : Node.Steady P) {q q' : Query}
    (h : q.Aligned (Expr.Tied P) (Source.Tied P) q') : Node.Tied P (.query q) (.query q') := by
  rw [Node.Tied, Node.all_query hP.toOfTrees, Node.all_query hP.toOfTrees, h.each_iff]
  exact and_congr_left fun _ => ⟨hP.form h.sameForm, hP.form h.sameForm.symm⟩

include hQ

theorem Expr.Aligned.tied (hP : Node.Selective P) {e e' : Expr}
    (h : e.Aligned (Expr.Tied P) RQ e') : e.Tied P e' :=
  ⟨h.leads_of_selective hP (fun _ _ h => h.1) fun q q' h => (hQ q q' h).1,
    h.symm.leads_of_selective hP (fun _ _ h => h.2) fun q q' h => (hQ q' q h).2⟩

theorem Source.Aligned.tied (hP : Node.OfTrees P) {s s' : Source}
    (h : s.Aligned (Expr.Tied P) RQ (Source.Tied P) s') : s.Tied P s' :=
  ⟨h.leads (fun _ _ h => h.1) (fun q q' h => (hQ q q' h).1) (fun _ _ h => h.1) hP,
    h.symm.leads (fun _ _ h => h.2) (fun q q' h => (hQ q' q h).2) (fun _ _ h => h.2) hP⟩

theorem Statement.Aligned.tied_node (hP : Node.OfTrees P) {s s' : Statement}
    (h : s.Aligned (Expr.Tied P) RQ (Source.Tied P) s') :
    Node.Tied P (.statement s) (.statement s') :=
  ⟨h.leads (fun _ _ h => h.1) (fun q q' h => (hQ q q' h).1) (fun _ _ h => h.1) hP,
    h.symm.leads (fun _ _ h => h.2) (fun q q' h => (hQ q' q h).2) (fun _ _ h => h.2) hP⟩

/-- A transformation under which expressions and queries stay tied, node by node. -/
theorem Transform.tied {m : Type → Type} [Monad m] [LawfulMonad m] {O : Outcome m}
    {t : Transform m} (hP : Node.Selective P) (hexpr : ∀ e : Expr, O.Holds (e.Tied P) (t.expr e))
    (hquery : ∀ {q : Query} {p : QueryParts m}, p.Yield O (Expr.Tied P) (Source.Tied P) q →
      O.Holds (RQ q) (t.query q p)) :
    t.Yields O (Expr.Tied P) RQ (Source.Tied P) where
  expr {_ e'} h := O.mono (hexpr e') fun _ he' => (h.tied hQ hP).trans he'
  query := hquery
  source h := h.tied hQ hP.toOfTrees

end Aligned

variable {P : Node → Prop} (hP : Node.Steady P)

include hP

/-! Queries that passes complete. -/

namespace Query

variable {q q' : Query}

omit hP in
theorem Aligned.columns_orderByColumns {RE : Expr → Expr → Prop} {RS : Source → Source → Prop}
    (h : q.Aligned RE RS q') (hkeys : q.columns = [] → q.orderKeys ≠ []) :
    (q'.orderByColumns q.orderKeys).columns ≠ [] := by
  have hcolumns := isEmpty_of_forall₂ h.columns
  suffices q'.columns = [] → q.orderKeys ≠ [] by simpa [orderByColumns]
  grind

theorem OrderedAs.tied_node (h : q.OrderedAs (Expr.Tied P) (Source.Tied P) q')
    (hself : q.lacksOrdering = true → P (.query q)) : Node.Tied P (.query q) (.query q') := by
  cases h with
  | rebuilt _ h => exact h.tied_node hP
  | @byColumns r hlacks hkeys h =>
    have horder : r.orderBy = [] := by simpa [orderBy_eq_nil hlacks] using h.orderBy
    have hne := h.columns_orderByColumns hkeys
    have hall := q.all_orderKeys hP.toSelective
    rw [Node.Tied, Node.all_query hP.toOfTrees, Node.all_query hP.toOfTrees,
      and_iff_right (hself hlacks), and_iff_right (hP.columns _ hne), h.each_iff]
    constructor
    · intro hr
      have hcolumns := List.forall_mem_append.2
        ⟨hr.columns, List.forall_mem_map (f := fun e => ({ expr := e } : Column)).2 hall⟩
      exact { hr with columns := hcolumns, orderBy := List.forall_mem_map.2 hcolumns }
    · intro hr
      exact { hr with
        columns := fun c hc => hr.columns c (List.mem_append_left _ hc)
        orderBy := by simp [horder] }

theorem ProjectedAs.tied_node (h : q.ProjectedAs (Expr.Tied P) (Source.Tied P) q')
    (hself : q.lacksProjection = true → P (.query q)) : Node.Tied P (.query q) (.query q') := by
  cases h with
  | rebuilt _ h => exact h.tied_node hP
  | @constant r hlacks h =>
    have hcolumns : (∀ c ∈ (r.addColumn (.int 1)).columns, (Node.expr c.expr).All P) ↔
        ∀ c ∈ r.columns, (Node.expr c.expr).All P := by
      simp only [addColumn, List.forall_mem_append, List.forall_mem_singleton, Expr.int,
        hP.all_value, and_true]
    rw [Node.Tied, Node.all_query hP.toOfTrees, Node.all_query hP.toOfTrees,
      and_iff_right (hself hlacks), and_iff_right (hP.columns _ (by simp [addColumn])), h.each_iff]
    exact ⟨fun hr => { hr with columns := hcolumns.2 hr.columns },
      fun hr => { hr with columns := hcolumns.1 hr.columns }⟩

end Query

/-! Copies. -/

omit hP in
theorem Source.tied_numberFrom (hP : Node.OfTrees P) :
    ∀ (s : Source) (n : Nat), s.Tied P (s.numberFrom n) := by
  refine Source.rel_numberFrom fun s s' horigin _ hjoins => ?_
  rw [Source.Tied, Node.Tied, Node.all_source hP, Node.all_source hP]
  constructor
  · intro h
    refine ⟨horigin ▸ h.origin, forall_mem_of_forall₂ hjoins h.joins fun _ _ hj => hj.2.1, ?_⟩
    exact forall_mem_of_forall₂ hjoins h.conditions fun _ _ hj hc => hj.1 ▸ hc
  · intro h
    refine ⟨horigin ▸ h.origin, forall_mem_of_forall₂ hjoins.flip h.joins fun _ _ hj => hj.2.2, ?_⟩
    exact forall_mem_of_forall₂ hjoins.flip h.conditions fun _ _ hj hc => hj.1 ▸ hc

omit hP in
theorem Source.forall₂_tied_numberSources (hP : Node.OfTrees P) {ss ss' : List Source}
    (h : List.Forall₂ (Source.Tied P) ss ss') (n : Nat) :
    List.Forall₂ (Source.Tied P) ss (numberSources n ss') := by
  induction h generalizing n with
  | nil => exact .nil
  | cons hs _ ih => exact .cons (hs.trans (Source.tied_numberFrom hP _ n)) (ih _)

omit hP in
theorem Renaming.tied_reference (hP : Node.Selective P) (r : Renaming) (e : Expr) :
    e.Tied P (r.reference e) := by
  cases e with
  | field f => exact iff_of_true (hP.all_field f) (hP.all_field _)
  | column c => exact iff_of_true (hP.all_columnRef c) (hP.all_columnRef _)
  | _ => exact Iff.rfl

namespace Query

/-- The second query has the clauses of the first one under an id of its own. -/
def CopiedAs (P : Node → Prop) (q q' : Query) : Prop :=
  Query.Aligned (Expr.Tied P) (Source.Tied P) { q with id := q'.id } q'

/-- The property holds of all clauses but the columns and the ordering. -/
def Rest (P : Node → Prop) (q : Query) : Prop :=
  Query.Each (fun e => (Node.expr e).All P) (fun s => (Node.source s).All P)
    { q with columns := [], orderBy := [] }

variable {q q' : Query} {t : Target}

omit hP in
theorem Rest.of_each (h : q.Each (fun e => (Node.expr e).All P) (fun s => (Node.source s).All P)) :
    q.Rest P :=
  { h with columns := by simp, orderBy := by simp }

theorem CopiedAs.tied_node (h : q.CopiedAs P q') : Node.Tied P (.query q) (.query q') := by
  refine Iff.trans ?_ (Aligned.tied_node hP h)
  have hform : q.SameForm { q with id := q'.id } := ⟨rfl, rfl, rfl, rfl⟩
  rw [Node.all_query hP.toOfTrees, Node.all_query hP.toOfTrees]
  refine and_congr ⟨hP.form hform, hP.form hform.symm⟩ ⟨fun h => { h with }, fun h => { h with }⟩

omit hP in
theorem CopiedAs.rest_iff (h : q.CopiedAs P q') : q.Rest P ↔ q'.Rest P := by
  have hrest : Query.Aligned (Expr.Tied P) (Source.Tied P)
      { q with id := q'.id, columns := [], orderBy := [] }
      { q' with columns := [], orderBy := [] } :=
    { h with columns := .nil, orderBy := .nil }
  exact Iff.trans ⟨fun h => { h with }, fun h => { h with }⟩ hrest.each_iff

end Query

theorem Transform.copies_renumber : Transform.renumber.Yields (.fromEach Renumbering)
    (Expr.Tied P) (Query.CopiedAs P) (Source.Tied P) := by
  let O := Outcome.fromEach Renumbering
  refine Transform.tied (fun _ _ h => h.tied_node hP) hP.toSelective (fun _ => O.pure Iff.rfl)
    fun h => ?_
  refine O.bind (P := fun _ => True) (fun _ => trivial) fun id _ => ?_
  refine O.bind (P := fun _ => True) (fun _ => trivial) fun base _ => ?_
  refine O.bind h.rebuild fun copy hcopy => O.pure ?_
  exact { hcopy with
    id := rfl
    sources := Source.forall₂_tied_numberSources hP.toOfTrees hcopy.sources base }

theorem Transform.copies_reference (r : Renaming) : (Transform.ofFun r.reference).Yields .result
    (Expr.Tied P) (Query.CopiedAs P) (Source.Tied P) := by
  refine Transform.tied (fun _ _ h => h.tied_node hP) hP.toSelective
    (r.tied_reference hP.toSelective) fun h => ?_
  exact Outcome.result.mono h.rebuild fun _ hq' => { hq' with id := rfl }

/-! Deletions and updates over a single table. -/

namespace Query

variable {q : Query} {t : Target}

omit hP in
theorem each_addFilter? (hP : Node.Selective P) {key : Option Expr}
    (hkey : ∀ e ∈ key, (Node.expr e).All P) :
    (q.addFilter? key).Each (fun e => (Node.expr e).All P) (fun s => (Node.source s).All P) ↔
      q.Each (fun e => (Node.expr e).All P) (fun s => (Node.source s).All P) := by
  have hfilter : (∀ e ∈ key.toList.foldl conjoin q.filter, (Node.expr e).All P) ↔
      ∀ e ∈ q.filter, (Node.expr e).All P := by
    cases key with
    | none => rfl
    | some e =>
      have he := hkey e rfl
      cases q.filter with
      | none => simpa [conjoin] using he
      | some f => simp [conjoin, Expr.and, all_operation hP, he]
  rw [addFilter?_eq]
  exact ⟨fun h => { h with filter := hfilter.1 h.filter },
    fun h => { h with filter := hfilter.2 h.filter }⟩

/-- The test for rows lacks the columns of the query. -/
theorem all_overTarget (outer : SourceId) (aliasName : String) (id : QueryId) :
    (Node.query (q.overTarget t outer aliasName id)).All P ↔
      (Node.query { q with columns := [{ expr := .int 1 }] }).All P := by
  have hkey := t.table.all_keyEquality hP.toSelective t.id outer
  have hcolumns : (q.correlatedFilter t outer).columns ≠ [] := by
    simp [correlatedFilter, addFilter?_eq]
  have htest : (Node.query (q.correlatedFilter t outer)).All P ↔
      (Node.query { q with columns := [{ expr := .int 1 }] }).All P := by
    rw [Node.all_query hP.toOfTrees, Node.all_query hP.toOfTrees,
      and_iff_right (hP.columns _ hcolumns), and_iff_right (hP.columns _ (by simp)),
      correlatedFilter, each_addFilter? hP.toSelective hkey]
  rw [← htest, Node.all_query hP.toOfTrees (q.overTarget t outer aliasName id),
    and_iff_right (hP.hasSkip _ rfl), ← hP.all_existsRow]
  refine ⟨fun h => h.filter _ rfl, fun h => ?_⟩
  constructor
  all_goals simp [overTarget, h]
  exact (Node.all_source hP.toOfTrees _).2 ⟨by simp, by simp, by simp⟩

/-- A value is read in a copy of the query. -/
theorem tied_setValue (hq : q.Rest P) (outer : SourceId) (value : Expr) (ids : Ids) :
    value.Tied P ((q.setValue t outer value).run ids).1 := by
  by_cases hreads : q.readsOnly t.id value = true
  · rw [setValue, if_pos hreads]
    exact (Transform.copies_reference hP _).onExpr value
  · rw [setValue_of_not_readsOnly hreads]
    obtain ⟨r, copy, value', inner, hr, hcopy, hvalue, heq⟩ := exists_correlatedValue
      (Transform.copies_renumber hP) (Transform.copies_reference hP) q value t outer ids
    -- The value takes the place of the columns, and the ordering of the copy is left out.
    have hrest : copy.Rest P := hcopy.rest_iff.1 (hr.rest_iff.1 hq)
    have hkey := t.table.all_keyEquality hP.toSelective inner outer
    refine hvalue.trans ?_
    rw [heq, hP.all_subquery, Node.all_query hP.toOfTrees,
      and_iff_right (hP.columns _ (by simp [addFilter?_eq])), each_addFilter? hP.toSelective hkey]
    exact ⟨fun h => { hrest with columns := by simpa using h },
      fun h => h.columns _ List.mem_cons_self⟩

theorem all_setItems (hq : q.Rest P) (outer : SourceId) (items : List SetItem) (ids : Ids) :
    (∀ i ∈ ((items.mapM (q.setItem t outer)).run ids).1, (Node.expr i.expr).All P) ↔
      ∀ i ∈ items, (Node.expr i.expr).All P := by
  have hvalues := (Outcome.fromEach Ids).mapM (R := fun i i' => i.expr.Tied P i'.expr)
    (f := q.setItem t outer) fun i (_ : i ∈ items) ids => tied_setValue hP hq outer i.expr ids
  exact ⟨fun h => forall_mem_of_forall₂ (hvalues ids).flip h fun _ _ hi => hi.2,
    fun h => forall_mem_of_forall₂ (hvalues ids) h fun _ _ hi => hi.1⟩

end Query

end SqlTree
