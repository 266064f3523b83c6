import SqlTree.Proofs.Lowering.Conformance
import SqlTree.Proofs.Lowering.Tied

/-! # The bindings of a statement

A pass may move a parameter, copy it or unbind it, and it may drop an ordering whose expressions are
among the columns. The bindings, that is the names with their types and values, stay the same. The
pass for single tables drops the columns of a deletion or an update, so these must not have
parameters.

Main definitions:

* `Parameter.Agrees`: two parameters with the same binding.
* `Node.SameBindings`: two trees with the same bindings.
* `Statement.ProjectsNoParameter`: no parameter in the columns of a deletion or an update.
* `Node.OfBindings`: a property of bindings.
* `Query.Tied`, `Statement.Tied`: trees that are tied by such a property, with their columns.

Main statements:

* `Node.sameBindings_of_tied`: trees that are tied by all properties of bindings have the same ones.
* `Query.OrderedAs.tied`, `Query.ProjectedAs.tied`, `Query.Emulated.tied`: the shapes of a query
  after the passes.
* `Statement.tied_toSingleTable`: the pass for single tables.
* `Dialect.sameBindings_of_passes`: the passes keep bindings, in any order and number.
-/

namespace SqlTree

/-- The same name, type and value. Values are compared as literals are, but one that does not equal
itself is still the same value. -/
structure Parameter.Agrees (x y : Parameter) : Prop where
  name : y.name = x.name
  dataType : y.dataType = x.dataType
  value : y.value = x.value ∨ x.value.same y.value = true

/-- Each parameter of one tree agrees with one of the other. -/
def Node.SameBindings (n n' : Node) : Prop :=
  (∀ x ∈ n.parameters, ∃ y ∈ n'.parameters, x.Agrees y) ∧
    ∀ y ∈ n'.parameters, ∃ x ∈ n.parameters, x.Agrees y

/-- The query of a deletion or an update has no parameter in its columns, at any depth. -/
def Statement.ProjectsNoParameter (s : Statement) : Prop :=
  ∀ target q, s.scope? = some (target, q) → ∀ c ∈ q.columns, (Node.expr c.expr).parameters = []

namespace Parameter.Agrees

variable {x y z : Parameter}

theorem refl (x : Parameter) : x.Agrees x := ⟨rfl, rfl, .inl rfl⟩

theorem symm (h : x.Agrees y) : y.Agrees x :=
  ⟨h.name.symm, h.dataType.symm, h.value.imp Eq.symm Literal.same_symm⟩

theorem trans (h : x.Agrees y) (h' : y.Agrees z) : x.Agrees z := by
  refine ⟨h'.name.trans h.name, h'.dataType.trans h.dataType, ?_⟩
  rcases h.value with heq | hsame
  · rw [← heq]
    exact h'.value
  · rcases h'.value with heq | hsame'
    · rw [heq]
      exact .inr hsame
    · exact .inr (Literal.same_trans hsame hsame')

theorem of_same (h : x.same y = true) : x.Agrees y := by
  simp only [Parameter.same, Bool.and_eq_true, beq_iff_eq] at h
  exact ⟨h.1.1.1.symm, h.1.2.symm, .inr h.1.1.2⟩

theorem unbind (x : Parameter) : x.Agrees x.unbind := ⟨rfl, rfl, .inl rfl⟩

end Parameter.Agrees

/-! Properties of bindings. -/

/-- The property asks nothing but of parameters, and the same of those that agree. -/
structure Node.OfBindings (P : Node → Prop) : Prop extends Node.Selective P where
  query : ∀ q, P (.query q)
  parameter : ∀ x y, Parameter.Agrees x y → P (.expr (.parameter x)) → P (.expr (.parameter y))

/-- The property of a node that is a parameter. -/
def Node.IfParameter (M : Parameter → Prop) (n : Node) : Prop := ∀ x, n.parameter? = some x → M x

namespace Node

theorem IfParameter.ofBindings {M : Parameter → Prop}
    (hM : ∀ x y, Parameter.Agrees x y → M x → M y) : OfBindings (IfParameter M) where
  statement _ _ h := by cases h
  column _ _ h := by cases h
  source _ _ h := by cases h
  join _ _ h := by cases h
  table _ _ h := by cases h
  order _ _ h := by cases h
  setItem _ _ h := by cases h
  mergeOperation _ _ h := by cases h
  expr e he x hx := by
    cases e with
    | parameter y => exact absurd rfl (he y)
    | _ => cases hx
  query _ _ h := by cases h
  parameter x y hxy hx z hz := by
    cases hz
    exact hM x y hxy (hx x rfl)

theorem all_ifParameter {M : Parameter → Prop} {n : Node} :
    n.All (IfParameter M) ↔ ∀ x ∈ n.parameters, M x := by
  rw [parameters, walk_eq_preorder]
  simp only [All, IfParameter, List.mem_filterMap]
  grind

/-- If the properties of the bindings of one tree hold of another one, it has no further ones. -/
theorem exists_agrees {n n' : Node} (h : ∀ P, OfBindings P → Leads P P n' n) :
    ∀ x ∈ n.parameters, ∃ y ∈ n'.parameters, x.Agrees y := by
  intro x hx
  by_contra hnone
  -- Not to agree with `x` is a property of bindings that holds of the other tree.
  have hP : OfBindings (IfParameter fun y => ¬ x.Agrees y) :=
    IfParameter.ofBindings fun y z hyz hxy hxz => hxy (hxz.trans hyz.symm)
  have hall := h _ hP (all_ifParameter.2 fun y hy hxy => hnone ⟨y, hy, hxy⟩)
  exact all_ifParameter.1 hall x hx (.refl x)

theorem sameBindings_of_tied {n n' : Node} (h : ∀ P, OfBindings P → Tied P n n') :
    n.SameBindings n' := by
  refine ⟨exists_agrees fun P hP => (h P hP).2, fun y hy => ?_⟩
  obtain ⟨x, hx, hyx⟩ := exists_agrees (fun P hP => (h P hP).1) y hy
  exact ⟨x, hx, hyx.symm⟩

end Node

/-! Trees from tied parts. -/

section Tied

variable {P : Node → Prop}

/-- The queries are tied, and columns of which the property holds are followed by such ones. -/
structure Query.Tied (P : Node → Prop) (q q' : Query) : Prop where
  node : Node.Tied P (.query q) (.query q')
  columns : (∀ c ∈ q.columns, (Node.expr c.expr).All P) →
    ∀ c ∈ q'.columns, (Node.expr c.expr).All P

variable (hP : Node.OfBindings P)

include hP

theorem Node.OfBindings.all_query {q : Query} : (Node.query q).All P ↔
    q.Each (fun e => (Node.expr e).All P) (fun s => (Node.source s).All P) :=
  (Node.all_query hP.toOfTrees q).trans (and_iff_right (hP.query q))

theorem Node.OfBindings.steady : Node.Steady P where
  toSelective := hP.toSelective
  hasSkip q _ := hP.query q
  columns q _ := hP.query q
  form _ _ := hP.query _

theorem Query.Aligned.tied {q q' : Query} (h : q.Aligned (Expr.Tied P) (Source.Tied P) q') :
    q.Tied P q' where
  node := h.tied_node hP.steady
  columns hq := forall_mem_of_forall₂ h.columns hq fun _ _ hc => hc.1.1

theorem Transform.tied_of {m : Type → Type} [Monad m] [LawfulMonad m] {O : Outcome m}
    {t : Transform m} (hexpr : ∀ e : Expr, O.Holds (e.Tied P) (t.expr e))
    (hquery : ∀ {q : Query} {p : QueryParts m}, p.Yield O (Expr.Tied P) (Source.Tied P) q →
      O.Holds (q.Tied P) (t.query q p)) :
    t.Yields O (Expr.Tied P) (Query.Tied P) (Source.Tied P) :=
  Transform.tied (fun _ _ h => h.node) hP.toSelective hexpr hquery

theorem Transform.tied_ofFun {f : Expr → Expr} (hf : ∀ e : Expr, e.Tied P (f e)) :
    (Transform.ofFun f).Yields .result (Expr.Tied P) (Query.Tied P) (Source.Tied P) :=
  Transform.tied_of hP hf fun h => Outcome.result.mono h.rebuild fun _ hq' => hq'.tied hP

theorem Expr.tied_unbind (e : Expr) : e.Tied P e.unbind := by
  cases e with
  | parameter x =>
    rw [Expr.Tied, Node.Tied, unbind, Node.all_parameter, Node.all_parameter]
    exact ⟨hP.parameter x x.unbind (.unbind x), hP.parameter x.unbind x (.symm (.unbind x))⟩
  | _ => exact Iff.rfl

theorem Expr.tied_unbindArgs (e : Expr) : e.Tied P e.unbindArgs := by
  cases e with
  | call name t args flags =>
    rw [Expr.Tied, Node.Tied, unbindArgs, hP.all_call, hP.all_call, List.forall_mem_map]
    exact forall₂_congr fun a _ => a.tied_unbind hP
  | _ => exact Iff.rfl

/-! Queries. -/

namespace Query

variable {q q' : Query}

theorem OrderedAs.tied (h : q.OrderedAs (Expr.Tied P) (Source.Tied P) q') : q.Tied P q' where
  node := h.tied_node hP.steady fun _ => hP.query q
  columns hq := by
    cases h with
    | rebuilt _ h => exact (h.tied hP).columns hq
    | byColumns _ _ h =>
      refine List.forall_mem_append.2 ⟨(h.tied hP).columns hq, List.forall_mem_map.2 ?_⟩
      exact q.all_orderKeys hP.toSelective

theorem ProjectedAs.tied (h : q.ProjectedAs (Expr.Tied P) (Source.Tied P) q') : q.Tied P q' where
  node := h.tied_node hP.steady fun _ => hP.query q
  columns hq := by
    cases h with
    | rebuilt _ h => exact (h.tied hP).columns hq
    | constant _ h =>
      refine List.forall_mem_append.2 ⟨(h.tied hP).columns hq, ?_⟩
      exact List.forall_mem_singleton.2 (hP.all_value _ _)

theorem Emulated.tied {ids : Ids} (h : q.Emulated (Expr.Tied P) (Source.Tied P) ids q') :
    q.Tied P q' where
  node := by
    constructor
    · intro hq
      exact h.leads hP.toSelective (fun _ _ h => h.1) (fun _ _ h => h.1) (hP.query q')
        (fun _ r _ _ _ => hP.query r) hq.clauses
    · -- An ordering that is not there any more is among the columns.
      have hsame := Tree.all_of_same_closed hP.toSelective
        (fun x y h => hP.parameter x y (.of_same h)) fun _ q' _ _ => hP.query q'
      intro hq'
      exact hP.all_query.2 (h.comesFrom hP.toSelective (fun _ _ h => h.2) (fun _ _ h => h.2)
        hsame.onExpr hq')
  columns hq := by
    cases h with
    | rebuilt _ h => exact (h.tied hP).columns hq
    | _ =>
      rw [page_eq]
      exact q.forall_mem_refColumns (E := fun e => (Node.expr e).All P)
        fun c _ _ => hP.all_columnRef c

/-- A constant takes the place of columns of which the property holds. -/
theorem all_of_columns (hcolumns : ∀ c ∈ q.columns, (Node.expr c.expr).All P) :
    (Node.query { q with columns := [{ expr := .int 1 }] }).All P ↔ (Node.query q).All P := by
  rw [hP.all_query, hP.all_query]
  exact ⟨fun h => { h with columns := hcolumns },
    fun h => { h with columns := List.forall_mem_singleton.2 (hP.all_value _ _) }⟩

end Query

/-! Statements. -/

/-- The property holds of the columns of a deletion or an update. -/
def Statement.Projects (P : Node → Prop) (s : Statement) : Prop :=
  ∀ target q, s.scope? = some (target, q) → ∀ c ∈ q.columns, (Node.expr c.expr).All P

/-- The statements are tied, and so are the columns of deletions and updates. -/
structure Statement.Tied (P : Node → Prop) (s s' : Statement) : Prop where
  node : Node.Tied P (.statement s) (.statement s')
  projects : s.Projects P → s'.Projects P

namespace Statement

variable {s s' : Statement}

omit hP in
theorem Tied.refl (P : Node → Prop) (s : Statement) : s.Tied P s := ⟨Iff.rfl, fun h => h⟩

omit hP in
theorem Tied.trans {s'' : Statement} (h : s.Tied P s') (h' : s'.Tied P s'') : s.Tied P s'' :=
  ⟨h.node.trans h'.node, fun hs => h'.projects (h.projects hs)⟩

theorem Aligned.tied (h : s.Aligned (Expr.Tied P) (Query.Tied P) (Source.Tied P) s') :
    s.Tied P s' where
  node := h.tied_node (fun _ _ h => h.node) hP.toOfTrees
  projects hs target q' hq' := by
    cases h with
    | update _ _ hq =>
      cases hq'
      exact hq.columns (hs _ _ rfl)
    | delete _ hq =>
      cases hq'
      exact hq.columns (hs _ _ rfl)
    | _ => cases hq'

theorem tied_mapUp {f : Expr → Expr} (hf : ∀ e : Expr, e.Tied P (f e)) (s : Statement) :
    s.Tied P (s.mapUp f) :=
  ((Transform.tied_ofFun hP hf).onStatement s).tied hP

theorem tied_debindInsertParameters (s : Statement) : s.Tied P s.debindInsertParameters := by
  cases s with
  | insert into items q =>
    refine (aligned_debindInsertParameters (Expr.tied_unbind hP) (fun q => ?_) into items q).tied hP
    exact (q.aligned_unbindColumns (fun _ => Iff.rfl) (fun _ => Iff.rfl)
      (Expr.tied_unbind hP)).tied hP
  | _ => exact .refl P _

theorem tied_correctPagination (h : s.correctPagination = .ok s') : s.Tied P s' := by
  let O := Outcome.success Error
  have hyields : Transform.correctPagination.Yields O _ _ _ :=
    Transform.tied_of hP (fun _ => O.pure Iff.rfl) fun h =>
      O.mono (Query.holds_correctPagination h) fun _ hq' => hq'.tied hP
  exact (hyields.onStatement s s' h).tied hP

theorem tied_fixEmptyProjection (s : Statement) : s.Tied P s.fixEmptyProjection := by
  have hyields : Transform.fixEmptyProjection.Yields .result _ _ _ :=
    Transform.tied_of hP (fun _ => Iff.rfl) fun h => (Query.holds_fixEmptyProjection h).tied hP
  exact (hyields.onStatement s).tied hP

theorem tied_emulatePagination (h : s.emulatePagination = .ok s') : s.Tied P s' := by
  let O := Numbering.results (.after (.statement s))
  have hyields : Transform.emulatePagination.Yields O _ _ _ :=
    Transform.tied_of hP (fun _ => O.pure Iff.rfl) fun h =>
      O.mono (Query.holds_emulatePagination h) fun _ hq' => hq'.tied hP
  obtain ⟨σ, hrun⟩ := exists_run_emulatePagination h
  obtain ⟨-, haligned⟩ := hyields.onStatement s _ s' σ (Ids.le_refl _) hrun
  exact haligned.tied hP

/-- The pass for single tables, if the property holds of the columns that it drops. -/
theorem tied_toSingleTable (hs : s.Projects P) : s.Tied P s.toSingleTable := by
  cases s with
  | delete target q =>
    rw [toSingleTable_delete]
    cases q.target? target with
    | none => exact .refl P _
    | some t =>
      refine ⟨?_, ?_⟩
      · rw [Node.Tied, Node.all_delete hP.toOfTrees, Node.all_delete hP.toOfTrees,
          Query.all_overTarget hP.steady, Query.all_of_columns hP (hs _ _ rfl)]
      · rintro - _ _ ⟨⟩
        simp [Query.overTarget]
  | update target items q =>
    rw [toSingleTable_update]
    cases q.target? target with
    | none => exact .refl P _
    | some t =>
      refine ⟨?_, ?_⟩
      · rw [Node.Tied, Node.all_update hP.toOfTrees, Node.all_update hP.toOfTrees,
          Query.all_overTarget hP.steady, Query.all_of_columns hP (hs _ _ rfl)]
        -- The values have no bindings of their own but for those of copies of the query.
        refine and_congr_left fun hq => ?_
        exact (Query.all_setItems hP.steady (.of_each (hP.all_query.1 hq)) _ items _).symm
      · rintro - _ _ ⟨⟩
        simp [Query.overTarget]
  | _ => exact .refl P _

end Statement

omit hP in
theorem Node.OfBindings.of_parameter?_eq_none (hP : Node.OfBindings P) {n : Node}
    (h : n.parameter? = none) : P n := by
  cases n with
  | expr e =>
    refine hP.expr e fun x hx => ?_
    subst hx
    cases h
  | query q => exact hP.query q
  | statement s => exact hP.statement s
  | column c => exact hP.column c
  | source s => exact hP.source s
  | join j => exact hP.join j
  | table t => exact hP.table t
  | order o => exact hP.order o
  | setItem i => exact hP.setItem i
  | mergeOperation o => exact hP.mergeOperation o

/-- Where there are no parameters, all properties of bindings hold. -/
theorem Node.OfBindings.all_of_parameters_eq_nil {n : Node} (h : n.parameters = []) : n.All P := by
  rw [Node.parameters, Node.walk_eq_preorder, List.filterMap_eq_nil_iff] at h
  exact fun m hm => hP.of_parameter?_eq_none (h m hm)

namespace Dialect

variable {d : Dialect} {ctx : Context} {s s' : Statement}

theorem tied_runPass {p : Pass} (hp : p ≠ .convertExpressions) (hs : s.Projects P)
    (h : d.runPass ctx p s = .ok s') : s.Tied P s' := by
  cases p with
  | correctPagination => exact Statement.tied_correctPagination hP h
  | emulatePagination => exact Statement.tied_emulatePagination hP h
  | convertExpressions => exact absurd rfl hp
  | singleTableDml =>
    cases h
    exact Statement.tied_toSingleTable hP hs
  | fixEmptyProjection =>
    cases h
    exact s.tied_fixEmptyProjection hP
  | debindInsertParameters =>
    cases h
    exact s.tied_debindInsertParameters hP
  | inlineFunctionParameters =>
    cases h
    exact s.tied_mapUp hP (Expr.tied_unbindArgs hP)
  | inlineAllParameters =>
    cases h
    exact s.tied_mapUp hP (Expr.tied_unbind hP)

theorem tied_of_passes {passes : List Pass} (hpasses : .convertExpressions ∉ passes)
    (hs : s.Projects P) (h : passes.foldlM (fun s p => d.runPass ctx p s) s = .ok s') :
    s.Tied P s' := by
  induction passes generalizing s with
  | nil =>
    cases h
    exact .refl P _
  | cons p passes ih =>
    rw [List.foldlM_cons] at h
    cases hstep : d.runPass ctx p s with
    | error e =>
      rw [hstep] at h
      cases h
    | ok s₁ =>
      rw [hstep] at h
      have htied := tied_runPass hP (fun hp => hpasses (by simp [hp])) hs hstep
      exact htied.trans (ih (fun hmem => hpasses (by simp [hmem])) (htied.projects hs) h)

end Dialect

end Tied

/-- Passes other than the conversion keep the bindings of a statement, whatever their order and
however often each of them runs. -/
theorem Dialect.sameBindings_of_passes {d : Dialect} {ctx : Context} {s s' : Statement}
    {passes : List Pass} (hpasses : .convertExpressions ∉ passes) (hs : s.ProjectsNoParameter)
    (h : passes.foldlM (fun s p => d.runPass ctx p s) s = .ok s') :
    (Node.statement s).SameBindings (.statement s') := by
  refine Node.sameBindings_of_tied fun P hP => (tied_of_passes hP hpasses ?_ h).node
  exact fun target q hq c hc => hP.all_of_parameters_eq_nil (hs target q hq c hc)

namespace Sample

/-- Drops the orders of blocked customers but for as many as the caller says. -/
def dropPastFirst : Statement :=
  .delete (some ⟨1⟩) { laterBlocked with
    columns := [{ expr := orders.fieldRef ⟨1⟩ "id" }]
    skip := some (.parameter { name := "first", value := .int 1, dataType := .int32 }) }

theorem sameBindings_dropPastFirst :
    ∃ s', [Pass.singleTableDml, .inlineAllParameters, .singleTableDml].foldlM
        (fun s p => bare.runPass {} p s) dropPastFirst = .ok s' ∧
      (Node.statement dropPastFirst).SameBindings (.statement s') := by
  have hcolumns : dropPastFirst.ProjectsNoParameter := by
    rintro _ _ ⟨⟩
    rw [List.forall_mem_singleton, Node.parameters, Node.walk_eq_preorder]
    rfl
  let s' := dropPastFirst.toSingleTable.inlineAllParameters.toSingleTable
  have hrun : [Pass.singleTableDml, .inlineAllParameters, .singleTableDml].foldlM
      (fun s p => bare.runPass {} p s) dropPastFirst = .ok s' := rfl
  exact ⟨s', hrun, Dialect.sameBindings_of_passes (by decide) hcolumns hrun⟩

end Sample

end SqlTree
