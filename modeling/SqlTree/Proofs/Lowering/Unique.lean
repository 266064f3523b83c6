import SqlTree.Proofs.Lowering.Conformance
import SqlTree.Proofs.Pagination.Fresh

/-! # Distinct ids

A lowering puts some expressions in a second place: the columns of a query that is to be ordered by
them, and on an engine without bounds what a query skips if it also limits its rows. The queries in
them then come up twice with their ids. Apart from that, no id is declared twice: new parts take new
ids, and the copies of a query that an update makes are numbered anew.

Main definitions:

* `Query.CopiesColumns`, `Dialect.BoundsOnce`, `Dialect.Copies`: whether an expression of a query
  that declares ids is put in two places.
* `Dialect.LeavesIds`: ids are left where some are taken.
* `Node.Retains`: a second tree declares the same ids.
* `Node.Reveals`: a second tree declares an id twice if a query of the first one copies its columns.

Main statements:

* `Statement.retains_correctPagination`, `Statement.not_copiesColumns_of_nodup`: the first pass
  keeps the ids apart if no query copies its columns, and only then.
* `Statement.boundsOnce_toSingleTable`, `Statement.retains_fixEmptyProjection`,
  `Dialect.declared_inlined`, `Dialect.declares_convert`: the other passes.
* `Dialect.nodup_ids_of_lower`: the ids of a lowered statement are distinct.
-/

namespace SqlTree

/-- The query is to be ordered by its columns, and one of them declares ids. -/
def Query.CopiesColumns (q : Query) : Prop :=
  q.lacksOrdering = true ∧ ∃ c ∈ q.columns, (Node.expr c.expr).declared ≠ []

/-- What the query skips is put in one place on the engine, or it declares no ids. -/
def Dialect.BoundsOnce (d : Dialect) (q : Query) : Prop :=
  d.capabilities.offsetFetch = false → q.BoundsOnce

/-- A lowering puts an expression of the query that declares ids in two places. -/
def Dialect.Copies (d : Dialect) (q : Query) : Prop := q.CopiesColumns ∨ ¬ d.BoundsOnce q

/-- Ids are left to be taken where a statement is put over one table and where rows are numbered. -/
structure Dialect.LeavesIds (d : Dialect) (s : Statement) : Prop where
  single : ∀ s₁, s.correctPagination = .ok s₁ → d.single s₁ ≠ s₁ → s₁.HasFreeIds
  paged : ∀ s₁, s.correctPagination = .ok s₁ → d.capabilities.offsetFetch = false →
    (d.single s₁).fixEmptyProjection.LeavesIds

variable {d : Dialect}

theorem Dialect.BoundsOnce.of_skip {q q' : Query} (h : d.BoundsOnce q)
    (htake : q'.take.isSome = q.take.isSome)
    (hskip : Node.declaredIn q.skip = [] → Node.declaredIn q'.skip = []) : d.BoundsOnce q' :=
  fun hfetch hlimit => hskip (h hfetch (htake ▸ hlimit))

/-! Ids that stay as they are. -/

/-- If all nodes of the first tree meet `C`, the second one declares the same ids, and what its
queries skip is put in one place. -/
def Node.Retains (d : Dialect) (C : Node → Prop) (n n' : Node) : Prop :=
  n.All C → n.declared = n'.declared ∧ n'.All (Node.IfQuery d.BoundsOnce)

section Retains

variable {C : Node → Prop}

theorem Expr.Aligned.retains {e e' : Expr}
    (h : e.Aligned (fun e e' => Node.Retains d C (.expr e) (.expr e'))
      (fun q q' => Node.Retains d C (.query q) (.query q')) e') :
    Node.Retains d C (.expr e) (.expr e') := by
  intro hC
  refine ⟨h.declares Ident.congruence_eq ?_ ?_ hC, (Expr.eachQuery_iff e').2 (h.leads ?_ ?_ hC)⟩
  all_goals first | exact fun _ _ h hC => (h hC).1 | exact fun _ _ h hC => (h hC).2

theorem Source.Aligned.retains {s s' : Source}
    (h : s.Aligned (fun e e' => Node.Retains d C (.expr e) (.expr e'))
      (fun q q' => Node.Retains d C (.query q) (.query q'))
      (fun s s' => Node.Retains d C (.source s) (.source s')) s') :
    Node.Retains d C (.source s) (.source s') := by
  intro hC
  refine ⟨h.declares Ident.congruence_eq ?_ ?_ ?_ hC, h.leads ?_ ?_ ?_ (Node.IfQuery.ofTrees _) hC⟩
  all_goals first | exact fun _ _ h hC => (h hC).1 | exact fun _ _ h hC => (h hC).2

theorem Statement.Aligned.retains {s s' : Statement}
    (h : s.Aligned (fun e e' => Node.Retains d C (.expr e) (.expr e'))
      (fun q q' => Node.Retains d C (.query q) (.query q'))
      (fun s s' => Node.Retains d C (.source s) (.source s')) s') :
    Node.Retains d C (.statement s) (.statement s') := by
  intro hC
  refine ⟨h.declares Ident.congruence_eq ?_ ?_ ?_ hC, h.leads ?_ ?_ ?_ (Node.IfQuery.ofTrees _) hC⟩
  all_goals first | exact fun _ _ h hC => (h hC).1 | exact fun _ _ h hC => (h hC).2

theorem Query.Aligned.retains (hC : ∀ q, C (.query q) → d.BoundsOnce q) {q q' : Query}
    (h : q.Aligned (fun e e' => Node.Retains d C (.expr e) (.expr e'))
      (fun s s' => Node.Retains d C (.source s) (.source s')) q') :
    Node.Retains d C (.query q) (.query q') := by
  intro hq
  refine ⟨h.declares Ident.congruence_eq (fun _ _ h hC => (h hC).1) (fun _ _ h hC => (h hC).1) hq,
    (Query.eachQuery_iff q').2 ⟨(hC q hq.self).of_skip (rel_isSome h.take) fun hskip => ?_, ?_⟩⟩
  · rw [← hskip]
    exact (Ident.congruence_eq.declaredIn h.skip fun e he e' h => (h (hq.clauses.skip e he)).1).symm
  · exact h.leads (fun _ _ h hC => (h hC).2) (fun _ _ h hC => (h hC).2) hq.clauses

end Retains

/-! The first pass. -/

namespace Query

variable {q q' : Query} {keys : List Expr}

theorem declared_orderKeys (q : Query) : ∀ e ∈ q.orderKeys, (Node.expr e).declared = [] := by
  intro e he
  have href := q.reference_of_mem_orderKeys e he
  cases e with
  | field f => rfl
  | column c => rfl
  | _ => cases href

/-- A query that is ordered by its columns declares their ids a second time. -/
theorem declared_orderByColumns (horder : q.orderBy = [])
    (hkeys : ∀ e ∈ keys, (Node.expr e).declared = []) :
    (Node.query (q.orderByColumns keys)).declared =
      (Node.query q).declared ++ q.columns.flatMap fun c => (Node.expr c.expr).declared := by
  have hnil : (keys.flatMap fun e => (Node.expr e).declared) = [] := List.flatMap_eq_nil_iff.2 hkeys
  rw [Node.declared_query, Node.declared_query q, horder]
  simp [orderByColumns, List.flatMap_map, hnil]

end Query

theorem Transform.retains_correctPagination (d : Dialect) :
    Transform.correctPagination.Yields (.success Error)
      (fun e e' => Node.Retains d (Node.IfQuery fun q => ¬ d.Copies q) (.expr e) (.expr e'))
      (fun q q' => Node.Retains d (Node.IfQuery fun q => ¬ d.Copies q) (.query q) (.query q'))
      (fun s s' => Node.Retains d (Node.IfQuery fun q => ¬ d.Copies q) (.source s)
        (.source s')) where
  expr h := (Outcome.success Error).pure h.retains
  query {q p} h := by
    have honce : ∀ q, Node.IfQuery (fun q => ¬ d.Copies q) (.query q) → d.BoundsOnce q :=
      fun q hq => not_not.1 fun h => hq q rfl (.inr h)
    refine (Outcome.success Error).mono (Query.holds_correctPagination h) fun q' hq' => ?_
    cases hq' with
    | rebuilt _ h => exact h.retains honce
    | @byColumns r hlacks _ h =>
      intro hC
      obtain ⟨hdeclared, hall⟩ := h.retains honce hC
      obtain ⟨hself, heach⟩ := (Query.eachQuery_iff r).1 hall
      have horder : r.orderBy = [] := by
        simpa [Query.orderBy_eq_nil hlacks] using h.orderBy
      -- The columns declare no ids, so none is declared twice.
      have hcolumns : (r.columns.flatMap fun c => (Node.expr c.expr).declared) = [] := by
        refine List.flatMap_eq_nil_iff.2 fun c' hc' => ?_
        obtain ⟨c, hc, hretains, -⟩ := exists_of_forall₂ h.columns hc'
        rw [← (hretains (hC.clauses.columns c hc)).1]
        exact not_not.1 fun hne => hC.self q rfl (.inl ⟨hlacks, c, hc, hne⟩)
      have hkeys := q.all_orderKeys (Node.IfQuery.selective d.BoundsOnce)
      refine ⟨?_, Query.eachQuery_orderByColumns hself hkeys heach⟩
      rw [Query.declared_orderByColumns horder q.declared_orderKeys, hcolumns, List.append_nil]
      exact hdeclared
  source h := h.retains

/-- The first pass keeps the ids of a statement in which no query copies an expression. -/
theorem Statement.retains_correctPagination {s s' : Statement} (h : s.correctPagination = .ok s') :
    Node.Retains d (Node.IfQuery fun q => ¬ d.Copies q) (.statement s) (.statement s') :=
  ((Transform.retains_correctPagination d).onStatement s s' h).retains

/-! The ids show whether a query copied its columns. -/

theorem Node.all_declared_nodup {n : Node} (h : n.declared.Nodup) :
    n.All fun m => m.declared.Nodup := by
  refine (Node.all_iff n).2 ⟨h, fun c hc => Node.all_declared_nodup (h.sublist ?_)⟩
  rw [n.declared_eq]
  exact (List.sublist_flatten_of_mem (List.mem_map_of_mem hc)).trans (List.sublist_append_right _ _)
termination_by n.weight
decreasing_by exact Node.weight_lt_of_mem_children hc

/-- The second tree declares the ids of the first one and maybe more. If no node of it declares an
id twice, no query of the first one copies its columns. -/
structure Node.Reveals (n n' : Node) : Prop where
  declared : n.declared.Sublist n'.declared
  nodup : Node.Leads (fun m => m.declared.Nodup) (Node.IfQuery fun q => ¬ q.CopiesColumns) n' n

theorem Expr.Aligned.reveals {e e' : Expr}
    (h : e.Aligned (fun e e' => Node.Reveals (.expr e) (.expr e'))
      (fun q q' => Node.Reveals (.query q) (.query q')) e') :
    Node.Reveals (.expr e) (.expr e') where
  declared := h.declares Ident.congruence_superlist (fun _ _ h _ => h.declared)
    (fun _ _ h _ => h.declared) fun _ _ => trivial
  nodup h' := (Expr.eachQuery_iff e).2
    (h.symm.leads (fun _ _ h => h.nodup) (fun _ _ h => h.nodup) h')

theorem Source.Aligned.reveals {s s' : Source}
    (h : s.Aligned (fun e e' => Node.Reveals (.expr e) (.expr e'))
      (fun q q' => Node.Reveals (.query q) (.query q'))
      (fun s s' => Node.Reveals (.source s) (.source s')) s') :
    Node.Reveals (.source s) (.source s') where
  declared := h.declares Ident.congruence_superlist (fun _ _ h _ => h.declared)
    (fun _ _ h _ => h.declared) (fun _ _ h _ => h.declared) fun _ _ => trivial
  nodup := h.symm.leads (fun _ _ h => h.nodup) (fun _ _ h => h.nodup) (fun _ _ h => h.nodup)
    (Node.IfQuery.ofTrees _)

namespace Query.Aligned

variable {q r : Query} (h : q.Aligned (fun e e' => Node.Reveals (.expr e) (.expr e'))
  (fun s s' => Node.Reveals (.source s) (.source s')) r)

include h

theorem reveals (hcopies : ¬ q.CopiesColumns) : Node.Reveals (.query q) (.query r) where
  declared := h.declares Ident.congruence_superlist (fun _ _ h _ => h.declared)
    (fun _ _ h _ => h.declared) fun _ _ => trivial
  nodup hr := (Query.eachQuery_iff q).2
    ⟨hcopies, h.symm.leads (fun _ _ h => h.nodup) (fun _ _ h => h.nodup) hr.clauses⟩

/-- The ids of the columns come up in the ordering too. -/
theorem reveals_orderByColumns (hlacks : q.lacksOrdering = true) :
    Node.Reveals (.query q) (.query (r.orderByColumns q.orderKeys)) := by
  have horder : r.orderBy = [] := by
    simpa [Query.orderBy_eq_nil hlacks] using h.orderBy
  have hdeclared := Query.declared_orderByColumns horder q.declared_orderKeys
  refine ⟨?_, fun hall => (Query.eachQuery_iff q).2 ⟨?_, ?_⟩⟩
  · rw [hdeclared]
    exact (h.declares Ident.congruence_superlist (fun _ _ h _ => h.declared)
      (fun _ _ h _ => h.declared) fun _ _ => trivial).trans (List.sublist_append_left _ _)
  · rintro ⟨-, c, hc, hne⟩
    obtain ⟨i, hi⟩ := List.exists_mem_of_ne_nil _ hne
    have hcolumns := Ident.congruence_superlist.flatMap h.columns fun _ _ _ h => h.1.declared
    have hi := hcolumns.subset (List.mem_flatMap.2 ⟨c, hc, hi⟩)
    have hnodup := hall.self
    rw [hdeclared, List.nodup_append'] at hnodup
    refine hnodup.2.2 ?_ hi
    rw [Node.declared_query]
    exact List.mem_cons_of_mem _ (List.mem_append_left _ hi)
  · refine h.symm.leads (fun _ _ h => h.nodup) (fun _ _ h => h.nodup) { hall.clauses with
      columns := fun c hc => hall.clauses.columns c (List.mem_append_left _ hc)
      orderBy := by simp [horder] }

end Query.Aligned

theorem Transform.reveals_correctPagination :
    Transform.correctPagination.Yields (.success Error)
      (fun e e' => Node.Reveals (.expr e) (.expr e'))
      (fun q q' => Node.Reveals (.query q) (.query q'))
      (fun s s' => Node.Reveals (.source s) (.source s')) where
  expr h := (Outcome.success Error).pure h.reveals
  query h := by
    refine (Outcome.success Error).mono (Query.holds_correctPagination h) fun q' hq' => ?_
    cases hq' with
    | rebuilt hlacks h => exact h.reveals (by simp [Query.CopiesColumns, hlacks])
    | byColumns hlacks _ h => exact h.reveals_orderByColumns hlacks
  source h := h.reveals

/-- After the first pass, no id is declared twice only if no query copied its columns. -/
theorem Statement.not_copiesColumns_of_nodup {s s' : Statement}
    (h : s.correctPagination = .ok s') (hnodup : (Node.statement s').declared.Nodup) :
    (Node.statement s).All (Node.IfQuery fun q => ¬ q.CopiesColumns) :=
  (Transform.reveals_correctPagination.onStatement s s' h).symm.leads (fun _ _ h => h.nodup)
    (fun _ _ h => h.nodup) (fun _ _ h => h.nodup) (Node.IfQuery.ofTrees _)
    (Node.all_declared_nodup hnodup)

/-! Statements over a single table. -/

theorem Tree.eachQuery_rename_closed {P : Query → Prop} {names refs : Renaming}
    (hP : ∀ q, P q → P (q.rename names refs)) :
    Tree.Closed (fun e => e.EachQuery P → (e.rename names refs).EachQuery P)
      (fun q => q.EachQuery P → (q.rename names refs).EachQuery P)
      (fun s => s.EachQuery P → (s.rename names refs).EachQuery P) where
  value _ _ _ := by simp [Expr.rename]
  parameter _ _ := by simp [Expr.rename]
  field _ _ := by simp [Expr.rename]
  column _ _ := by simp [Expr.rename]
  call name t args flags ih h := by
    simp only [Expr.rename, renameExprs_eq_map, Expr.eachQuery_call, List.forall_mem_map] at h ⊢
    exact fun e he => ih e he (h e he)
  binary op l r p t n hl hr h := by
    simp only [Expr.rename, Expr.eachQuery_binary] at h ⊢
    exact ⟨hl h.1, hr h.2⟩
  raw format p args t ih h := by
    simp only [Expr.rename, renameExprs_eq_map, Expr.eachQuery_raw, List.forall_mem_map] at h ⊢
    exact fun e he => ih e he (h e he)
  typeName _ _ := by simp [Expr.rename]
  subquery q ih h := by
    simp only [Expr.rename, Expr.eachQuery_subquery] at h ⊢
    exact ih h
  existsRow q ih h := by
    simp only [Expr.rename, Expr.eachQuery_existsRow] at h ⊢
    exact ih h
  query q ih h := by
    obtain ⟨hself, heach⟩ := (Query.eachQuery_iff q).1 h
    exact (Query.eachQuery_iff _).2 ⟨hP q hself, (ih.mp heach).rename⟩
  source s ih h := (Source.eachQuery_iff _).2 (ih.mp ((Source.eachQuery_iff s).1 h)).rename

theorem Dialect.BoundsOnce.rename {q : Query} (h : d.BoundsOnce q) (names refs : Renaming) :
    d.BoundsOnce (q.rename names refs) := by
  refine h.of_skip ?_ fun hskip => ?_
  · rw [Query.rename_eq, Option.isSome_map]
  · have hrename := Tree.declared_rename_closed names refs
    rw [Query.rename_eq, declaredIn_rename fun e _ => hrename.onExpr e, hskip, List.map_nil]

theorem Query.boundsOnce_setValue {q : Query} {t : Target} {outer : SourceId} {value : Expr}
    {ids : Ids} (hnodup : (Node.query q).declared.Nodup) (hq : q.EachQuery d.BoundsOnce)
    (hvalue : value.EachQuery d.BoundsOnce) :
    ((q.setValue t outer value).run ids).1.EachQuery d.BoundsOnce := by
  have hrename : ∀ names refs, Tree.Closed _ _ _ := fun names refs =>
    Tree.eachQuery_rename_closed fun (q : Query) (h : d.BoundsOnce q) => h.rename names refs
  by_cases hreads : q.readsOnly t.id value = true
  · rw [run_setValue_of_readsOnly hreads]
    exact (hrename _ _).onExpr value hvalue
  · rw [setValue_of_not_readsOnly hreads, q.run_correlatedValue hnodup, Expr.eachQuery_subquery]
    generalize (q.renumber ids).2.names = names
    obtain ⟨hself, heach⟩ := (eachQuery_iff _).1 ((hrename names names).onQuery q hq)
    refine eachQuery_addKey _ _ _ (fun filter => hself) { heach with
      columns := List.forall_mem_singleton.2 ((hrename _ _).onExpr value hvalue)
      orderBy := by simp }

theorem Statement.boundsOnce_toSingleTable {s : Statement}
    (hnodup : (Node.statement s).declared.Nodup)
    (hs : (Node.statement s).All (Node.IfQuery d.BoundsOnce)) :
    (Node.statement s.toSingleTable).All (Node.IfQuery d.BoundsOnce) := by
  refine eachQuery_toSingleTable hs (fun _ _ _ _ _ _ _ => rfl) (fun _ _ _ hq => hq) ?_
  rintro target items q t rfl - i hi outer ids
  obtain ⟨hitems, hq⟩ := (Node.all_update (Node.IfQuery.ofTrees _)).1 hs
  rw [Node.declared_update] at hnodup
  exact Query.boundsOnce_setValue (List.nodup_append'.1 hnodup).2.1 hq (hitems i hi)

/-! The other passes. -/

theorem Transform.retains_fixEmptyProjection (d : Dialect) :
    Transform.fixEmptyProjection.Yields .result
      (fun e e' => Node.Retains d (Node.IfQuery d.BoundsOnce) (.expr e) (.expr e'))
      (fun q q' => Node.Retains d (Node.IfQuery d.BoundsOnce) (.query q) (.query q'))
      (fun s s' => Node.Retains d (Node.IfQuery d.BoundsOnce) (.source s) (.source s')) where
  expr h := Expr.Aligned.retains h
  query {q p} h := by
    have honce : ∀ q, Node.IfQuery d.BoundsOnce (.query q) → d.BoundsOnce q := fun q hq => hq q rfl
    have hq := Query.holds_fixEmptyProjection h
    change Node.Retains d _ (.query q) (.query (q.fixEmptyProjection p))
    generalize q.fixEmptyProjection p = q' at hq
    cases hq with
    | rebuilt _ h => exact h.retains honce
    | @constant r _ h =>
      intro hC
      obtain ⟨hdeclared, hall⟩ := h.retains honce hC
      obtain ⟨hself, heach⟩ := (Query.eachQuery_iff r).1 hall
      refine ⟨?_, (Query.eachQuery_iff _).2 ⟨hself, { heach with columns := ?_ }⟩⟩
      · have hone : (Node.expr (.int 1)).declared = [] := rfl
        rw [hdeclared, Node.declared_query, Node.declared_query (r.addColumn _)]
        simp [Query.addColumn, hone]
      · exact List.forall_mem_append.2 ⟨heach.columns, by simp [Expr.int]⟩
  source h := h.retains

theorem Statement.retains_fixEmptyProjection (s : Statement) :
    Node.Retains d (Node.IfQuery d.BoundsOnce) (.statement s) (.statement s.fixEmptyProjection) :=
  ((Transform.retains_fixEmptyProjection d).onStatement s).retains

theorem Expr.declared_unbind (e : Expr) :
    (Node.expr e).declared = (Node.expr e.unbind).declared := by
  cases e <;> rfl

theorem Expr.declared_unbindArgs (e : Expr) :
    (Node.expr e).declared = (Node.expr e.unbindArgs).declared := by
  cases e with
  | call name t args flags => simp [unbindArgs, List.flatMap_map, ← declared_unbind]
  | _ => rfl

theorem Statement.declared_mapUp {f : Expr → Expr}
    (hf : ∀ e, (Node.expr e).declared = (Node.expr (f e)).declared) (s : Statement) :
    (Node.statement s).declared = (Node.statement (s.mapUp f)).declared :=
  ((Transform.declares (C := fun _ => True) (O := .result) (t := .ofFun f) Ident.congruence_eq rfl
    hf).onStatement s).declares Ident.congruence_eq (fun _ _ h => h) (fun _ _ h => h)
    (fun _ _ h => h) fun _ _ => trivial

theorem Statement.declared_debindInsertParameters (s : Statement) :
    (Node.statement s).declared = (Node.statement s.debindInsertParameters).declared := by
  cases s with
  | insert into items q =>
    have hq : (Node.query q).declared = (Node.query q.unbindColumns).declared := by
      rw [Node.declared_query, Node.declared_query q.unbindColumns]
      simp [Query.unbindColumns, List.flatMap_map, ← Expr.declared_unbind]
    simp [debindInsertParameters, List.flatMap_map, ← Expr.declared_unbind, hq]
  | _ => rfl

namespace Dialect

variable {config : Config} {ctx : Context} {s s' : Statement}

/-- Writing parameters into the text keeps the ids. -/
theorem declared_inlined (d : Dialect) (config : Config) (s : Statement) :
    (Node.statement s).declared = (Node.statement (d.inlined config s)).declared := by
  refine d.inlined_induction
    (P := fun s' => (Node.statement s).declared = (Node.statement s').declared) config rfl
    (fun s' h => ?_) (fun s' h => ?_) fun s' h => ?_
  · exact h.trans s'.declared_debindInsertParameters
  · exact h.trans (s'.declared_mapUp Expr.declared_unbindArgs)
  · exact h.trans (s'.declared_mapUp Expr.declared_unbind)

theorem declares_convert {R : List Ident → List Ident → Prop} (hR : Ident.Congruence R)
    (hconvert : ∀ e e', d.convert ctx e = .ok e' → R (Node.expr e).declared (Node.expr e').declared)
    (h : d.convertStatement ctx s = .ok s') :
    R (Node.statement s).declared (Node.statement s').declared := by
  have hyields := Transform.declares (C := fun _ => True) (O := .success Error)
    (t := d.conversion ctx) hR rfl hconvert
  exact (hyields.onStatement s s' h).declares hR (fun _ _ h => h) (fun _ _ h => h)
    (fun _ _ h => h) fun _ _ => trivial

end Dialect

/-- What a conversion makes of an expression declares no more ids. -/
theorem SqlCe.Converted.declared_sublist {e e' : Expr} (h : Converted e e') :
    (Node.expr e').declared.Sublist (Node.expr e).declared := by
  cases h with
  | unchanged => exact .refl _
  | modulo => simp [Expr.convert, Expr.function]
  | @shift _ l r date _ _ _ _ hdate =>
    rcases hdate with rfl | rfl
    · simp [SqlCe.shift, Expr.long]
    · simp [SqlCe.shift, Expr.long]
  | null => exact List.nil_sublist _
  | floor => simp [Expr.function]
  | text => simp
  | value => simp

/-! The lowering. -/

namespace Dialect

variable {config : Config} {ctx : Context} {s s₁ s₂ s' : Statement}

/-- Where queries put their bounds in one place, the statement over a single table has distinct ids
and does so too. -/
theorem nodup_single (hnodup : (Node.statement s).declared.Nodup)
    (hs : (Node.statement s).All (Node.IfQuery d.BoundsOnce))
    (hfree : d.single s ≠ s → s.HasFreeIds) :
    (Node.statement (d.single s)).declared.Nodup ∧
      (Node.statement (d.single s)).All (Node.IfQuery d.BoundsOnce) := by
  unfold single at hfree ⊢
  split
  · exact ⟨hnodup, hs⟩
  · rename_i hmulti
    rw [if_neg hmulti] at hfree
    exact ⟨Statement.nodup_toSingleTable hnodup hfree, Statement.boundsOnce_toSingleTable hnodup hs⟩

theorem nodup_paged (hnodup : (Node.statement s).declared.Nodup)
    (hs : (Node.statement s).All (Node.IfQuery d.BoundsOnce))
    (hids : d.capabilities.offsetFetch = false → s.LeavesIds) (h : d.paged s = .ok s') :
    (Node.statement s').declared.Nodup := by
  unfold paged at h
  split at h
  · cases h
    exact hnodup
  · rename_i hfetch
    have hfetch : d.capabilities.offsetFetch = false := by simpa using hfetch
    exact Statement.nodup_emulatePagination h (fun n hn q hq => hs n hn q hq hfetch) hnodup
      (hids hfetch)

/-- The ids are distinct before the conversion if no query copies an expression. -/
theorem nodup_prepared (hids : d.LeavesIds s) (hnodup : (Node.statement s).declared.Nodup)
    (hcopies : (Node.statement s).All (Node.IfQuery fun q => ¬ d.Copies q))
    (h₁ : s.correctPagination = .ok s₁) (h₂ : d.paged (d.single s₁).fixEmptyProjection = .ok s₂) :
    (Node.statement (d.inlined config s₂)).declared.Nodup := by
  obtain ⟨hdeclared, honce⟩ := Statement.retains_correctPagination h₁ hcopies
  rw [hdeclared] at hnodup
  obtain ⟨hnodup, honce⟩ := nodup_single hnodup honce (hids.single s₁ h₁)
  obtain ⟨hdeclared, honce⟩ := (d.single s₁).retains_fixEmptyProjection honce
  rw [hdeclared] at hnodup
  have hnodup := nodup_paged hnodup honce (hids.paged s₁ h₁) h₂
  rwa [← d.declared_inlined config]

/-- On an engine with bounds and with statements over several tables, and without conversions, the
ids are those after the first pass. -/
theorem declared_lower (hfetch : d.capabilities.offsetFetch = true)
    (hmulti : d.capabilities.multiTableDml = true)
    (hconvert : d.convert = DialectKind.generic.dialect.convert)
    (h₂ : d.paged (d.single s₁).fixEmptyProjection = .ok s₂)
    (h₃ : d.convertStatement ctx (d.inlined config s₂) = .ok s') :
    (Node.statement s₁).declared = (Node.statement s').declared := by
  simp only [paged, single, hfetch, hmulti, if_true, Except.ok.injEq] at h₂
  have honce : (Node.statement s₁).All (Node.IfQuery d.BoundsOnce) :=
    fun _ _ _ _ hfetch' => absurd (hfetch.symm.trans hfetch') (by simp)
  calc (Node.statement s₁).declared
    _ = (Node.statement s₂).declared := h₂ ▸ (s₁.retains_fixEmptyProjection honce).1
    _ = (Node.statement (d.inlined config s₂)).declared := d.declared_inlined config s₂
    _ = (Node.statement s').declared := by
      refine declares_convert Ident.congruence_eq (fun e e' he => ?_) h₃
      rw [hconvert] at he
      cases he
      rfl

/-- If no query of a statement with distinct ids copies an expression with queries, the lowered
statement has distinct ids. Where the passes after the first one neither take ids nor drop
expressions, it has them only then. -/
theorem nodup_ids_of_lower (hd : d.Standard) (h : d.lower config ctx s = .ok s')
    (hqueries : (Node.statement s).queryIds.Nodup) (hsources : (Node.statement s).sourceIds.Nodup)
    (hids : d.LeavesIds s) :
    ((∀ q ∈ (Node.statement s).queries, ¬ d.Copies q) →
      (Node.statement s').queryIds.Nodup ∧ (Node.statement s').sourceIds.Nodup) ∧
    (d.capabilities.offsetFetch = true → d.capabilities.multiTableDml = true →
      d.convert = DialectKind.generic.dialect.convert →
      (Node.statement s').queryIds.Nodup ∧ (Node.statement s').sourceIds.Nodup →
      ∀ q ∈ (Node.statement s).queries, ¬ d.Copies q) := by
  obtain ⟨s₁, s₂, h₁, h₂, h₃⟩ := d.exists_of_lower config ctx hd.edits h
  simp only [← Node.declared_nodup_iff]
  refine ⟨fun hcopies => ?_, fun hfetch hmulti hconvert hnodup q hq hcopies => ?_⟩
  · have hnodup : (Node.statement (d.inlined config s₂)).declared.Nodup :=
      nodup_prepared hids ((Node.declared_nodup_iff _).2 ⟨hqueries, hsources⟩)
        (Node.forall_mem_queries.1 hcopies) h₁ h₂
    have hsub := declares_convert Ident.congruence_sublist
      (fun _ _ he => (hd.converted he).declared_sublist) h₃
    exact hnodup.sublist hsub
  · rw [← declared_lower hfetch hmulti hconvert h₂ h₃] at hnodup
    rcases hcopies with hcopies | hcopies
    · exact Node.forall_mem_queries.2 (Statement.not_copiesColumns_of_nodup h₁ hnodup) q hq hcopies
    · exact hcopies fun hfetch' => absurd (hfetch.symm.trans hfetch') (by simp)

end Dialect

namespace Sample

/-- All rows but the first one, with a subquery as their only column. -/
def laterCounts : Query where
  id := ⟨1⟩
  columns := [{ expr := .subquery {
    id := ⟨2⟩
    columns := [{ expr := .int 1 }]
    sources := [{ id := ⟨1⟩, origin := .table { name := "orders" } }] } }]
  skip := some (.int 1)

/-- The subquery comes up twice, with its ids. -/
theorem duplicate_ids_lower_laterCounts :
    ∃ s', DialectKind.generic.dialect.lower {} {} (.select laterCounts) = .ok s' ∧
      (Node.statement (.select laterCounts)).queryIds.Nodup ∧
      (Node.statement (.select laterCounts)).sourceIds.Nodup ∧
      ¬ (Node.statement s').queryIds.Nodup ∧ ¬ (Node.statement s').sourceIds.Nodup := by
  refine ⟨.select { laterCounts with orderBy := [{ expr := .subquery {
    id := ⟨2⟩
    columns := [{ expr := .int 1 }]
    sources := [{ id := ⟨1⟩, origin := .table { name := "orders" } }] } }] }, rfl, ?_⟩
  simp only [Node.queryIds, Node.sourceIds, Node.walk_eq_preorder]
  decide +kernel

/-- A deletion on an engine with neither bounds nor statements over several tables takes ids for the
new target and for the page. -/
theorem nodup_ids_lower_dropBlocked :
    ∃ s', bare.lower {} {} dropBlocked = .ok s' ∧
      (Node.statement s').queryIds.Nodup ∧ (Node.statement s').sourceIds.Nodup := by
  have h₁ : dropBlocked.correctPagination = .ok dropBlocked := rfl
  have hids : bare.LeavesIds dropBlocked := by
    constructor
    all_goals intro s₁ hs₁; cases h₁.symm.trans hs₁
    · intro _
      decide +kernel
    · intro _ _
      change dropBlocked.toSingleTable.fixEmptyProjection.HasFreeIds
      rw [toSingleTable_dropBlocked]
      decide +kernel
  obtain ⟨s', hs'⟩ := exists_lower_dropBlocked {}
  have hlower := Dialect.nodup_ids_of_lower (.custom rfl rfl) hs' ?_ ?_ hids
  · refine ⟨s', hs', hlower.1 ?_⟩
    have hqueries : (Node.statement dropBlocked).queries = [laterBlocked] := rfl
    rw [hqueries, List.forall_mem_singleton]
    rintro (⟨hlacks, -⟩ | hbounds)
    · cases hlacks
    · exact hbounds fun _ htake => by cases htake
  all_goals
    simp only [Node.queryIds, Node.sourceIds, Node.walk_eq_preorder]
    decide +kernel

end Sample

end SqlTree
