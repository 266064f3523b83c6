import SqlTree.Proofs.Equality
import SqlTree.Proofs.Pagination.Emulation
import SqlTree.Proofs.Pagination.References

/-! # The queries after pagination

Pagination by row numbers adds queries under new ids. Under an id that was in use, there is a query
with the same aliases, and none with others.

Main definitions:

* `Node.HasQuery`: a query with an id and aliases, at or below a node.
* `Statement.LeavesIds`: ids are left to be taken if a query skips rows.

Main statements:

* `Query.Emulated.leads`: a property of all nodes, shown for a query by row numbers.
* `Query.Emulated.comesFrom`: a property of all nodes, shown from a query by row numbers.
* `Statement.resolved_emulatePagination`: references stay resolved, and queries keep their aliases.
-/

namespace SqlTree

/-- The aliases of the columns, by position. -/
def Query.aliases (q : Query) : List (Option String) := q.columns.map (·.aliasName)

/-- A query with the id and the aliases is at or below the node. -/
def Node.HasQuery (id : QueryId) (aliases : List (Option String)) (n : Node) : Prop :=
  ∃ q ∈ n.queries, q.id = id ∧ q.aliases = aliases

variable {P : Query → Prop}

/-! Queries by row numbers. -/

namespace Query

variable {RE : Expr → Expr → Prop} {RS : Source → Source → Prop} {ids : Ids}
  {q q' inner : Query} {source : SourceId} {bounds : List Expr} {number : Expr}

theorem Aligned.aliases (h : q.Aligned RE RS q') : q'.aliases = q.aliases := by
  have hall : List.Forall₂ (fun c c' : Column => c'.aliasName = c.aliasName) q.columns q'.columns :=
    h.columns.imp fun _ _ hc => hc.2
  unfold Query.aliases
  generalize q.columns = cs, q'.columns = cs' at hall
  induction hall with
  | nil => rfl
  | cons hc _ ih => rw [List.map_cons, List.map_cons, hc, ih]

theorem Aligned.lacksProjection (h : q.Aligned RE RS q') :
    q'.lacksProjection = q.lacksProjection := by
  rw [Query.lacksProjection, Query.lacksProjection, isEmpty_of_forall₂ h.groupBy,
    isEmpty_of_forall₂ h.columns]

theorem aliases_refColumns (q : Query) (id : QueryId) :
    (q.refColumns id).map (·.aliasName) = q.aliases := by
  apply List.ext_getElem <;> simp [refColumns, aliases]

namespace Emulated

variable (h : q.Emulated RE RS ids q')

include h

theorem id_eq : q'.id = q.id := by
  cases h with
  | rebuilt _ h => exact h.id
  | _ => rw [page_eq]

theorem aliases_eq : q'.aliases = q.aliases := by
  cases h with
  | rebuilt _ h => exact h.aliases
  | _ =>
    rw [page_eq]
    exact q.aliases_refColumns _

theorem hasSkip_eq : q'.hasSkip = false := by
  cases h with
  | rebuilt hskip h => exact (rel_isSome h.skip).trans hskip
  | _ =>
    rw [page_eq]
    rfl

theorem lacksProjection (hq' : q'.lacksProjection = true) : q.lacksProjection = true := by
  cases h with
  | rebuilt _ h => exact h.lacksProjection.symm.trans hq'
  | _ =>
    rw [page_eq] at hq'
    cases hq'

end Emulated

variable {C P : Node → Prop} (hP : Node.Selective P)

include hP

theorem all_operation {op : Operator} {l r : Expr} {t : DataType} :
    (Node.expr (.operation op l r t)).All P ↔ (Node.expr l).All P ∧ (Node.expr r).All P :=
  hP.all_binary

theorem all_rowNumber {order : List OrderItem} :
    (Node.expr (rowNumber order)).All P ↔ ∀ o ∈ order, (Node.expr o.expr).All P := by
  rw [rowNumber, hP.all_raw]
  simp

/-- A property of all nodes passes to a query by row numbers, if it holds of the query itself and of
new ones that skip no rows and lack no column that the query does not lack. -/
theorem Emulated.leads (hE : ∀ e e', RE e e' → Node.Leads C P (.expr e) (.expr e'))
    (hS : ∀ s s', RS s s' → Node.Leads C P (.source s) (.source s'))
    (h : q.Emulated RE RS ids q') (hself : P (.query q'))
    (hnew : q.hasSkip = true → ∀ r : Query, ¬ (Ident.query r.id).Below ids → r.hasSkip = false →
      (r.lacksProjection = true → q.lacksProjection = true) → P (.query r))
    (hC : q.Each (fun e => (Node.expr e).All C) (fun s => (Node.source s).All C)) :
    (Node.query q').All P := by
  rw [Node.all_query hP.toOfTrees]
  refine ⟨hself, ?_⟩
  have href : ∀ id, ∀ c ∈ q.refColumns id, (Node.expr c.expr).All P := fun id =>
    q.forall_mem_refColumns (E := fun e => (Node.expr e).All P) fun c _ _ => hP.all_columnRef c
  have hpage : ∀ {inner : Query} {innerId : QueryId} {source : SourceId} {bounds : List Expr},
      (Node.query inner).All P → q.Bounded RE (rowNumberRef innerId q.columns.length) bounds →
        (page q.id (q.refColumns innerId) inner source bounds
          (rowNumberRef innerId q.columns.length)).Each (fun e => (Node.expr e).All P)
            (fun s => (Node.source s).All P) := by
    intro inner innerId source bounds hinner hbounds
    refine each_page (href innerId) (hP.all_derived.2 hinner) ?_
      (fun l r hl hr => (all_operation hP).2 ⟨hl, hr⟩) (hP.all_columnRef _)
    exact hbounds.forall_mem (fun _ l r _ hl hr => (all_operation hP).2 ⟨hl, hr⟩)
      (hP.all_columnRef _) (fun e he e' h => hE e e' h (hC.skip e he))
      (fun e he e' h => hE e e' h (hC.take e he))
  cases h with
  | rebuilt _ h => exact h.leads hE hS hC
  | @numbered inner order source bounds hskip _ hid _ hplain hclauses hbounds =>
    have heach := hclauses.leads hE hS { hC with skip := by simp, take := by simp }
    refine hpage ((Node.all_query hP.toOfTrees _).2 ⟨hnew hskip _ hid ?_ ?_, each_numbered ?_ ?_⟩)
      hbounds
    · simp [Query.numbered, hasSkip, hplain.skip]
    · simp [Query.lacksProjection, Query.numbered]
    · exact { heach with orderBy := by simp [hplain.orderBy] }
    · exact (all_rowNumber hP).2 heach.orderBy
  | @distinct rows order innerId rowsSource source bounds hskip _ hrows _ hid _ horder hclauses
      hbounds =>
    have heach := hclauses.leads hE hS
      { hC with skip := by simp, take := by simp, orderBy := by simp }
    have hnone : rows.hasSkip = false := rel_isSome hclauses.skip
    refine hpage ((Node.all_query hP.toOfTrees _).2
      ⟨hnew hskip _ hid rfl ?_, each_numbered (each_ofRows ?_ ?_) ?_⟩) hbounds
    · simp [Query.lacksProjection, Query.numbered]
    · exact href rows.id
    · refine hP.all_derived.2 ((Node.all_query hP.toOfTrees rows).2 ⟨?_, heach⟩)
      exact hnew hskip rows hrows hnone fun hlacks => hclauses.lacksProjection.symm.trans hlacks
    · exact (all_rowNumber hP).2 (forall_mem_refersTo (E := fun e => (Node.expr e).All P) horder
        fun c _ _ => hP.all_columnRef c)

/-- The bounds of a query are among the conditions on its row numbers. -/
theorem Bounded.comesFrom (hE : ∀ e e', RE e e' → Node.Leads P C (.expr e') (.expr e))
    (h : q.Bounded RE number bounds)
    (hbounds : ∀ e ∈ bounds.foldl conjoin none, (Node.expr e).All P) :
    (∀ e ∈ q.skip, (Node.expr e).All C) ∧ ∀ e ∈ q.take, (Node.expr e).All C := by
  cases h with
  | skip hskip htake h =>
    obtain ⟨-, hsk⟩ := (all_operation hP).1 (hbounds _ rfl)
    rw [hskip, htake]
    refine ⟨?_, by simp⟩
    rintro _ ⟨⟩
    exact hE _ _ h hsk
  | skipTake hskip htake h₁ h₂ h =>
    obtain ⟨hlower, hupper⟩ := (all_operation hP).1 (hbounds _ rfl)
    obtain ⟨-, hsk⟩ := (all_operation hP).1 hlower
    obtain ⟨-, hsum⟩ := (all_operation hP).1 hupper
    obtain ⟨-, htk⟩ := (all_operation hP).1 hsum
    rw [hskip, htake]
    refine ⟨?_, ?_⟩
    · rintro _ ⟨⟩
      exact hE _ _ h₁ hsk
    · rintro _ ⟨⟩
      exact hE _ _ h htk

/-- A property of all nodes comes from a query by row numbers. What the query is ordered by is kept
as a column, if its rows are to be distinct. -/
theorem Emulated.comesFrom (hE : ∀ e e', RE e e' → Node.Leads P C (.expr e') (.expr e))
    (hS : ∀ s s', RS s s' → Node.Leads P C (.source s') (.source s))
    (hsame : ∀ e e' : Expr, e.same e' = true → Node.Leads C C (.expr e) (.expr e'))
    (h : q.Emulated RE RS ids q') (hq' : (Node.query q').All P) :
    q.Each (fun e => (Node.expr e).All C) (fun s => (Node.source s).All C) := by
  have hback : ∀ {r r' : Query}, r.Aligned RE RS r' →
      r'.Each (fun e => (Node.expr e).All P) (fun s => (Node.source s).All P) →
        r.Each (fun e => (Node.expr e).All C) (fun s => (Node.source s).All C) :=
    fun hr => hr.symm.leads (C := P) (fun e e' => hE e' e) (fun s s' => hS s' s)
  have hpage := hq'.clauses
  cases h with
  | rebuilt _ h => exact hback h hpage
  | @numbered inner order source bounds _ _ _ _ _ hclauses hbounds =>
    rw [page_eq] at hpage
    have hinner := (hP.all_derived.1 (hpage.sources _ List.mem_cons_self)).clauses
    have horder := (all_rowNumber hP).1 (hinner.columns _ List.mem_concat_self)
    have hrows := hback hclauses {
      hinner with
      columns := fun c hc => hinner.columns c (List.mem_append_left _ hc)
      orderBy := horder }
    obtain ⟨hskip, htake⟩ := hbounds.comesFrom hP hE hpage.filter
    exact { hrows with skip := hskip, take := htake }
  | @distinct rows order innerId rowsSource source bounds _ _ _ _ _ _ horder hclauses hbounds =>
    rw [page_eq] at hpage
    have hinner := (hP.all_derived.1 (hpage.sources _ List.mem_cons_self)).clauses
    have hrows := hback hclauses (hP.all_derived.1 (hinner.sources _ List.mem_cons_self)).clauses
    obtain ⟨hskip, htake⟩ := hbounds.comesFrom hP hE hpage.filter
    refine { hrows with skip := hskip, take := htake, orderBy := fun o ho => ?_ }
    obtain ⟨_, _, index, c, hc, hsameAs, -⟩ :=
      exists_of_forall₂ (R := flip (q.RefersTo rows.id)) horder.flip ho
    exact hsame c.expr o.expr hsameAs (hrows.columns c (List.mem_of_getElem? hc))

end Query

/-! The pass. -/

section Pass

variable (ids : Ids)

/-- What holds of all queries by their ids, their aliases and that they skip no rows and lack no
column, and of new queries. -/
theorem Transform.leads_emulatePagination {C : Node → Prop}
    (hself : ∀ q q' : Query, q'.id = q.id → q'.aliases = q.aliases → q'.hasSkip = false →
      (q'.lacksProjection = true → q.lacksProjection = true) → C (.query q) → P q')
    (hnew : ∀ q : Query, C (.query q) → q.hasSkip = true →
      ∀ r : Query, ¬ (Ident.query r.id).Below ids → r.hasSkip = false →
        (r.lacksProjection = true → q.lacksProjection = true) → P r) :
    Transform.emulatePagination.Yields (Numbering.results ids)
      (fun e e' => Node.Leads C (Node.IfQuery P) (.expr e) (.expr e'))
      (fun q q' => Node.Leads C (Node.IfQuery P) (.query q) (.query q'))
      (fun s s' => Node.Leads C (Node.IfQuery P) (.source s) (.source s')) where
  expr h := (Numbering.results ids).pure fun hC =>
    (Expr.eachQuery_iff _).2 (h.leads (fun _ _ h => h) (fun _ _ h => h) hC)
  query h := (Numbering.results ids).mono (Query.holds_emulatePagination h) fun q' hq' hC =>
    hq'.leads (Node.IfQuery.selective P) (fun _ _ h => h) (fun _ _ h => h)
      (Node.ifQuery_query.2
        (hself _ q' hq'.id_eq hq'.aliases_eq hq'.hasSkip_eq hq'.lacksProjection hC.self))
      (fun hskip r hr hr' hlacks => Node.ifQuery_query.2 (hnew _ hC.self hskip r hr hr' hlacks))
      hC.clauses
  source h := h.leads (fun _ _ h => h) (fun _ _ h => h) (fun _ _ h => h) (Node.IfQuery.ofTrees P)

/-- What holds of all queries after pagination leads to what holds of all queries before, if the
latter passes between equal queries and comes from what becomes of a query. -/
theorem Transform.comesFrom_emulatePagination {C : Query → Prop}
    (hsame : ∀ q q' : Query, q.same q' = true → C q → C q')
    (hself : ∀ {RE : Expr → Expr → Prop} {RS : Source → Source → Prop} {q q' : Query},
      q.Emulated RE RS ids q' → P q' → C q) :
    Transform.emulatePagination.Yields (Numbering.results ids)
      (fun e e' => Node.Leads (Node.IfQuery P) (Node.IfQuery C) (.expr e') (.expr e))
      (fun q q' => Node.Leads (Node.IfQuery P) (Node.IfQuery C) (.query q') (.query q))
      (fun s s' => Node.Leads (Node.IfQuery P) (Node.IfQuery C) (.source s') (.source s)) where
  expr h := (Numbering.results ids).pure fun hP =>
    (Expr.eachQuery_iff _).2 (h.symm.leads (fun _ _ h => h) (fun _ _ h => h) hP)
  query {q _} h := (Numbering.results ids).mono (Query.holds_emulatePagination h) fun q' hq' hall =>
    (Query.eachQuery_iff q).2 ⟨hself hq' (hall.self q' rfl),
      hq'.comesFrom (Node.IfQuery.selective P) (fun _ _ h => h) (fun _ _ h => h)
        (Tree.all_of_same_closed (Node.IfQuery.selective C) (fun _ _ _ _ => nofun)
          fun q₁ q₂ h hq₁ => Node.ifQuery_query.2 (hsame q₁ q₂ h (hq₁ q₁ rfl))).onExpr hall⟩
  source h := h.symm.leads (fun _ _ h => h) (fun _ _ h => h) (fun _ _ h => h)
    (Node.IfQuery.ofTrees C)

end Pass

/-- If a query skips rows, the ids of the statement are not used up. -/
def Statement.LeavesIds (s : Statement) : Prop :=
  (∃ q ∈ (Node.statement s).queries, q.hasSkip = true) → s.HasFreeIds

theorem Statement.exists_run_emulatePagination {s s' : Statement}
    (h : s.emulatePagination = .ok s') :
    ∃ σ, (s.transform .emulatePagination).run (.after (.statement s)) = .ok (s', σ) := by
  rw [emulatePagination, StateT.run'_eq] at h
  cases hrun : (s.transform .emulatePagination).run (.after (.statement s)) with
  | error e =>
    rw [hrun] at h
    cases h
  | ok r =>
    rw [hrun] at h
    cases h
    exact ⟨r.2, rfl⟩

/-- The query does not have both the id and the aliases. -/
def Query.Differs (id : QueryId) (aliases : List (Option String)) (q : Query) : Prop :=
  q.id = id → q.aliases ≠ aliases

theorem Query.Differs.of_eq {id : QueryId} {aliases : List (Option String)} {q q' : Query}
    (h : q.Differs id aliases) (hid : q'.id = q.id) (haliases : q'.aliases = q.aliases) :
    q'.Differs id aliases := by
  rw [Differs, hid, haliases]
  exact h

theorem Node.hasQuery_iff {id : QueryId} {aliases : List (Option String)} {n : Node} :
    n.HasQuery id aliases ↔ ¬ n.All (Node.IfQuery (Query.Differs id aliases)) := by
  rw [← Node.forall_mem_queries]
  simp [HasQuery, Query.Differs]

theorem Node.scoped_select {scope : Scope} {q : Query} :
    (Node.statement (.select q)).Scoped (fun _ => True) scope ↔
      (Node.query q).Scoped (fun _ => True) scope := by
  simp [scoped_iff (.statement _), Finds, children, binds, bounds]

theorem Node.all_select {C : Node → Prop} (hC : OfTrees C) (q : Query) :
    (Node.statement (.select q)).All C ↔ (Node.query q).All C := by
  simp [all_iff (.statement _), hC.statement, children]

namespace Statement

variable {q : Query} {s : Statement}

/-- The ids in use are below those that are taken. -/
theorem LeavesIds.below (h : s.LeavesIds) {r : Query} (hr : r ∈ (Node.statement s).queries)
    (hskip : r.hasSkip = true) {i : Ident} (hi : i ∈ (Node.statement s).declared) :
    i.Below (.after (.statement s)) :=
  Ids.below_after (h ⟨r, hr, hskip⟩) i hi

theorem declared_of_mem_queries {r : Query} (hr : r ∈ (Node.statement s).queries) :
    ∀ i ∈ (Node.query r).declared, i ∈ (Node.statement s).declared := by
  have hall : (Node.statement s).All fun m => ∀ i ∈ m.declares?, i ∈ (Node.statement s).declared :=
    Node.all_declares_iff.2 fun i hi => hi
  have hdeclared : ∀ r ∈ (Node.statement s).queries, ∀ i ∈ (Node.query r).declared,
      i ∈ (Node.statement s).declared := by
    refine Node.forall_mem_queries.2 fun m hm r hr => ?_
    subst hr
    exact Node.all_declares_iff.1 (Node.All.subtrees _ hall _ hm)
  exact hdeclared r hr

theorem scoped_emulatePagination (h : (Statement.select q).emulatePagination = .ok s)
    (hids : (Statement.select q).LeavesIds)
    (hq : (Node.statement (.select q)).Scoped (fun _ => True) []) :
    (Node.statement s).Scoped (fun _ => True) [] := by
  let M : Ident → Prop := (· ∈ (Node.statement (.select q)).declared)
  let C : Node → Prop := Node.IfQuery fun r => (∀ i ∈ r.opens, M i) ∧
    (r.hasSkip = true → ∀ i, M i → i.Below (.after (.statement (.select q))))
  have hC : (Node.statement (.select q)).All C := by
    refine Node.forall_mem_queries.1 fun r hr => ⟨fun i hi => ?_, fun hskip i hi => ?_⟩
    · exact declared_of_mem_queries hr i (r.opens_sublist_declared.subset hi)
    · exact hids.below hr hskip hi
  have hyields := Transform.keepsScope_emulatePagination (M := M) (C := C)
    (fun r hr => (hr r rfl).1) (fun r hr => (hr r rfl).2)
  obtain ⟨σ, hrun⟩ := exists_run_emulatePagination h
  obtain ⟨-, haligned⟩ := hyields.onStatement (.select q) _ s σ (Ids.le_refl _) hrun
  cases haligned with
  | select hq' =>
    have hquery := (Node.all_select (Node.IfQuery.ofTrees _) q).1 hC
    exact Node.scoped_select.2 (hq'.keeps [] (by simp) ((Node.scoped_select.1 hq).of_all hquery))

theorem hasQuery_emulatePagination (h : (Statement.select q).emulatePagination = .ok s)
    (hids : (Statement.select q).LeavesIds) {r : Query}
    (hr : r ∈ (Node.statement (.select q)).queries) (aliases : List (Option String)) :
    (Node.statement s).HasQuery r.id aliases ↔
      (Node.statement (.select q)).HasQuery r.id aliases := by
  obtain ⟨σ, hrun⟩ := exists_run_emulatePagination h
  rw [Node.hasQuery_iff, Node.hasQuery_iff, not_iff_not]
  constructor
  · have hyields := Transform.comesFrom_emulatePagination (.after (.statement (.select q)))
      (P := Query.Differs r.id aliases) (C := Query.Differs r.id aliases)
      (fun _ _ hsame hq₁ =>
        have haligned := Query.Aligned.of_same hsame
        hq₁.of_eq haligned.id haligned.aliases)
      (fun h hq₂ => hq₂.of_eq h.id_eq.symm h.aliases_eq.symm)
    obtain ⟨-, haligned⟩ := hyields.onStatement (.select q) _ s σ (Ids.le_refl _) hrun
    cases haligned with
    | select hq' =>
      rw [Node.all_select (Node.IfQuery.ofTrees _), Node.all_select (Node.IfQuery.ofTrees _)]
      exact hq'
  · let C : Node → Prop := Node.IfQuery fun q₁ => q₁.Differs r.id aliases ∧
      (q₁.hasSkip = true → (Ident.query r.id).Below (.after (.statement (.select q))))
    intro hall
    have hC : (Node.statement (.select q)).All C := by
      refine Node.forall_mem_queries.1 fun q₁ hq₁ =>
        ⟨Node.forall_mem_queries.2 hall q₁ hq₁, fun hskip => hids.below hq₁ hskip ?_⟩
      exact declared_of_mem_queries hr _ (by simp [Node.declared_query])
    have hyields := Transform.leads_emulatePagination (.after (.statement (.select q))) (C := C)
      (P := Query.Differs r.id aliases)
      (fun q₁ _ hid haliases _ _ hq₁ => (hq₁ q₁ rfl).1.of_eq hid haliases)
      (fun q₁ hq₁ hskip r' hnew _ _ hid => absurd ((hq₁ q₁ rfl).2 hskip) (hid ▸ hnew))
    obtain ⟨-, haligned⟩ := hyields.onStatement (.select q) _ s σ (Ids.le_refl _) hrun
    exact haligned.leads (fun _ _ h => h) (fun _ _ h => h) (fun _ _ h => h)
      (Node.IfQuery.ofTrees _) hC

/-- The passes for pagination keep a selection resolved. Under the id of a query, pagination by row
numbers leaves a query with the same aliases, and only queries with aliases that the id had. -/
theorem resolved_emulatePagination {s₁ s₂ : Statement}
    (hq : (Node.statement (.select q)).Resolved [])
    (hbounds : ∀ r ∈ (Node.statement (.select q)).queries, r.BoundsApart)
    (h₁ : (Statement.select q).correctPagination = .ok s₁)
    (h₂ : s₁.fixEmptyProjection.emulatePagination = .ok s₂)
    (hids : s₁.fixEmptyProjection.LeavesIds) :
    (Node.statement s₂).Resolved [] ∧
      ∀ r ∈ (Node.statement s₁.fixEmptyProjection).queries,
        (Node.statement s₂).HasQuery r.id r.aliases ∧
          ∀ aliases, (Node.statement s₂).HasQuery r.id aliases →
            (Node.statement s₁.fixEmptyProjection).HasQuery r.id aliases := by
  have hscoped := hq.scoped _ (Node.forall_mem_queries.1 hbounds)
  have hordered := (Transform.keepsScope_correctPagination (M := fun _ => True)
    (C := fun _ => True) fun _ _ _ _ => trivial).onStatement (.select q) s₁ h₁
  cases hordered with
  | @select _ q₁ hq₁ =>
  have hprojected : Statement.Aligned _ _ _ (.select q₁) (Statement.select q₁).fixEmptyProjection :=
    (Transform.keepsScope_fixEmptyProjection (M := fun _ => True) (C := fun _ => True)
      fun _ _ _ _ => trivial).onStatement (.select q₁)
  generalize (Statement.select q₁).fixEmptyProjection = s at *
  cases hprojected with
  | @select _ q₂ hq₂ =>
  have hscoped₂ : (Node.statement (.select q₂)).Scoped (fun _ => True) [] :=
    Node.scoped_select.2 (hq₂.keeps [] (by simp) (hq₁.keeps [] (by simp)
      (Node.scoped_select.1 hscoped)))
  refine ⟨(scoped_emulatePagination h₂ hids hscoped₂).resolved, fun r hr => ⟨?_, fun aliases => ?_⟩⟩
  · exact (hasQuery_emulatePagination h₂ hids hr r.aliases).2 ⟨r, hr, rfl, rfl⟩
  · exact (hasQuery_emulatePagination h₂ hids hr aliases).1

end Statement

namespace Sample

/-- The points of the second and the third player, from a derived table in no stated order. -/
def report : Query where
  id := ⟨2⟩
  columns := [{ expr := .column { query := ⟨1⟩, index := 1, dataType := .int32 } }]
  sources := [{ id := ⟨2⟩, origin := .query { runnersUp with filter := none, orderBy := [] } }]

/-- The same in the order of the columns. -/
def orderedReport : Query :=
  let order := [{ expr := player 1 }, { expr := points 1 }]
  { report with sources := [{
      id := ⟨2⟩
      origin := .query { runnersUp with filter := none, orderBy := order } }] }

theorem resolved_report : (Node.statement (.select report)).Resolved [] := by
  have hrows : (Node.query { runnersUp with filter := none, orderBy := [] }).Scoped (fun _ => True)
      [(.source ⟨2⟩, 0), (.query ⟨1⟩, 2)] := by
    refine (Node.scoped_query _).2 ⟨⟨?_, ?_, ?_, ?_, by simp, by simp [runnersUp],
      by simp [runnersUp], by simp⟩, ?_⟩
    · simp [runnersUp, player, points, Query.binds_eq, Source.withJoined, Source.binds]
    · simp [runnersUp, Expr.int]
    · simp [runnersUp, Expr.int]
    · exact List.forall_mem_singleton.2 ((Node.scoped_source _).2 ⟨by simp, by simp, by simp⟩)
    · simp [runnersUp, Query.bounds, Expr.int]
  have hcolumn : (Node.expr (.column { query := ⟨1⟩, index := 1, dataType := .int32 })).Scoped
      (fun _ => True) [(.source ⟨2⟩, 0), (.query ⟨1⟩, 2)] :=
    (Node.scoped_columnRef _).2 ⟨2, rfl, by decide⟩
  have hreport : (Node.query report).Scoped (fun _ => True) [] := by
    refine (Node.scoped_query _).2 ⟨⟨?_, by simp [report], by simp [report], ?_, by simp [report],
      by simp [report], by simp [report], by simp [report]⟩, by simp [report, Query.bounds]⟩
    · exact List.forall_mem_singleton.2 hcolumn
    · refine List.forall_mem_singleton.2 ((Node.scoped_source _).2 ⟨?_, by simp, by simp⟩)
      rintro _ ⟨⟩
      exact hrows
  exact (Node.scoped_select.2 hreport).resolved

theorem resolved_emulatePagination_report :
    ∃ s₁ s₂, (Statement.select report).correctPagination = .ok s₁ ∧
      s₁.fixEmptyProjection.emulatePagination = .ok s₂ ∧ (Node.statement s₂).Resolved [] ∧
        ∀ r ∈ (Node.statement s₁.fixEmptyProjection).queries,
          (Node.statement s₂).HasQuery r.id r.aliases := by
  have hreferences : ∀ r ∈ (Node.statement (.select report)).queries, ∀ e ∈ r.bounds,
      ∀ i ∈ r.opens, i ∉ (Node.expr e).references := by
    decide +kernel
  have hbounds : ∀ r ∈ (Node.statement (.select report)).queries, r.BoundsApart :=
    fun r hr e he i hi hreads => hreferences r hr e he i hi hreads.mem_references
  have hafter : Ids.after (.statement (.select orderedReport)) = ⟨3, 3⟩ := by
    rw [Ids.after, Ids.reserve, Node.walk_eq_preorder]
    decide +kernel
  have hok : (Statement.select orderedReport).emulatePagination.isOk = true := by
    rw [Statement.emulatePagination, hafter]
    decide +kernel
  obtain ⟨s₂, hs₂⟩ := Outcome.exists_of_isOk hok
  have hids : (Statement.select orderedReport).LeavesIds := fun _ => by decide +kernel
  have hordered : (Statement.select report).correctPagination = .ok (.select orderedReport) := rfl
  obtain ⟨hresolved, hqueries⟩ :=
    Statement.resolved_emulatePagination resolved_report hbounds hordered hs₂ hids
  exact ⟨.select orderedReport, s₂, hordered, hs₂, hresolved, fun r hr => (hqueries r hr).1⟩

end Sample

end SqlTree
