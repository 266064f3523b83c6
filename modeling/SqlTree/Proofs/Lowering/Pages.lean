import SqlTree.Proofs.Lowering.Conformance
import SqlTree.Proofs.Lowering.Tied

/-! # The columns of pages

A query that skips rows becomes a page over a derived table with its columns and a row number. If it
has no columns, all that the derived table has is the row number. Three passes before can give it
columns: the one for orderings if it is not ordered, the one for single tables if it is the query of
a deletion or an update over several tables, and the one for projections if it is grouped.

Main definitions:

* `Query.PagedAs`: a query and the page that it becomes.
* `Query.GetsColumns`: a query that has columns when it becomes a page.
* `Statement.tested`: a statement with tests for rows in place of the queries that become such.

Main statements:

* `Statement.exists_pagedAs`: every query that skips rows becomes a page.
* `Statement.pages_have_columns_iff`: when all pages have columns.
-/

namespace SqlTree

namespace Query

/-- The second query is a page with the id and the columns of the first one, over a derived table
with these columns and a row number. -/
structure PagedAs (q q' : Query) : Prop where
  id : q'.id = q.id
  aliases : q'.aliases = q.aliases
  source : ∃ id inner, q'.sources = [{ id, origin := .query inner, aliasName := some pagedAlias }] ∧
    inner.aliases = q.aliases ++ [some rowNumberAlias]

/-- If the query skips rows, it has columns, or it is given some since it is not ordered or since it
is grouped. -/
def GetsColumns (q : Query) : Prop :=
  q.hasSkip = true → q.columns = [] → q.orderBy = [] ∨ q.groupBy ≠ []

/-- If the query skips rows, it has columns, or it is given one since it is grouped. -/
def GetsColumn (q : Query) : Prop := q.hasSkip = true → q.columns = [] → q.groupBy ≠ []

/-- The query as a test for rows. A constant stands for the columns, unless the query is still to be
ordered by them. -/
def tested (q : Query) (target : Option SourceId) : Query :=
  if (q.target? target).isSome && !q.lacksOrdering then
    { q with columns := [{ expr := .int 1 }] }
  else q

end Query

/-- The statement with a test for rows in place of the query of a deletion or an update over several
tables. -/
def Statement.tested : Statement → Statement
  | .delete target q => .delete target (q.tested target)
  | .update target items q => .update target items (q.tested target)
  | s => s

/-! Pages. -/

namespace Query

variable {q q' r : Query}

theorem columns_eq_nil_iff (h : q'.aliases = q.aliases) : q'.columns = [] ↔ q.columns = [] := by
  have hlength := congrArg List.length h
  rw [aliases, aliases, List.length_map, List.length_map] at hlength
  rw [← List.length_eq_zero_iff, hlength, List.length_eq_zero_iff]

theorem aliases_numbered (q : Query) (order : List OrderItem) :
    (q.numbered order).aliases = q.aliases ++ [some rowNumberAlias] := by
  simp [aliases, numbered]

/-- A query that skips rows becomes a page. -/
theorem Emulated.pagedAs {RE : Expr → Expr → Prop} {RS : Source → Source → Prop} {ids : Ids}
    (h : q.Emulated RE RS ids q') (hskip : q.hasSkip = true) : q.PagedAs q' := by
  have hid := h.id_eq
  have haliases := h.aliases_eq
  cases h with
  | rebuilt hnone _ => simp [hskip] at hnone
  | @numbered inner order source _ _ _ _ _ _ hclauses _ =>
    refine ⟨hid, haliases, source, inner.numbered order, by rw [page_eq], ?_⟩
    have hinner : inner.aliases = q.aliases := hclauses.aliases
    rw [aliases_numbered, hinner]
  | @distinct rows order innerId rowsSource source _ _ _ _ _ _ _ _ _ _ =>
    refine ⟨hid, haliases, source, (q.ofRows rows innerId rowsSource).numbered order,
      by rw [page_eq], ?_⟩
    have hinner : (q.ofRows rows innerId rowsSource).aliases = q.aliases :=
      q.aliases_refColumns rows.id
    rw [aliases_numbered, hinner]

end Query

/-- Every query that skips rows becomes a page. -/
theorem Statement.exists_pagedAs {s s' : Statement} (h : s.emulatePagination = .ok s') :
    ∀ q ∈ (Node.statement s).queries, q.hasSkip = true →
      ∃ q' ∈ (Node.statement s').queries, q.PagedAs q' := by
  intro q hq hskip
  by_contra hnone
  -- Without such a page, no query that skips rows had the id and the aliases.
  have hyields := Transform.comesFrom_emulatePagination (.after (.statement s))
    (P := fun q' => ¬ q.PagedAs q')
    (C := fun r => ¬ (r.hasSkip = true ∧ r.id = q.id ∧ r.aliases = q.aliases))
    (fun q₁ q₂ hsame hq₁ ⟨hskip₂, hid, haliases⟩ => by
      have haligned := Query.Aligned.of_same hsame
      have hskip₁ : q₁.hasSkip = true := (rel_isSome haligned.skip).symm.trans hskip₂
      exact hq₁ ⟨hskip₁, haligned.id.symm.trans hid, haligned.aliases.symm.trans haliases⟩)
    (fun hemulated hq' ⟨hskip₁, hid, haliases⟩ => by
      have hpaged := hemulated.pagedAs hskip₁
      refine hq' ⟨hpaged.id.trans hid, hpaged.aliases.trans haliases, ?_⟩
      rw [← haliases]
      exact hpaged.source)
  obtain ⟨σ, hrun⟩ := exists_run_emulatePagination h
  obtain ⟨-, hfrom⟩ := hyields.onStatement s _ s' σ (Ids.le_refl _) hrun
  have hs' : (Node.statement s').All (Node.IfQuery fun q' => ¬ q.PagedAs q') :=
    Node.forall_mem_queries.1 fun q' hq' hpaged => hnone ⟨q', hq', hpaged⟩
  have hs := hfrom.symm.leads (fun _ _ h => h) (fun _ _ h => h) (fun _ _ h => h)
    (Node.IfQuery.ofTrees _) hs'
  exact Node.forall_mem_queries.2 hs q hq ⟨hskip, rfl, rfl⟩

/-! What the passes before make of the columns. -/

theorem Node.IfQuery.steady {G : Query → Prop} (hskip : ∀ q : Query, q.hasSkip = false → G q)
    (hcolumns : ∀ q : Query, q.columns ≠ [] → G q)
    (hform : ∀ {q q' : Query}, q.SameForm q' → G q → G q') : Node.Steady (Node.IfQuery G) where
  toSelective := Node.IfQuery.selective G
  hasSkip := by
    rintro q hq _ ⟨⟩
    exact hskip q hq
  columns := by
    rintro q hq _ ⟨⟩
    exact hcolumns q hq
  form := by
    rintro q q' hq hG _ ⟨⟩
    exact hform hq (hG q rfl)

namespace Query

theorem GetsColumns.steady : Node.Steady (Node.IfQuery GetsColumns) := by
  refine Node.IfQuery.steady (fun q hskip => ?_) (fun q hcolumns _ h => absurd h hcolumns) ?_
  · simp [GetsColumns, hskip]
  · intro q q' h hq
    simp only [GetsColumns, ne_eq, ← List.isEmpty_iff] at hq ⊢
    rwa [h.hasSkip, h.columns, h.groupBy, h.orderBy]

theorem GetsColumn.steady : Node.Steady (Node.IfQuery GetsColumn) := by
  refine Node.IfQuery.steady (fun q hskip => ?_) (fun q hcolumns _ h => absurd h hcolumns) ?_
  · simp [GetsColumn, hskip]
  · intro q q' h hq
    simp only [GetsColumn, ne_eq, ← List.isEmpty_iff] at hq ⊢
    rwa [h.hasSkip, h.columns, h.groupBy]

end Query

theorem Query.tested_of_ordered {q : Query} {target : Option SourceId} {t : Target}
    (hq : q.Ordered) (ht : q.target? target = some t) :
    q.tested target = { q with columns := [{ expr := .int 1 }] } := by
  simp [tested, ht, hq]

theorem Statement.Alike.target?_eq {s s' : Statement} {target : Option SourceId} {q q' : Query}
    (h : s.Alike s') (hs : s.scope? = some (target, q)) (hs' : s'.scope? = some (target, q')) :
    q'.target? target = q.target? target := by
  cases h with
  | other hnone _ => simp [hnone] at hs
  | scope hscope hscope' hq =>
    rw [hscope] at hs
    rw [hscope'] at hs'
    cases hs
    cases hs'
    exact hq.target?_eq _

section Passes

variable {P : Node → Prop} (hP : Node.Steady P)

include hP

/-- The query of a deletion or an update, given an ordering. If it is ordered by its columns, they
are in the ordering when a constant takes their place. -/
theorem Query.OrderedAs.tied_tested {q q' : Query} {target : Option SourceId}
    (h : q.OrderedAs (Expr.Tied P) (Source.Tied P) q')
    (htarget : q'.target? target = q.target? target)
    (hself : q.lacksOrdering = true → P (.query q)) :
    Node.Tied P (.query (q.tested target)) (.query (q'.tested target)) := by
  have htied := h.tied_node hP hself
  unfold tested
  rw [htarget]
  cases q.target? target with
  | none => exact htied
  | some t =>
    cases h with
    | rebuilt hlacks h =>
      have haligned : Query.Aligned (Expr.Tied P) (Source.Tied P)
          { q with columns := [{ expr := .int 1 }] } { q' with columns := [{ expr := .int 1 }] } :=
        { h with columns := .cons ⟨Iff.rfl, rfl⟩ .nil }
      simpa [hlacks, h.lacksOrdering] using haligned.tied_node hP
    | @byColumns r hlacks hkeys h =>
      have hne := h.columns_orderByColumns hkeys
      have hordered : (r.orderByColumns q.orderKeys).lacksOrdering = false := by
        simpa [lacksOrdering, orderByColumns] using fun _ => hne
      suffices Node.Tied P (.query (r.orderByColumns q.orderKeys))
          (.query { r.orderByColumns q.orderKeys with columns := [{ expr := .int 1 }] }) by
        simpa [Node.Tied, hlacks, hordered] using htied.trans this
      rw [Node.Tied, Node.all_query hP.toOfTrees, Node.all_query hP.toOfTrees,
        and_iff_right (hP.columns _ hne), and_iff_right (hP.columns _ (by simp))]
      exact ⟨fun h => { h with columns := List.forall_mem_singleton.2 (hP.all_value _ _) },
        fun h => { h with columns := fun c hc => h.orderBy _ (List.mem_map_of_mem hc) }⟩

namespace Statement

variable {s s' : Statement}

theorem tied_correctPagination_tested (h : s.correctPagination = .ok s')
    (hself : ∀ q : Query, q.lacksOrdering = true → P (.query q)) :
    Node.Tied P (.statement s.tested) (.statement s'.tested) := by
  let O := Outcome.success Error
  have hquery : ∀ q q', q.OrderedAs (Expr.Tied P) (Source.Tied P) q' →
      Node.Tied P (.query q) (.query q') := fun q _ hq' => hq'.tied_node hP (hself q)
  have hyields : Transform.correctPagination.Yields O _ _ _ :=
    Transform.tied hquery hP.toSelective (fun _ => O.pure Iff.rfl) Query.holds_correctPagination
  have haligned := hyields.onStatement s s' h
  have htied := haligned.tied_node hquery hP.toOfTrees
  have halike := alike_correctPagination h
  cases haligned with
  | update target hitems hq =>
    have hq := hq.tied_tested hP (halike.target?_eq rfl rfl) (hself _)
    exact Aligned.tied_node (fun _ _ h => h) hP.toOfTrees (.update target hitems hq)
  | delete target hq =>
    have hq := hq.tied_tested hP (halike.target?_eq rfl rfl) (hself _)
    exact Aligned.tied_node (fun _ _ h => h) hP.toOfTrees (.delete target hq)
  | _ => exact htied

/-- The pass for single tables, on queries that are ordered if they have to be. -/
theorem tied_toSingleTable_tested (hs : s.Ordered) :
    Node.Tied P (.statement s.tested) (.statement s.toSingleTable) := by
  cases s with
  | delete target q =>
    have hordered : q.Ordered := ((Node.all_delete (Node.IfQuery.ofTrees _)).1 hs).self q rfl
    rw [toSingleTable_delete]
    cases ht : q.target? target with
    | none => simp [Node.Tied, tested, Query.tested, ht]
    | some t =>
      rw [Node.Tied, tested, Query.tested_of_ordered hordered ht, Node.all_delete hP.toOfTrees,
        Node.all_delete hP.toOfTrees, Query.all_overTarget hP]
  | update target items q =>
    have hordered : q.Ordered := ((Node.all_update (Node.IfQuery.ofTrees _)).1 hs).2.self q rfl
    rw [toSingleTable_update]
    cases ht : q.target? target with
    | none => simp [Node.Tied, tested, Query.tested, ht]
    | some t =>
      rw [Node.Tied, tested, Query.tested_of_ordered hordered ht, Node.all_update hP.toOfTrees,
        Node.all_update hP.toOfTrees, Query.all_overTarget hP]
      refine and_congr_left fun hq => ?_
      have hrest : Query.Rest P { q with columns := [{ expr := .int 1 }] } :=
        .of_each ((Node.all_query hP.toOfTrees _).1 hq).2
      exact (Query.all_setItems (q := q) hP hrest _ items _).symm
  | _ => exact Iff.rfl

theorem tied_fixEmptyProjection_node (s : Statement)
    (hself : ∀ q : Query, q.lacksProjection = true → P (.query q)) :
    Node.Tied P (.statement s) (.statement s.fixEmptyProjection) := by
  have hquery : ∀ q q', q.ProjectedAs (Expr.Tied P) (Source.Tied P) q' →
      Node.Tied P (.query q) (.query q') := fun q _ hq' => hq'.tied_node hP (hself q)
  have hyields : Transform.fixEmptyProjection.Yields .result _ _ _ :=
    Transform.tied hquery hP.toSelective (fun _ => Iff.rfl) Query.holds_fixEmptyProjection
  exact (hyields.onStatement s).tied_node hquery hP.toOfTrees

end Statement

end Passes

/-! All pages. -/

/-- Properties of queries that agree where a third one holds. -/
theorem Node.all_ifQuery_congr {C G G' : Query → Prop} {n : Node} (hn : n.All (IfQuery C))
    (h : ∀ q, C q → (G q ↔ G' q)) : n.All (IfQuery G) ↔ n.All (IfQuery G') :=
  forall₂_congr fun m hm => forall₂_congr fun q hq => h q (hn m hm q hq)

theorem Query.getsColumns_iff {q : Query} (hq : q.Ordered) : q.GetsColumns ↔ q.GetsColumn := by
  refine forall₂_congr fun hskip _ => or_iff_right fun horder => ?_
  simp [Ordered, lacksOrdering, hskip, horder] at hq

theorem Query.getsColumn_iff {q : Query} (hq : q.Projected) :
    q.GetsColumn ↔ (q.hasSkip = true → q.columns ≠ []) := by
  refine forall_congr' fun _ => forall_congr' fun hcolumns => ?_
  simpa [Projected, lacksProjection, hcolumns] using hq

theorem Query.eachQuery_tested {q : Query} (target : Option SourceId)
    (h : q.EachQuery Query.Ordered) : (q.tested target).EachQuery Query.Ordered := by
  unfold tested
  split
  · obtain ⟨hself, hparts⟩ := (eachQuery_iff q).1 h
    have hcolumn := (Node.IfQuery.selective Query.Ordered).all_value
    exact (eachQuery_iff _).2
      ⟨hself, { hparts with columns := List.forall_mem_singleton.2 (hcolumn _ _) }⟩
  · exact h

namespace Statement

variable {s s₁ s₄ : Statement}

theorem ordered_tested (h : s.Ordered) : s.tested.Ordered := by
  have hP := Node.IfQuery.ofTrees Query.Ordered
  cases s with
  | delete target q =>
    exact (Node.all_delete hP).2 (q.eachQuery_tested target ((Node.all_delete hP).1 h))
  | update target items q =>
    obtain ⟨hitems, hq⟩ := (Node.all_update hP).1 h
    exact (Node.all_update hP).2 ⟨hitems, q.eachQuery_tested target hq⟩
  | _ => exact h

/-- The queries that skip rows have columns when they become pages exactly if those of the statement
get columns. -/
theorem skipping_have_columns_iff (h : s.correctPagination = .ok s₁) :
    (∀ q ∈ (Node.statement s₁.toSingleTable.fixEmptyProjection).queries,
        q.hasSkip = true → q.columns ≠ []) ↔
      ∀ q ∈ (Node.statement s.tested).queries, q.GetsColumns := by
  have hordered := ordered_correctPagination h
  have hunordered : ∀ q : Query, q.lacksOrdering = true →
      Node.IfQuery Query.GetsColumns (.query q) := by
    rintro q hlacks _ ⟨⟩ _ _
    exact .inl (Query.orderBy_eq_nil hlacks)
  have hgrouped : ∀ q : Query, q.lacksProjection = true →
      Node.IfQuery Query.GetsColumn (.query q) := by
    rintro q hlacks _ ⟨⟩ _ hcolumns
    simpa [Query.lacksProjection, hcolumns] using hlacks
  rw [Node.forall_mem_queries, Node.forall_mem_queries]
  calc (Node.statement s₁.toSingleTable.fixEmptyProjection).All
        (Node.IfQuery fun q => q.hasSkip = true → q.columns ≠ [])
      ↔ (Node.statement s₁.toSingleTable.fixEmptyProjection).All (Node.IfQuery Query.GetsColumn) :=
        (Node.all_ifQuery_congr s₁.toSingleTable.projected_fixEmptyProjection
          fun _ => Query.getsColumn_iff).symm
    _ ↔ (Node.statement s₁.toSingleTable).All (Node.IfQuery Query.GetsColumn) :=
        (tied_fixEmptyProjection_node Query.GetsColumn.steady _ hgrouped).symm
    _ ↔ (Node.statement s₁.tested).All (Node.IfQuery Query.GetsColumn) :=
        (tied_toSingleTable_tested Query.GetsColumn.steady hordered).symm
    _ ↔ (Node.statement s₁.tested).All (Node.IfQuery Query.GetsColumns) :=
        (Node.all_ifQuery_congr (ordered_tested hordered) fun _ => Query.getsColumns_iff).symm
    _ ↔ (Node.statement s.tested).All (Node.IfQuery Query.GetsColumns) :=
        (tied_correctPagination_tested Query.GetsColumns.steady h hunordered).symm

/-- Every query that skips rows becomes a page, with a derived table that has a row number besides
the columns of the query. All pages have columns exactly if every query that skips rows without a
column is not ordered or is grouped, where the query of a deletion or an update over several tables
counts as a test for rows. -/
theorem pages_have_columns_iff (h₁ : s.correctPagination = .ok s₁)
    (h₄ : s₁.toSingleTable.fixEmptyProjection.emulatePagination = .ok s₄) :
    (∀ q ∈ (Node.statement s₁.toSingleTable.fixEmptyProjection).queries, q.hasSkip = true →
        ∃ q' ∈ (Node.statement s₄).queries, q.PagedAs q') ∧
      ((∀ q ∈ (Node.statement s₁.toSingleTable.fixEmptyProjection).queries, q.hasSkip = true →
          ∀ q' ∈ (Node.statement s₄).queries, q.PagedAs q' → q'.columns ≠ []) ↔
        ∀ q ∈ (Node.statement s.tested).queries, q.GetsColumns) := by
  have hpages := exists_pagedAs h₄
  refine ⟨hpages, ?_⟩
  rw [← skipping_have_columns_iff h₁]
  refine forall₂_congr fun q hq => forall_congr' fun hskip => ?_
  constructor
  · intro hall
    obtain ⟨q', hq', hpaged⟩ := hpages q hq hskip
    rw [ne_eq, ← Query.columns_eq_nil_iff hpaged.aliases]
    exact hall q' hq' hpaged
  · intro hcolumns q' _ hpaged
    rwa [ne_eq, Query.columns_eq_nil_iff hpaged.aliases]

end Statement

namespace Sample

theorem pages_have_columns_dropBlocked :
    ∃ s₄, dropBlocked.toSingleTable.fixEmptyProjection.emulatePagination = .ok s₄ ∧
      ∃ q ∈ (Node.statement dropBlocked.toSingleTable.fixEmptyProjection).queries,
        q.hasSkip = true ∧
          ∃ q' ∈ (Node.statement s₄).queries, q.PagedAs q' ∧ q'.columns ≠ [] := by
  obtain ⟨s₄, hs₄⟩ := exists_emulatePagination_dropFound
  rw [← toSingleTable_dropBlocked] at hs₄
  have htested : (Node.statement dropBlocked.tested).queries =
      [{ laterBlocked with columns := [{ expr := .int 1 }] }] := rfl
  have hgets : ∀ q ∈ (Node.statement dropBlocked.tested).queries, q.GetsColumns := by
    rw [htested, List.forall_mem_singleton]
    simp [Query.GetsColumns]
  obtain ⟨hpages, hcolumns⟩ := Statement.pages_have_columns_iff (s := dropBlocked) rfl hs₄
  have hskips : (Node.statement dropFound.fixEmptyProjection).queries.any Query.hasSkip = true := by
    decide +kernel
  rw [← toSingleTable_dropBlocked] at hskips
  obtain ⟨q, hq, hskip⟩ := List.any_eq_true.1 hskips
  obtain ⟨q', hq', hpaged⟩ := hpages q hq hskip
  exact ⟨s₄, hs₄, q, hq, hskip, q', hq', hpaged, hcolumns.2 hgets q hq hskip q' hq' hpaged⟩

/-- All columns of the orders but for the first one. -/
def laterOrders : Query where
  id := ⟨1⟩
  skip := some (.int 1)
  sources := [{ id := ⟨1⟩, origin := .table orders }]
  orderBy := [{ expr := orders.fieldRef ⟨1⟩ "id" }]

/-- The page has no columns, and its derived table has the row number in their place. -/
theorem columns_page_laterOrders_eq_nil :
    ∃ s₁ s₄, (Statement.select laterOrders).correctPagination = .ok s₁ ∧
      s₁.toSingleTable.fixEmptyProjection.emulatePagination = .ok s₄ ∧
        ∃ q ∈ (Node.statement s₄).queries, q.columns = [] ∧ ∃ id inner,
          q.sources = [{ id, origin := .query inner, aliasName := some pagedAlias }] ∧
            inner.aliases = [some rowNumberAlias] := by
  let s := Statement.select laterOrders
  have hafter : Ids.after (.statement s) = ⟨2, 2⟩ := by
    rw [Ids.after, Ids.reserve, Node.walk_eq_preorder]
    decide +kernel
  have hok : s.emulatePagination.isOk = true := by
    rw [Statement.emulatePagination, hafter]
    decide +kernel
  obtain ⟨s₄, hs₄⟩ := Outcome.exists_of_isOk hok
  have hqueries : (Node.statement s).queries = [laterOrders] := rfl
  obtain ⟨q, hq, hpaged⟩ := Statement.exists_pagedAs hs₄ laterOrders (by simp [hqueries]) rfl
  exact ⟨s, s₄, rfl, hs₄, q, hq, (Query.columns_eq_nil_iff hpaged.aliases).2 rfl, hpaged.source⟩

end Sample

end SqlTree
