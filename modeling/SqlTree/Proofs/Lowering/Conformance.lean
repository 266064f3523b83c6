import SqlTree.Proofs.Lowering.Preservation
import SqlTree.Proofs.Lowering.Target

/-! # Lowered statements fit the engine

Each thing that an engine lacks is taken out of a statement by one pass, and the passes that follow
do not bring it back, neither in the queries they find nor in those they make.

Main definitions:

* `Dialect.Conforms`: what the capabilities and the configuration promise of a lowered statement.

Main statements:

* `Statement.projected_fixEmptyProjection`, `Statement.unbounded_emulatePagination`,
  `Statement.unbound_inlineAllParameters`, `Statement.targetsOnly_toSingleTable`: what single passes
  establish.
* `Dialect.projected_of_lower`, `Dialect.unbound_of_lower`, `Dialect.targetsOnly_of_lower`: what
  holds of the lowered statement, one by one.
* `Dialect.conforms_of_lower`: it holds of the lowered statement.
-/

namespace SqlTree

/-- What the capabilities of the engine and the configuration promise of the lowered form `s'` of
the statement `s`. -/
structure Dialect.Conforms (d : Dialect) (config : Config) (s s' : Statement) : Prop where
  /-- A grouped query has columns. -/
  projects : ∀ q ∈ (Node.statement s').queries, q.groupBy ≠ [] → q.columns ≠ []
  /-- No query skips rows on an engine that cannot. -/
  bounds : d.capabilities.offsetFetch = false → ∀ q ∈ (Node.statement s').queries, q.skip = none
  /-- No parameter is bound if all are to be in the text. -/
  parameters : config.inlineParameters = true →
    ∀ x ∈ (Node.statement s').parameters, x.isBound = false
  /-- On an engine with statements over one table, a deletion or an update over several sources, or
  of another source than the first one, is about its only source. -/
  target : d.capabilities.multiTableDml = false → ∀ target q t, s.scope? = some (target, q) →
    q.isMultiTable = true ∨ q.targetId? target ≠ q.sources.head?.map (·.id) →
    q.targetTable? target = some t → t.fields ≠ [] → s'.TargetsOnly t

/-! Grouped queries. -/

abbrev Query.Projected (q : Query) : Prop := q.lacksProjection = false

theorem Transform.projected_fixEmptyProjection :
    Transform.fixEmptyProjection.Yields .result (fun _ e => e.EachQuery Query.Projected)
      (fun _ q => q.EachQuery Query.Projected) (fun _ s => s.EachQuery Query.Projected) := by
  refine Transform.establishes (Node.IfQuery.ofTrees _) (fun e he => (Expr.eachQuery_iff e).2 he)
    fun {q p} h => ?_
  have hq := Query.holds_fixEmptyProjection h
  change Query.EachQuery Query.Projected (q.fixEmptyProjection p)
  generalize q.fixEmptyProjection p = q' at hq
  cases hq with
  | rebuilt hlacks h =>
    exact (Query.eachQuery_iff _).2 ⟨h.lacksProjection.trans hlacks, h.each_all⟩
  | constant _ h =>
    refine (Query.eachQuery_iff _).2 ⟨?_, { h.each_all with columns := ?_ }⟩
    · simp [Query.Projected, Query.lacksProjection, Query.addColumn]
    · exact List.forall_mem_append.2 ⟨h.each_all.columns, by simp [Expr.int]⟩

theorem Statement.projected_fixEmptyProjection (s : Statement) :
    (Node.statement s.fixEmptyProjection).All (Node.IfQuery Query.Projected) :=
  (Transform.projected_fixEmptyProjection.onStatement s).all (Node.IfQuery.ofTrees _)

/-! Bounds. -/

/-- Without bounds there are none left, and no query is grouped without columns that was not. -/
theorem Statement.unbounded_emulatePagination {s s' : Statement} (h : s.emulatePagination = .ok s')
    (hs : (Node.statement s).All (Node.IfQuery Query.Projected)) :
    (Node.statement s').All (Node.IfQuery fun q => q.Projected ∧ q.hasSkip = false) := by
  have hprojected : ∀ q r : Query, Node.IfQuery Query.Projected (.query q) →
      (r.lacksProjection = true → q.lacksProjection = true) → r.Projected := by
    intro q r hq himp
    have hq := hq q rfl
    grind
  have hyields := Transform.leads_emulatePagination (.after (.statement s))
    (C := Node.IfQuery Query.Projected) (P := fun q => q.Projected ∧ q.hasSkip = false)
    (fun q q' _ _ hskip hlacks hq => ⟨hprojected q q' hq hlacks, hskip⟩)
    (fun q hq _ r _ hskip hlacks => ⟨hprojected q r hq hlacks, hskip⟩)
  obtain ⟨σ, hrun⟩ := exists_run_emulatePagination h
  obtain ⟨-, haligned⟩ := hyields.onStatement s _ s' σ (Ids.le_refl _) hrun
  exact haligned.leads (fun _ _ h => h) (fun _ _ h => h) (fun _ _ h => h) (Node.IfQuery.ofTrees _)
    hs

/-! Parameters. -/

theorem Transform.unbound_inlineAllParameters :
    (Transform.ofFun Expr.unbind).Yields .result
      (fun _ e => (Node.expr e).All fun n => n.isBoundParameter = false)
      (fun _ q => (Node.query q).All fun n => n.isBoundParameter = false)
      (fun _ s => (Node.source s).All fun n => n.isBoundParameter = false) := by
  have hP := Node.kept_isBoundParameter.toOfTrees
  refine Transform.establishes hP (fun e he => ?_) fun {q p} h => ?_
  · change (Node.expr e.unbind).All _
    cases e with
    | parameter x => exact (Node.all_iff _).2 ⟨rfl, by simp [Expr.unbind, Node.children]⟩
    | _ => exact (Node.all_iff _).2 ⟨rfl, he⟩
  · have haligned : q.Aligned _ _ (p.rebuild q).run := h.rebuild
    exact (Node.all_query hP _).2 ⟨rfl, haligned.each_all⟩

theorem Statement.unbound_inlineAllParameters (s : Statement) :
    (Node.statement s.inlineAllParameters).All fun n => n.isBoundParameter = false :=
  (Transform.unbound_inlineAllParameters.onStatement s).all Node.kept_isBoundParameter.toOfTrees

/-! The target. -/

/-- A target that the pass for single tables looks for. -/
theorem Query.exists_target? {q : Query} {target : Option SourceId} {t : Table}
    (hshape : q.isMultiTable = true ∨ q.targetId? target ≠ q.sources.head?.map (·.id))
    (ht : q.targetTable? target = some t) (hfields : t.fields ≠ []) :
    ∃ id, q.target? target = some ⟨id, t⟩ := by
  obtain ⟨id, hid, ht⟩ := Option.bind_eq_some_iff.1 ht
  obtain ⟨source, hsource, htable⟩ := Option.bind_eq_some_iff.1 ht
  refine ⟨id, ?_⟩
  cases hfirst : q.sources.head? with
  | none =>
    have hnone : q.sources = [] := List.head?_eq_none_iff.1 hfirst
    simp [source?, allSources, hnone] at hsource
  | some first =>
    have hgetD : target.getD first.id = id := by
      cases target with
      | none => simpa [targetId?, hfirst] using hid
      | some id' => simpa [targetId?] using hid
    have hother : q.isMultiTable = false → first.id ≠ id := by
      rw [hid, hfirst] at hshape
      grind
    simpa [target?, hfirst, hgetD, hsource, htable, hfields] using hother

namespace Statement

theorem targetsOnly_iff {s : Statement} {t : Table} :
    s.TargetsOnly t ↔ ∃ target q source, s.scope? = some (target, q) ∧ q.sources = [source] ∧
      source.table? = some t ∧ source.joins = [] ∧ q.targetId? target = some source.id := by
  have htable : ∀ source : Source, source.table? = some t ↔ source.origin = .table t := by
    intro source
    unfold Source.table?
    cases source.origin <;> simp
  have hmem : ∀ {q : Query} {source : Source}, q.sources = [source] → source ∈ q.allSources := by
    intro q source hsources
    simp [Query.allSources, hsources, source.mem_withJoined_self]
  simp only [htable]
  cases s <;> simp only [TargetsOnly, query?, Targets, scope?, Option.some.injEq, Prod.mk.injEq,
    reduceCtorEq, false_and, and_false, exists_false] <;> grind

/-- With the same sources, the target is the only one still. -/
theorem Alike.targetsOnly {s s' : Statement} (h : s.Alike s') {t : Table}
    (hs : s.TargetsOnly t) : s'.TargetsOnly t := by
  obtain ⟨target, q, source, hscope, hsources, htable, hjoins, hid⟩ := targetsOnly_iff.1 hs
  cases h with
  | other hnone => simp [hnone] at hscope
  | @scope _ _ q' hs hs' hq =>
    cases hs.symm.trans hscope
    have hall := hq.sources
    have hfirst := hq.firstId_eq
    rw [hsources] at hall
    generalize hq'sources : q'.sources = ss at hall
    cases hall with
    | @cons _ source' _ _ halike hrest =>
      cases hrest
      have hjoined := halike.joined
      rw [source.withJoined_eq, source'.withJoined_eq] at hjoined
      cases hjoined with
      | cons hsame _ =>
        refine targetsOnly_iff.2 ⟨target, q', source', hs', hq'sources, hsame.table.trans htable,
          ?_, ?_⟩
        · simpa [hjoins] using halike.joins
        · rw [Query.targetId?, hfirst, ← Query.targetId?, hid, hsame.id]

/-- A deletion or an update that does not skip rows itself keeps its sources. -/
theorem alike_emulatePagination {s s' : Statement} (h : s.emulatePagination = .ok s')
    (hskips : s.skips = false) : s.Alike s' := by
  have hyields : Transform.emulatePagination.Yields (Numbering.results (.after (.statement s)))
      (fun _ _ => True) (fun q q' => q.hasSkip = false → q.Alike q') Source.Alike := by
    refine ⟨fun _ => (Numbering.results _).pure trivial, fun hp => ?_, fun h => h.alike⟩
    refine (Numbering.results _).mono (Query.holds_emulatePagination hp) fun q' hq' hskip => ?_
    cases hq' with
    | rebuilt _ h => exact h.alike
    | numbered hskip' => simp [hskip] at hskip'
    | distinct hskip' => simp [hskip] at hskip'
  obtain ⟨σ, hrun⟩ := exists_run_emulatePagination h
  obtain ⟨-, haligned⟩ := hyields.onStatement s _ s' σ (Ids.le_refl _) hrun
  cases haligned with
  | update target _ hq => exact .scope rfl rfl (hq (by simpa [skips, scope?] using hskips))
  | delete target hq => exact .scope rfl rfl (hq (by simpa [skips, scope?] using hskips))
  | _ => exact .other rfl rfl

theorem targetsOnly_toSingleTable {s : Statement} {target : Option SourceId} {q : Query}
    {t : Target} (hs : s.scope? = some (target, q)) (ht : q.target? target = some t) :
    s.toSingleTable.TargetsOnly t.table ∧ s.toSingleTable.skips = false := by
  cases s with
  | delete target' q' =>
    cases hs
    rw [toSingleTable_delete, ht]
    exact ⟨targetsOnly_iff.2 ⟨_, _, _, rfl, rfl, rfl, rfl, rfl⟩, rfl⟩
  | update target' items q' =>
    cases hs
    rw [toSingleTable_update, ht]
    exact ⟨targetsOnly_iff.2 ⟨_, _, _, rfl, rfl, rfl, rfl, rfl⟩, rfl⟩
  | _ => cases hs

end Statement

/-! The lowering. -/

namespace Dialect

variable {d : Dialect} {config : Config} {ctx : Context} {s s' : Statement}

/-- Queries by row numbers, if the engine has no bounds. -/
theorem projected_paged (hs : (Node.statement s).All (Node.IfQuery Query.Projected))
    (h : d.paged s = .ok s') :
    (Node.statement s').All (Node.IfQuery fun q =>
      q.Projected ∧ (d.capabilities.offsetFetch = false → q.hasSkip = false)) := by
  unfold paged at h
  cases hfetch : d.capabilities.offsetFetch with
  | true =>
    rw [hfetch, if_pos rfl] at h
    cases h
    intro n hn q hq
    exact ⟨hs n hn q hq, by simp⟩
  | false =>
    rw [hfetch, if_neg Bool.false_ne_true] at h
    intro n hn q hq
    obtain ⟨hprojected, hskip⟩ := Statement.unbounded_emulatePagination h hs n hn q hq
    exact ⟨hprojected, fun _ => hskip⟩

theorem targetsOnly_inlined {t : Table} (hs : s.TargetsOnly t) :
    (d.inlined config s).TargetsOnly t := by
  refine d.inlined_induction (P := fun s => s.TargetsOnly t) config hs (fun s hs => ?_)
    (fun s hs => ?_) fun s hs => ?_
  · exact s.alike_debindInsertParameters.targetsOnly hs
  · exact (s.alike_mapUp _).targetsOnly hs
  · exact (s.alike_mapUp _).targetsOnly hs

theorem targetsOnly_paged {t : Table} (hs : s.TargetsOnly t) (hskips : s.skips = false)
    (h : d.paged s = .ok s') : s'.TargetsOnly t := by
  unfold paged at h
  split at h
  · cases h
    exact hs
  · exact (Statement.alike_emulatePagination h hskips).targetsOnly hs

/-- No query of a lowered statement is grouped without columns, nor skips rows where the engine
cannot. -/
theorem projected_of_lower (hd : d.Standard) (h : d.lower config ctx s = .ok s') :
    ∀ q ∈ (Node.statement s').queries,
      q.Projected ∧ (d.capabilities.offsetFetch = false → q.hasSkip = false) := by
  obtain ⟨s₁, s₂, -, h₂, h₃⟩ := d.exists_of_lower config ctx hd.edits h
  have hkept : Node.Kept (Node.IfQuery fun q =>
      q.Projected ∧ (d.capabilities.offsetFetch = false → q.hasSkip = false)) := by
    refine Node.IfQuery.kept fun haligned hq => ⟨haligned.lacksProjection.trans hq.1, fun hd => ?_⟩
    exact (rel_isSome haligned.skip).trans (hq.2 hd)
  exact Node.forall_mem_queries.2 (hkept.convert hd h₃ (hkept.inlined d config s₂
    (projected_paged (Statement.projected_fixEmptyProjection _) h₂)))

theorem unbound_of_lower (hd : d.Standard) (h : d.lower config ctx s = .ok s')
    (hinline : config.inlineParameters = true) :
    ∀ x ∈ (Node.statement s').parameters, x.isBound = false := by
  obtain ⟨s₁, s₂, -, -, h₃⟩ := d.exists_of_lower config ctx hd.edits h
  intro x hx
  have hall : (Node.statement (d.inlined config s₂)).All fun n => n.isBoundParameter = false := by
    simp only [inlined, hinline, if_true]
    exact Statement.unbound_inlineAllParameters _
  have hall := Node.kept_isBoundParameter.convert hd h₃ hall
  rw [Node.parameters, Node.walk_eq_preorder] at hx
  obtain ⟨n, hn, hparameter⟩ := List.mem_filterMap.1 hx
  have hbound := hall n hn
  unfold Node.parameter? at hparameter
  split at hparameter
  · cases hparameter
    exact hbound
  · cases hparameter

theorem targetsOnly_of_lower (hd : d.Standard) (h : d.lower config ctx s = .ok s')
    (hmulti : d.capabilities.multiTableDml = false) {target : Option SourceId} {q : Query}
    {t : Target} (hscope : s.scope? = some (target, q)) (ht : q.target? target = some t) :
    s'.TargetsOnly t.table := by
  obtain ⟨s₁, s₂, h₁, h₂, h₃⟩ := d.exists_of_lower config ctx hd.edits h
  have hsingle : (d.single s₁).TargetsOnly t.table ∧ (d.single s₁).skips = false := by
    have halike := Statement.alike_correctPagination h₁
    simp only [single, hmulti, Bool.false_eq_true, if_false]
    cases halike with
    | other hnone => simp [hnone] at hscope
    | scope hs hs₁ hq =>
      cases hs.symm.trans hscope
      exact Statement.targetsOnly_toSingleTable hs₁ ((hq.target?_eq _).trans ht)
  have hfixed := (d.single s₁).alike_fixEmptyProjection
  have hpaged := targetsOnly_paged (hfixed.targetsOnly hsingle.1)
    (hfixed.skips_eq.trans hsingle.2) h₂
  exact (d.alike_convert ctx h₃).targetsOnly (targetsOnly_inlined hpaged)

/-- What the capabilities and the configuration promise holds of a lowered statement. -/
theorem conforms_of_lower (hd : d.Standard) (h : d.lower config ctx s = .ok s') :
    d.Conforms config s s' where
  projects q hq hgroup hcolumns := by
    have hprojected : q.lacksProjection = false := (projected_of_lower hd h q hq).1
    simp [Query.lacksProjection, hgroup, hcolumns] at hprojected
  bounds hfetch q hq := by
    simpa [Query.hasSkip] using (projected_of_lower hd h q hq).2 hfetch
  parameters hinline := unbound_of_lower hd h hinline
  target hmulti target q t hscope hshape htable hfields := by
    obtain ⟨id, ht⟩ := Query.exists_target? hshape htable hfields
    exact targetsOnly_of_lower hd h hmulti hscope ht

end Dialect

namespace Sample

/-- An engine that has neither bounds nor statements over several tables. -/
def bare : Dialect :=
  CustomDialect.dialect {
    name := "bare"
    capabilities := { offsetFetch := some false, multiTableDml := some false } }

/-- The orders of blocked customers but for the first one. -/
def laterBlocked : Query :=
  { blockedOrders with
    skip := some (.int 1)
    orderBy := [{ expr := orders.fieldRef ⟨1⟩ "id" }] }

def dropBlocked : Statement := .delete (some ⟨1⟩) laterBlocked

/-- The same over the orders alone. -/
def dropFound : Statement :=
  .delete (some ⟨3⟩) (laterBlocked.overTarget ⟨⟨1⟩, orders⟩ ⟨3⟩ "$" ⟨2⟩)

theorem toSingleTable_dropBlocked : dropBlocked.toSingleTable = dropFound := by
  have hafter : Ids.after (.statement dropBlocked) = ⟨2, 3⟩ := by
    rw [Ids.after, Ids.reserve, Node.walk_eq_preorder]
    decide +kernel
  have halias : syntheticAlias dropBlocked = "$" := by
    rw [syntheticAlias, Node.aliases, Node.walk_eq_preorder]
    decide +kernel
  have htarget : laterBlocked.target? (some ⟨1⟩) = some ⟨⟨1⟩, orders⟩ := rfl
  rw [dropBlocked, Statement.toSingleTable_delete, htarget, ← dropBlocked, hafter, halias]
  rfl

theorem exists_emulatePagination_dropFound :
    ∃ s', dropFound.fixEmptyProjection.emulatePagination = .ok s' := by
  have hafter : Ids.after (.statement dropFound.fixEmptyProjection) = ⟨3, 4⟩ := by
    rw [Ids.after, Ids.reserve, Node.walk_eq_preorder]
    decide +kernel
  refine Outcome.exists_of_isOk ?_
  rw [Statement.emulatePagination, hafter]
  decide +kernel

theorem exists_lower_dropBlocked (config : Config) :
    ∃ s', bare.lower config {} dropBlocked = .ok s' := by
  have hstandard : bare.Standard := .custom rfl rfl
  obtain ⟨s₂, hs₂⟩ := exists_emulatePagination_dropFound
  have hprepared : bare.prepared config dropBlocked = .ok (bare.inlined config s₂) := by
    change dropBlocked.toSingleTable.fixEmptyProjection.emulatePagination >>= _ = _
    rw [toSingleTable_dropBlocked, hs₂]
    rfl
  have hgeneric : bare.convert = DialectKind.generic.dialect.convert :=
    Dialect.Standard.convert_custom rfl
  obtain ⟨s', hs', -⟩ := hstandard.exists_lower hprepared fun hgives => hgives.1 hgeneric
  exact ⟨s', hs'⟩

theorem conforms_of_lower_dropBlocked :
    ∃ s', bare.lower { inlineParameters := true } {} dropBlocked = .ok s' ∧
      bare.Conforms { inlineParameters := true } dropBlocked s' ∧ s'.TargetsOnly orders := by
  obtain ⟨s', hs'⟩ := exists_lower_dropBlocked { inlineParameters := true }
  have hconforms := Dialect.conforms_of_lower (.custom rfl rfl) hs'
  exact ⟨s', hs', hconforms, hconforms.target rfl _ _ _ rfl (.inl rfl) rfl (by simp [orders])⟩

end Sample

end SqlTree
