import SqlTree.Proofs.SingleTable.Update

/-! # Statements over a single table are well formed

The new parts of a statement have ids that are not in use, and they refer to the new source or to
their own copies of the old ones.

Main definitions:

* `Statement.Targets`: the source that a deletion or an update is about.
* `Statement.TargetsOnly`: the statement has no other source.

Main statements:

* `Query.inScope_correlatedFilter`, `Query.inScope_setValue`: the new parts are in scope.
* `Query.draws_setValue`, `Query.draws_setItems`: the ids of values that are set.
* `Statement.nodup_toSingleTable`: no id is declared twice by the statement over the target alone.
* `Statement.wellFormed_toSingleTable`: it is well formed.
-/

namespace SqlTree

/-! The key condition. -/

/-- What holds of fields of both sources and passes to operations and tests for NULL holds of the
key condition. -/
theorem Table.keyEquality_induction {P : Expr → Prop} {t : Table} {inner outer : SourceId}
    (field : ∀ f : FieldRef, f.source = inner ∨ f.source = outer → P (.field f))
    (operation : ∀ op l r type, P l → P r → P (.operation op l r type))
    (isNull : ∀ e, P e → P e.isNull) : ∀ e ∈ t.keyEquality inner outer, P e := by
  have hfieldRef : ∀ id, id = inner ∨ id = outer → ∀ name, P (t.fieldRef id name) := by
    intro id hid name
    unfold fieldRef
    split
    · exact field _ hid
    · exact field _ hid
  have hcondition : ∀ e ∈ t.keyConditions inner outer, P e := by
    refine List.forall_mem_map.2 fun f _ => ?_
    have hi := hfieldRef inner (.inl rfl) f.name
    have ho := hfieldRef outer (.inr rfl) f.name
    unfold Expr.nullSafeEq
    split
    · exact operation _ _ _ _ (operation _ _ _ _ hi ho)
        (operation _ _ _ _ (isNull _ hi) (isNull _ ho))
    · exact operation _ _ _ _ hi ho
  have hfoldl : ∀ (cs : List Expr) (c : Expr), P c → (∀ e ∈ cs, P e) → P (cs.foldl Expr.and c) := by
    intro cs
    induction cs with
    | nil => exact fun c hc _ => hc
    | cons d cs ih =>
      intro c hc hcs
      exact ih _ (operation _ _ _ _ hc (hcs d List.mem_cons_self))
        fun e he => hcs e (List.mem_cons_of_mem d he)
  intro e he
  unfold keyEquality at he
  split at he
  · cases he
  · rename_i c cs hc
    rw [hc] at hcondition
    cases he
    exact hfoldl cs c (hcondition c List.mem_cons_self)
      fun e he => hcondition e (List.mem_cons_of_mem c he)

theorem Table.declared_keyEquality (t : Table) (inner outer : SourceId) :
    ∀ e ∈ t.keyEquality inner outer, (Node.expr e).declared = [] :=
  keyEquality_induction (fun _ _ => rfl)
    (fun _ _ _ _ hl hr => by simp [Expr.operation, hl, hr]) fun _ he => by simp [Expr.isNull, he]

theorem Table.inScope_keyEquality (t : Table) {inner outer : SourceId} {scope : List Ident}
    (hinner : .source inner ∈ scope) (houter : .source outer ∈ scope) :
    ∀ e ∈ t.keyEquality inner outer, (Node.expr e).InScope scope := by
  refine keyEquality_induction (fun f hf => (Node.inScope_field f).2 ?_)
    (fun _ _ _ _ hl hr => (Node.inScope_binary ..).2 ⟨hl, hr⟩) fun _ he => ?_
  · rcases hf with hf | hf
    · exact hf ▸ hinner
    · exact hf ▸ houter
  · exact (Node.inScope_raw ..).2 (by simpa using he)

namespace Query

theorem declared_addFilter? {q : Query} {o : Option Expr}
    (ho : ∀ e ∈ o, (Node.expr e).declared = []) :
    (Node.query (q.addFilter? o)).declared = (Node.query q).declared := by
  cases o with
  | none => rfl
  | some e =>
    have he := ho e rfl
    rw [addFilter?, addFilter, Node.declared_query q]
    cases q.filter <;> simp [Node.declared_query, Expr.and, Expr.operation, he]

theorem inScope_addFilter? {q : Query} {o : Option Expr} {scope : List Ident}
    (hq : (Node.query q).InScope scope)
    (ho : ∀ e ∈ o, (Node.expr e).InScope (q.opens ++ scope)) :
    (Node.query (q.addFilter? o)).InScope scope := by
  cases o with
  | none => exact hq
  | some e =>
    obtain ⟨f, hf, heq⟩ : ∃ f, (Node.expr f).InScope (q.opens ++ scope) ∧
        q.addFilter? (some e) = { q with filter := some f } := by
      unfold addFilter? addFilter
      cases hfilter : q.filter with
      | none => exact ⟨e, ho e rfl, rfl⟩
      | some old =>
        have hold := ((Node.inScope_query q).1 hq).filter old hfilter
        exact ⟨Expr.and old e, (Node.inScope_binary ..).2 ⟨hold, ho e rfl⟩, rfl⟩
    rw [heq]
    refine (Node.inScope_query _).2 { (Node.inScope_query q).1 hq with filter := ?_ }
    intro _ he
    cases he
    exact hf

/-- A query without some of its clauses declares no more. -/
theorem declared_clauses_sublist (q : Query) {os : List OrderItem} (hos : os.Sublist q.orderBy) :
    (Node.query { q with columns := [], orderBy := os }).declared.Sublist
      (Node.query q).declared := by
  rw [Node.declared_query, Node.declared_query q]
  refine .cons_cons _ (List.sublist_append_of_sublist_right ?_)
  simp only [List.flatMap_nil, List.nil_append, List.append_sublist_append_left]
  exact hos.flatMap _

/-- The columns of a query declare their ids apart from those of the other clauses. -/
theorem declared_columns_perm (q : Query) (cs : List Column) :
    (Node.query { q with columns := cs }).declared.Perm
      ((cs.flatMap fun c => (Node.expr c.expr).declared) ++
        (Node.query { q with columns := [] }).declared) := by
  rw [Node.declared_query, Node.declared_query]
  exact List.perm_middle.symm

/-- The query with other columns and fewer order items. -/
theorem inScope_columns {q : Query} {scope : List Ident} (h : (Node.query q).InScope scope)
    {c : Column} (hc : (Node.expr c.expr).InScope (q.opens ++ scope)) {os : List OrderItem}
    (hos : os ⊆ q.orderBy) :
    (Node.query { q with columns := [c], orderBy := os }).InScope scope := by
  have hq := (Node.inScope_query q).1 h
  exact (Node.inScope_query _).2 { hq with
    columns := List.forall_mem_singleton.2 hc
    orderBy := fun o ho => hq.orderBy o (hos ho) }

/-! The test for rows. -/

theorem declared_correlatedFilter_sublist (q : Query) (t : Target) (outer : SourceId) :
    (Node.query (q.correlatedFilter t outer)).declared.Sublist (Node.query q).declared := by
  rw [correlatedFilter, declared_addFilter? (t.table.declared_keyEquality t.id outer)]
  exact q.declared_clauses_sublist (.refl _)

theorem inScope_correlatedFilter {q : Query} {t : Target} (ht : q.HasTarget t) {outer : SourceId}
    (h : (Node.query q).InScope []) :
    (Node.query (q.correlatedFilter t outer)).InScope [.source outer] := by
  refine inScope_addFilter? (inScope_columns (h.mono (List.nil_subset _))
    (Node.inScope_value _ _) (List.Subset.refl _)) (t.table.inScope_keyEquality ?_ ?_)
  · exact List.mem_append_left _ ht.mem_opens
  · simp

/-! The values that are set. -/

variable {q : Query} {t : Target} {outer : SourceId} {value : Expr} {ids : Ids}

theorem inScope_setValue (ht : q.HasTarget t) (hnodup : (Node.query q).declared.Nodup)
    (hvalue : q.SetScope outer ids value) (hq : (Node.query q).InScope [])
    (h : (Node.expr value).InScope q.opens) :
    (Node.expr ((q.setValue t outer value).run ids).1).InScope [.source outer] := by
  by_cases hreads : q.readsOnly t.id value = true
  · have htarget : (Node.expr value).InScope [.source t.id] :=
      h.of_references fun i hi hmem => List.mem_singleton.2 (eq_of_readsOnly hreads hi hmem)
    have hrename := Expr.inScope_rename (d := {}) (r := t.retarget outer) (fun i hi => ?_) htarget
    · rw [run_setValue_of_readsOnly hreads]
      simpa [t.ident_retarget] using hrename
    · rw [Renaming.ident_empty, t.ident_retarget, if_neg]
      rintro rfl
      exact hvalue.notMem _ hi ht.mem_declared
  · obtain ⟨hnames, -⟩ := q.renumber_spec hnodup ids
    rw [setValue_of_not_readsOnly hreads, q.run_correlatedValue hnodup]
    generalize (q.renumber ids).2 = r at hnames
    have hopens : (q.rename r.names r.names).opens = q.opens.map r.names.ident := q.opens_rename ..
    -- The value is read in the scope of the copy.
    have hcolumn : (Node.expr (value.rename {} r.names)).InScope
        (q.rename r.names r.names).opens := by
      rw [hopens]
      refine Expr.inScope_rename (fun i hi => ?_) h
      rw [Renaming.ident_empty, hnames.ident_of_notMem (hvalue.notMem i hi)]
    have hcopy : (Node.query (q.rename r.names r.names)).InScope [.source outer] :=
      (inScope_rename hq).mono (List.nil_subset _)
    refine (Node.inScope_subquery _).2 (inScope_addFilter? (inScope_columns hcopy
      (hcolumn.mono (List.subset_append_left _ _)) (List.nil_subset _))
      (t.table.inScope_keyEquality (List.mem_append_left _ ?_) (by simp)))
    exact hopens ▸ List.mem_map.2 ⟨_, ht.mem_opens, rfl⟩

end Query

namespace Query

variable {q : Query} (t : Target) (outer : SourceId) {value : Expr} {ids : Ids}

theorem draws_setValue (hnodup : (Node.query q).declared.Nodup)
    (hvalue : ∀ i ∈ (Node.expr value).declared, i.Below ids)
    (h : (Node.expr value).declared.Nodup) :
    let out := (q.setValue t outer value).run ids
    Ids.Draws (Node.expr value).declared ids out.2 (Node.expr out.1).declared := by
  have hkeep : ∀ r, (Node.expr (value.rename {} r)).declared = (Node.expr value).declared :=
    fun r => ((Tree.declared_rename_closed {} r).onExpr value).trans (Renaming.map_ident_empty _)
  by_cases hreads : q.readsOnly t.id value = true
  · simp only [run_setValue_of_readsOnly hreads, hkeep]
    exact ⟨Ids.le_refl ids, h, fun i hi => .inl hi⟩
  · obtain ⟨hnames, -⟩ := q.renumber_spec hnodup ids
    rw [setValue_of_not_readsOnly hreads, q.run_correlatedValue hnodup]
    generalize (q.renumber ids).2 = r at hnames
    simp only [Node.declared_subquery, declared_addFilter? (t.table.declared_keyEquality _ _)]
    have hperm := declared_columns_perm { q.rename r.names r.names with orderBy := [] }
      [{ expr := value.rename {} r.names }]
    have hsub := declared_clauses_sublist (q.rename r.names r.names) (List.nil_sublist _)
    rw [(Tree.declared_rename_closed r.names r.names).onQuery q] at hsub
    simp only [List.flatMap_singleton, hkeep] at hperm
    have hfresh := fun i hi => List.mem_map.1 (hsub.subset (a := i) hi)
    refine ⟨hnames.le, hperm.nodup_iff.2 (List.nodup_append'.2 ⟨h, ?_, fun i hi hi' => ?_⟩),
      fun i hi => ?_⟩
    · exact (hnodup.map_on hnames.inj).sublist hsub
    · obtain ⟨j, hj, rfl⟩ := hfresh i hi'
      exact hnames.fresh j hj (hvalue _ hi)
    · rcases List.mem_append.1 (hperm.mem_iff.1 hi) with hi | hi
      · exact .inl hi
      · obtain ⟨j, hj, rfl⟩ := hfresh i hi
        exact .inr ⟨hnames.fresh j hj, hnames.below j hj⟩

theorem draws_setItems (hnodup : (Node.query q).declared.Nodup) {items : List SetItem}
    (hitems : ∀ i ∈ items.flatMap fun i => (Node.expr i.expr).declared, i.Below ids)
    (h : (items.flatMap fun i => (Node.expr i.expr).declared).Nodup) :
    let out := (items.mapM (q.setItem t outer)).run ids
    Ids.Draws (items.flatMap fun i => (Node.expr i.expr).declared) ids out.2
      (out.1.flatMap fun i => (Node.expr i.expr).declared) := by
  induction items generalizing ids with
  | nil => exact ⟨Ids.le_refl ids, List.nodup_nil, fun i hi => .inl hi⟩
  | cons item items ih =>
    rw [List.flatMap_cons] at h hitems ⊢
    obtain ⟨hvalue, hrest, hdisjoint⟩ := List.nodup_append'.1 h
    obtain ⟨hbelow, hbelows⟩ := List.forall_mem_append.1 hitems
    have hfirst := draws_setValue t outer hnodup hbelow hvalue
    have hothers := ih (fun i hi => Ids.below_mono (hbelows i hi) hfirst.le) hrest
    rw [List.mapM_cons]
    exact hfirst.append hothers hdisjoint hbelow hbelows

end Query

namespace Statement

/-- The source is the one that a deletion or an update is about. -/
def Targets : Statement → Source → Prop
  | .delete target q, s => s ∈ q.allSources ∧ q.targetId? target = some s.id
  | .update target _ q, s => s ∈ q.allSources ∧ q.targetId? target = some s.id
  | _, _ => False

/-- The statement is about its only source, over the table, to which nothing is joined. -/
def TargetsOnly (s : Statement) (t : Table) : Prop :=
  ∃ q source, s.query? = some q ∧ q.sources = [source] ∧ source.origin = .table t ∧
    source.joins = [] ∧ s.Targets source

end Statement

namespace Query

variable {q : Query} {t : Target} {outer : SourceId}

theorem declared_overTarget (aliasName : String) (id : QueryId) :
    (Node.query (q.overTarget t outer aliasName id)).declared =
      .query id :: .source outer :: (Node.query (q.correlatedFilter t outer)).declared := by
  have hsource : ∀ a, (Node.source ⟨outer, .table t.table, a, []⟩).declared = [.source outer] := by
    intro a
    rw [Node.declared_source]
    rfl
  rw [Node.declared_query]
  simp [overTarget, hsource]

theorem nodup_overTarget (hnodup : (Node.query q).declared.Nodup) {aliasName : String}
    {id : QueryId} (houter : .source outer ∉ (Node.query q).declared)
    (hid : .query id ∉ (Node.query q).declared) :
    (Node.query (q.overTarget t outer aliasName id)).declared.Nodup := by
  have hsub := q.declared_correlatedFilter_sublist t outer
  rw [declared_overTarget, List.nodup_cons, List.nodup_cons]
  refine ⟨?_, fun hmem => houter (hsub.subset hmem), hnodup.sublist hsub⟩
  rintro (_ | ⟨_, hmem⟩)
  exact hid (hsub.subset hmem)

theorem opens_overTarget (aliasName : String) (id : QueryId) :
    (q.overTarget t outer aliasName id).opens = [.source outer] := rfl

theorem inScope_overTarget (ht : q.HasTarget t) (h : (Node.query q).InScope [])
    (aliasName : String) (id : QueryId) :
    (Node.query (q.overTarget t outer aliasName id)).InScope [] := by
  have hfilter : (Node.expr (.existsRow (q.correlatedFilter t outer))).InScope [.source outer] :=
    (Node.inScope_existsRow _).2 (inScope_correlatedFilter ht h)
  have hsource : ∀ a, (Node.source ⟨outer, .table t.table, a, []⟩).InScope [.source outer] :=
    fun a => (Node.inScope_source _).2 ⟨by simp, by simp, by simp⟩
  rw [Node.inScope_query, opens_overTarget]
  constructor <;> simp [overTarget, hfilter, hsource]

end Query

namespace Statement

variable {target : Option SourceId} {q : Query} {t : Target} {ids : Ids}

theorem nodup_deleteOverTarget (h : (Node.query q).declared.Nodup)
    (hids : ∀ i ∈ (Node.query q).declared, i.Below ids) (aliasName : String) :
    (Node.query (q.overTarget t ids.drawSource.1 aliasName
      ids.drawSource.2.drawQuery.1)).declared.Nodup := by
  refine Query.nodup_overTarget h (fun hmem => ?_) (fun hmem => ?_)
  · exact Ids.ne_drawSource (hids _ hmem) rfl
  · exact Ids.ne_drawQuery (Ids.below_mono (hids _ hmem) (Ids.le_drawSource ids)) rfl

theorem wellFormed_deleteOverTarget (h : (Statement.delete target q).WellFormed)
    (hids : ∀ i ∈ (Node.query q).declared, i.Below ids) (ht : q.HasTarget t) (aliasName : String) :
    (Statement.delete (some ids.drawSource.1)
      (q.overTarget t ids.drawSource.1 aliasName ids.drawSource.2.drawQuery.1)).WellFormed := by
  rw [wellFormed_iff, Node.declared_delete, Node.inScope_delete] at h ⊢
  exact ⟨nodup_deleteOverTarget h.1 hids aliasName, Query.inScope_overTarget ht h.2 _ _⟩

theorem nodup_updateOverTarget {items : List SetItem}
    (h : (Node.statement (.update target items q)).declared.Nodup)
    (hids : ∀ i ∈ (Node.statement (.update target items q)).declared, i.Below ids)
    (aliasName : String) :
    let out := (items.mapM (q.setItem t ids.drawSource.1)).run ids.drawSource.2
    (Node.statement (.update (some ids.drawSource.1) out.1
      (q.overTarget t ids.drawSource.1 aliasName out.2.drawQuery.1))).declared.Nodup := by
  intro out
  rw [Node.declared_update] at h hids
  obtain ⟨hvalues, hq, hdisjoint⟩ := List.nodup_append'.1 h
  obtain ⟨hbelow, hbelowQuery⟩ := List.forall_mem_append.1 hids
  have hmono : ∀ {i : Ident}, i.Below ids → i.Below ids.drawSource.2 :=
    fun hi => Ids.below_mono hi (Ids.le_drawSource ids)
  have hdraws := Query.draws_setItems t ids.drawSource.1 hq
    (fun i hi => hmono (hbelow i hi)) hvalues
  have hle := hdraws.le
  rw [Node.declared_update]
  refine List.nodup_append'.2 ⟨hdraws.nodup, Query.nodup_overTarget hq ?_ ?_, ?_⟩
  · exact fun hmem => Ids.ne_drawSource (hbelowQuery _ hmem) rfl
  · exact fun hmem => Ids.ne_drawQuery (Ids.below_mono (hmono (hbelowQuery _ hmem)) hle) rfl
  · -- What a value declares is as old as the values or newer than the new source.
    intro i hi hmem
    rw [Query.declared_overTarget] at hmem
    rcases hdraws.mem i hi with hold | ⟨hfresh, hnew⟩
    · rcases hmem with _ | ⟨_, _ | ⟨_, hmem⟩⟩
      · exact Ids.ne_drawQuery (Ids.below_mono (hmono (hbelow _ hold)) hle) rfl
      · exact Ids.ne_drawSource (hbelow _ hold) rfl
      · exact hdisjoint hold ((q.declared_correlatedFilter_sublist _ _).subset hmem)
    · rcases hmem with _ | ⟨_, _ | ⟨_, hmem⟩⟩
      · exact Ids.ne_drawQuery hnew rfl
      · exact hfresh (Nat.lt_succ_self _)
      · exact hfresh (hmono (hbelowQuery i
          ((q.declared_correlatedFilter_sublist _ _).subset hmem)))

theorem wellFormed_updateOverTarget {items : List SetItem}
    (h : (Statement.update target items q).WellFormed)
    (hids : ∀ i ∈ (Node.statement (.update target items q)).declared, i.Below ids)
    (ht : q.HasTarget t) (aliasName : String) :
    let out := (items.mapM (q.setItem t ids.drawSource.1)).run ids.drawSource.2
    (Statement.update (some ids.drawSource.1) out.1
      (q.overTarget t ids.drawSource.1 aliasName out.2.drawQuery.1)).WellFormed := by
  intro out
  rw [wellFormed_iff, Node.inScope_update] at h ⊢
  obtain ⟨hnodup, hitems, hquery⟩ := h
  refine ⟨nodup_updateOverTarget hnodup hids aliasName, ?_, Query.inScope_overTarget ht hquery _ _⟩
  intro i' hi'
  rw [Node.declared_update] at hnodup hids
  obtain ⟨-, hq, hdisjoint⟩ := List.nodup_append'.1 hnodup
  obtain ⟨hbelow, -⟩ := List.forall_mem_append.1 hids
  obtain ⟨i, hi, -, ids', hids', hexpr⟩ :=
    exists_of_forall₂ (q.run_setItems hq t ids.drawSource.1 items ids.drawSource.2).2 hi'
  have hscope := (q.setScope_of_mem hbelow hdisjoint hi).mono hids'
  rw [hexpr, Query.opens_overTarget]
  exact Query.inScope_setValue ht hq hscope hquery (List.append_nil q.opens ▸ hitems i hi)

/-- A statement keeps its ids apart when it is put over its target alone. -/
theorem nodup_toSingleTable {s : Statement} (h : (Node.statement s).declared.Nodup)
    (hfree : s.toSingleTable ≠ s → s.HasFreeIds) :
    (Node.statement s.toSingleTable).declared.Nodup := by
  by_cases hsame : s.toSingleTable = s
  · rwa [hsame]
  have hbelow := Ids.below_after (hfree hsame)
  cases s with
  | delete target q =>
    rw [toSingleTable_delete]
    cases q.target? target with
    | none => exact h
    | some t =>
      rw [Node.declared_delete] at h hbelow ⊢
      exact nodup_deleteOverTarget h hbelow _
  | update target items q =>
    rw [toSingleTable_update]
    cases q.target? target with
    | none => exact h
    | some t => exact nodup_updateOverTarget h hbelow _
  | _ => exact h

/-- A well-formed statement is well formed when it is put over its target alone, and then it is
about its only source, over the table of the former target. -/
theorem wellFormed_toSingleTable {s : Statement} (h : s.WellFormed) (hfree : s.HasFreeIds) :
    s.toSingleTable.WellFormed ∧ (s.toSingleTable = s ∨ ∃ source t, s.Targets source ∧
      source.origin = .table t ∧ s.toSingleTable.TargetsOnly t) := by
  have hbelow := Ids.below_after hfree
  cases s with
  | delete target q =>
    rw [toSingleTable_delete]
    cases ht : q.target? target with
    | none => exact ⟨h, .inl rfl⟩
    | some t =>
      obtain ⟨hid, htarget⟩ := Query.target?_eq_some ht
      obtain ⟨source, hsource, hsourceId, horigin⟩ := htarget.source
      rw [Node.declared_delete] at hbelow
      refine ⟨wellFormed_deleteOverTarget h hbelow htarget _, .inr ⟨source, t.table,
        ⟨hsource, hsourceId ▸ hid⟩, horigin, _, _, rfl, rfl, rfl, rfl, List.mem_singleton_self _,
        rfl⟩⟩
  | update target items q =>
    rw [toSingleTable_update]
    cases ht : q.target? target with
    | none => exact ⟨h, .inl rfl⟩
    | some t =>
      obtain ⟨hid, htarget⟩ := Query.target?_eq_some ht
      obtain ⟨source, hsource, hsourceId, horigin⟩ := htarget.source
      refine ⟨wellFormed_updateOverTarget h hbelow htarget _, .inr ⟨source, t.table,
        ⟨hsource, hsourceId ▸ hid⟩, horigin, _, _, rfl, rfl, rfl, rfl, List.mem_singleton_self _,
        rfl⟩⟩
  | _ => exact ⟨h, .inl rfl⟩

end Statement

namespace Sample

theorem wellFormed_markBlocked : markBlocked.WellFormed where
  queryIds := numbered_markBlocked.queryIds
  sourceIds := numbered_markBlocked.sourceIds
  inScope := Node.inScope_of_opens rfl (by decide)

theorem wellFormed_toSingleTable_markBlocked :
    markBlocked.toSingleTable.WellFormed ∧ markBlocked.toSingleTable.TargetsOnly orders := by
  obtain ⟨hwf, h⟩ := Statement.wellFormed_toSingleTable wellFormed_markBlocked
    hasFreeIds_markBlocked
  rcases h with h | ⟨source, t, ⟨hsource, hid⟩, horigin, honly⟩
  · cases h
  · refine ⟨hwf, ?_⟩
    simp [blockedOrders, Query.allSources, Source.withJoined, joinedSources] at hsource
    rcases hsource with rfl | rfl
    · cases horigin
      exact honly
    · cases hid

end Sample

end SqlTree
