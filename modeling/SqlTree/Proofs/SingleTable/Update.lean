import SqlTree.Proofs.SingleTable.Deletion
import SqlTree.Proofs.SingleTable.Renumber

/-! # Updates keep their meaning

An update over joined sources assigns values that are read in an environment of its query. The
update of the target alone reads them at a row: values that depend on the row alone directly, and
others in a copy of the query that is tied to the row. If a row occurs in one environment only,
these are the same values.

Main statements:

* `Query.eval_retargeted`: a value that reads the target alone, read at the new source.
* `Query.eval_correlatedValue`: a value that is read in a copy of the query.
* `Statement.updated?_toSingleTable`: the same rows get the same values.
-/

namespace SqlTree

section Single

variable {V : Type} [DecidableEq V] {db : Database V}

/-- The value of a query with one environment and one column, without bounds, order or groups. -/
theorem Query.single?_of_bindings {q : Query} {c : Column} (hcolumns : q.columns = [c])
    (hgroups : q.groupsRows = false) (hskip : q.skip = none) (htake : q.take = none)
    (horderBy : q.orderBy = []) {env b : Env V} (hb : (q.scan db).bindings env = some [b])
    (hgroup : b.group = none) {v : V} (hv : c.expr.eval db b = some v) :
    (q.scan db).single? db.engine env = some v := by
  have hgrouped : q.isGrouped = false := by
    have haggregates : c.expr.aggregates = false := c.expr.aggregates_eq_false hgroup hv
    simp_all [isGrouped, groupsRows]
  rw [← units_of_not_isGrouped db env hgrouped] at hb
  have hcolumn : ∀ peers i, c.eval db peers i b = some v := fun peers i =>
    (Column.eval_of_rowNumberKeys? db b (Expr.rowNumberKeys?_eq_none hv) peers i).trans hv
  have hentries : (q.scan db).entries [b] = some [([v], [])] := by
    simp [scan_eq, Scan.entries, evalColumns, evalOrder, hcolumns, horderBy, hcolumn]
  have hbounds := bounds_of_unbounded db env hskip htake
  have hrows : (q.scan db).rows db.engine env = some [[v]] := by
    simp [Scan.rows, hb, hentries, hbounds, Scan.arrange, distinctOn]
  have hfirst : (q.scan db).first b = some v := by
    simp [scan_eq, evalFirst, hcolumns, hcolumn]
  unfold Scan.single?
  split
  · simp [hrows]
  · simp [hb, hfirst]

end Single

/-! Values that read the target alone. -/

/-- Of what the query brings into scope, such a value refers to the target alone. -/
theorem Query.eq_of_readsOnly {q : Query} {target : SourceId} {e : Expr}
    (h : q.readsOnly target e = true) {i : Ident} (hi : i ∈ (Node.expr e).references)
    (hq : i ∈ q.opens) : i = .source target := by
  obtain ⟨n, hn, href⟩ := List.mem_filterMap.1 hi
  obtain ⟨s, hs, hopens⟩ := List.mem_flatMap.1 hq
  rw [← Node.walk_eq_preorder] at hn
  simp only [readsOnly, Expr.contains, Node.contains, Bool.not_eq_true', List.any_eq_false] at h
  have hnode := h n hn
  unfold Node.refersTo? at href
  split at href
  · -- A field of a source of the query is one of the target.
    rename_i f
    obtain rfl := Option.some.inj href
    have hmem : (q.allSources.any fun s => s.id == f.source) = true :=
      List.any_eq_true.2 ⟨s, hs, by simpa using (s.source_mem_opens.1 hopens).symm⟩
    simpa [hmem] using hnode
  · rename_i c
    obtain rfl := Option.some.inj href
    obtain ⟨derived, horigin, hid⟩ := s.query_mem_opens.1 hopens
    refine absurd ?_ hnode
    simp only [List.contains_iff_mem, List.mem_filterMap]
    exact ⟨s, hs, by simp [horigin, hid]⟩
  · cases href

/-- The new name of the target. -/
def Target.retarget (t : Target) (outer : SourceId) : Renaming := { sources := [(t.id, outer)] }

theorem Target.ident_retarget (t : Target) (outer : SourceId) (i : Ident) :
    (t.retarget outer).ident i = if i = .source t.id then .source outer else i := by
  cases i with
  | query id => rfl
  | source id =>
    by_cases h : id = t.id
    · simp [retarget, Renaming.ident, Renaming.source, h]
    · have hne : (id == t.id) = false := by simpa using h
      simp [retarget, Renaming.ident, Renaming.source, hne, h]

/-- A value that reads the target alone has at the new source the value that it has in an
environment with the same row for the target. -/
theorem Query.eval_retargeted {V : Type} [DecidableEq V] {db : Database V} {q : Query} {t : Target}
    {outer : SourceId} {value : Expr} {b : Env V} {x : Row V}
    (hreads : q.readsOnly t.id value = true)
    (hdeclared : ∀ i ∈ (Node.expr value).declared, i ≠ .source outer ∧ i ≠ .source t.id)
    (htarget : Ident.source t.id ≠ .source outer) (hb : Env.empty.AgreeOff q.offered b)
    (hx : b.source t.id = some x) :
    Refines Eq (value.eval db b)
      ((value.rename {} (t.retarget outer)).eval db (Env.empty.bindSource outer x)) := by
  have hsim : Simulation {} (t.retarget outer) (· ∈ (Node.expr value).declared)
      (· ∈ (Node.expr value).references)
      (Frame.Carries (V := V) (t.retarget outer) (· ≠ .source outer)
        (· ∈ (Node.expr value).references) outer x) := by
    refine Frame.Carries.simulation (fun i hi => (hdeclared i hi).1) (fun i hi => ?_)
      (fun i j hi hj heq => ?_) (fun i hi => ?_)
    · rw [Renaming.ident_empty, t.ident_retarget, if_neg (hdeclared i hi).2]
    · rw [t.ident_retarget, t.ident_retarget] at heq
      grind
    · rw [Renaming.ident_empty]
      exact (hdeclared i hi).1
  have hgroup : Option.Rel (List.Forall₂ (Frame.Carries (t.retarget outer) (· ≠ .source outer)
      (· ∈ (Node.expr value).references) outer x)) b.group none := by
    rw [hb.group]
    exact .none
  refine (hsim.expr (Node.all_within (fun _ h => h) fun _ h => h)).eval
    ⟨⟨Env.source_bindSource_self .., fun id y hN hy => ?_, fun id vs hN hvs => ?_⟩, hgroup⟩
  · by_cases hq : .source id ∈ q.offered
    · obtain rfl : id = t.id := Ident.source.inj (Query.eq_of_readsOnly hreads hN
        (q.offered_sublist_opens.subset hq))
      have hsource : (t.retarget outer).source t.id = outer :=
        Ident.source.inj ((t.ident_retarget outer (.source t.id)).trans (if_pos rfl))
      rw [hx] at hy
      rw [hsource, Env.source_bindSource_self]
      exact ⟨htarget, hy⟩
    · rw [hb.source id hq] at hy
      cases hy
  · by_cases hq : .query id ∈ q.offered
    · cases Query.eq_of_readsOnly hreads hN
        (q.offered_sublist_opens.subset hq)
    · rw [hb.derived id hq] at hvs
      cases hvs

/-! Values that are read in a copy of the query. -/

variable {tables : String → Option (List (Row Value))}

open Classical in
/-- A value over a copy of the query has at a row the value that it has in the environment of the
query with this row, if there is only one. -/
theorem Query.eval_correlatedValue {q : Query} {t : Target} {rows : List (Row Value)}
    {outer : SourceId} {value : Expr} {ids : Ids} {bs : List (Env Value)} {b : Env Value}
    {x : Row Value} {v : Value} (h : q.TargetRows tables t rows) (hgroups : q.groupsRows = false)
    (hskip : q.skip = none) (htake : q.take = none) (hnodup : (Node.query q).declared.Nodup)
    (hquery : ∀ i ∈ (Node.query q).declared, i.Below ids)
    (hvalue : ∀ i ∈ (Node.expr value).declared,
      i.Below ids ∧ i ∉ (Node.query q).declared ∧ i ≠ .source outer)
    (houter : (Ident.source outer).Below ids) (hx : x ∈ rows)
    (hbs : (q.scan (.integers tables)).bindings .empty = some bs)
    (honly : (bs.filter fun b => decide (b.source t.id = some x)) = [b])
    (hv : value.eval (.integers tables) b = some v) :
    ((q.correlatedValue value t outer).run ids).1.eval (.integers tables)
      (Env.empty.bindSource outer x) = some v := by
  obtain ⟨hnames, -⟩ := q.renumber_spec hnodup ids
  rw [q.run_correlatedValue hnodup]
  generalize (q.renumber ids).2 = r at hnames
  -- One relation for the copy, which is renamed, and for the value, which keeps its own ids.
  have hcopy : Simulation r.names r.names (· ∈ (Node.query q).declared) (fun _ => True)
      (Frame.Carries (V := Value) r.names (Ident.Below ids) (fun _ => True) outer x) :=
    Frame.Carries.simulation hquery (fun _ _ => rfl) (fun i j hi hj => hnames.eq_of_ident_eq hi hj)
      fun i hi => hnames.ident_ne hi houter
  have hown : Simulation {} r.names (· ∈ (Node.expr value).declared) (fun _ => True)
      (Frame.Carries (V := Value) r.names (Ident.Below ids) (fun _ => True) outer x) := by
    refine Frame.Carries.simulation (fun i hi => (hvalue i hi).1) (fun i hi => ?_)
      (fun i j hi hj => hnames.eq_of_ident_eq hi hj) fun i hi => ?_
    · rw [Renaming.ident_empty, hnames.ident_of_notMem (hvalue i hi).2.1]
    · rw [Renaming.ident_empty]
      exact (hvalue i hi).2.2
  have hmatch : ClausesMatch (.integers tables) _ q (q.rename r.names r.names) :=
    hcopy.query (Node.all_within (fun _ h => h) fun _ _ => trivial)
  have hkeyed := bindings_addKey { q.rename r.names r.names with
    columns := [{ expr := value.rename {} r.names }], orderBy := [] } h hx trivial hmatch.sources
    hmatch.filter (Env.lift_carries_empty r.names _ _ outer x)
  obtain ⟨bs', hbs', hkept⟩ := hkeyed bs hbs
  rw [honly] at hkept
  obtain ⟨b', hlift, rfl⟩ : ∃ b', b.Lift
      (Frame.Carries r.names (Ident.Below ids) (fun _ => True) outer x) b' ∧ bs' = [b'] := by
    cases hkept with
    | cons hlift hnil =>
      cases hnil
      exact ⟨_, hlift, rfl⟩
  have hv' := ((hown.expr (Node.all_within (fun _ h => h) fun _ _ => trivial)).eval hlift).eq_some
    hv
  obtain ⟨cs, hcs, hb'⟩ := mem_bindSources_of_mem_bindings hbs' List.mem_cons_self
  rw [addFilter?_eq] at hbs' ⊢
  refine single?_of_bindings rfl ?_ ?_ ?_ rfl hbs' (agreeOff_of_mem_bindSources hcs hb').group hv'
  · have hungrouped : q.groupBy.isEmpty = true ∧ q.having.isSome = false := by
      simp_all [groupsRows, isGrouped]
    simpa [groupsRows, isGrouped, rename_eq] using hungrouped
  · simp [rename_eq, hskip]
  · simp [rename_eq, htake]

/-! Values to be set. -/

theorem Query.HasTarget.mem_opens {q : Query} {t : Target} (h : q.HasTarget t) :
    .source t.id ∈ q.opens := by
  obtain ⟨s, hs, hid, -⟩ := h.source
  exact List.mem_flatMap.2 ⟨s, hs, Source.source_mem_opens.2 hid.symm⟩

theorem Query.HasTarget.mem_declared {q : Query} {t : Target} (h : q.HasTarget t) :
    .source t.id ∈ (Node.query q).declared :=
  q.opens_sublist_declared.subset h.mem_opens

theorem filter_eq_singleton {α β : Type} {f : α → β} {xs : List α} (h : (xs.map f).Nodup) {a : α}
    (ha : a ∈ xs) {p : α → Bool} (hp : ∀ b, p b = true ↔ f b = f a) : xs.filter p = [a] := by
  induction xs with
  | nil => simp at ha
  | cons x xs ih =>
    rw [List.map_cons, List.nodup_cons] at h
    rcases List.mem_cons.1 ha with rfl | ha
    · have hnone : xs.filter p = [] := by
        rw [List.filter_eq_nil_iff]
        intro b hb hpb
        exact h.1 ((hp b).1 hpb ▸ List.mem_map_of_mem hb)
      rw [List.filter_cons_of_pos ((hp a).2 rfl), hnone]
    · have hx : ¬ p x = true := fun hpx => h.1 ((hp x).1 hpx ▸ List.mem_map_of_mem ha)
      rw [List.filter_cons_of_neg hx, ih h.2 ha]

/-- A value of an update: its own ids differ from those of the query and the new source. -/
structure Query.SetScope (q : Query) (outer : SourceId) (ids : Ids) (value : Expr) : Prop where
  below : ∀ i ∈ (Node.expr value).declared, i.Below ids
  notMem : ∀ i ∈ (Node.expr value).declared, i ∉ (Node.query q).declared
  ne_outer : ∀ i ∈ (Node.expr value).declared, i ≠ .source outer

theorem Query.SetScope.mono {q : Query} {outer : SourceId} {ids ids' : Ids} {value : Expr}
    (h : q.SetScope outer ids value) (hle : ids ≤ ids') : q.SetScope outer ids' value :=
  { h with below := fun i hi => Ids.below_mono (h.below i hi) hle }

theorem Query.setScope_of_mem {q : Query} {items : List SetItem} {ids : Ids}
    (hbelow : ∀ i ∈ items.flatMap fun i => (Node.expr i.expr).declared, i.Below ids)
    (hdisjoint : (items.flatMap fun i => (Node.expr i.expr).declared).Disjoint
      (Node.query q).declared) {item : SetItem} (hitem : item ∈ items) :
    q.SetScope ids.drawSource.1 ids.drawSource.2 item.expr := by
  have hmem : ∀ i ∈ (Node.expr item.expr).declared,
      i ∈ items.flatMap fun i => (Node.expr i.expr).declared :=
    fun i hi => List.mem_flatMap.2 ⟨item, hitem, hi⟩
  exact
    { below := fun i hi => Ids.below_mono (hbelow i (hmem i hi)) (Ids.le_drawSource ids)
      notMem := fun i hi => hdisjoint (hmem i hi)
      ne_outer := fun i hi => Ids.ne_drawSource (hbelow i (hmem i hi)) }

theorem Query.run_setValue_of_readsOnly {q : Query} {t : Target} {value : Expr}
    (h : q.readsOnly t.id value = true) (outer : SourceId) (ids : Ids) :
    (q.setValue t outer value).run ids = (value.rename {} (t.retarget outer), ids) := by
  unfold setValue
  rw [if_pos h, ← Expr.mapUp_reference]
  rfl

theorem Query.setValue_of_not_readsOnly {q : Query} {t : Target} {value : Expr}
    (h : ¬ q.readsOnly t.id value = true) (outer : SourceId) :
    q.setValue t outer value = q.correlatedValue value t outer :=
  if_neg h

theorem Query.le_run_setValue {q : Query} (hnodup : (Node.query q).declared.Nodup) (t : Target)
    (outer : SourceId) (value : Expr) (ids : Ids) :
    ids ≤ ((q.setValue t outer value).run ids).2 := by
  by_cases hreads : q.readsOnly t.id value = true
  · rw [run_setValue_of_readsOnly hreads]
    exact Ids.le_refl ids
  · rw [setValue_of_not_readsOnly hreads, q.run_correlatedValue hnodup]
    exact (q.renumber_spec hnodup ids).1.le

/-- A value that is set has at a row the value that it has in the only environment with this row. -/
theorem Query.eval_setValue {q : Query} {t : Target} {rows : List (Row Value)} {outer : SourceId}
    {value : Expr} {ids : Ids} {bs : List (Env Value)} {b : Env Value} {x : Row Value}
    (h : q.TargetRows tables t rows) (hgroups : q.groupsRows = false) (hskip : q.skip = none)
    (htake : q.take = none) (hnodup : (Node.query q).declared.Nodup)
    (hquery : ∀ i ∈ (Node.query q).declared, i.Below ids ∧ i ≠ .source outer)
    (hvalue : q.SetScope outer ids value) (houter : (Ident.source outer).Below ids)
    (hbs : (q.scan (.integers tables)).bindings .empty = some bs)
    (hunique : (bs.map fun b => b.source t.id).Nodup) (hb : b ∈ bs)
    (hbx : b.source t.id = some x) :
    Refines Eq (value.eval (.integers tables) b)
      (((q.setValue t outer value).run ids).1.eval (.integers tables)
        (Env.empty.bindSource outer x)) := by
  classical
  obtain ⟨cs, hcs, hbcs⟩ := q.mem_bindSources_of_mem_bindings hbs hb
  by_cases hreads : q.readsOnly t.id value = true
  · rw [run_setValue_of_readsOnly hreads]
    have hvalue' : ∀ i ∈ (Node.expr value).declared, i ≠ .source outer ∧ i ≠ .source t.id :=
      fun i hi => ⟨hvalue.ne_outer i hi, fun heq =>
        hvalue.notMem i hi (heq ▸ h.target.mem_declared)⟩
    exact Query.eval_retargeted hreads hvalue' (hquery _ h.target.mem_declared).2
      (agreeOff_of_mem_bindSources hcs hbcs) hbx
  · rw [setValue_of_not_readsOnly hreads]
    obtain ⟨y, hy, hby⟩ := h.exists_row hcs hbcs
    rw [hby] at hbx
    cases hbx
    have honly : (bs.filter fun b => decide (b.source t.id = some x)) = [b] :=
      filter_eq_singleton hunique hb fun c => by simp [hby]
    intro v hv
    refine ⟨v, ?_, rfl⟩
    exact Query.eval_correlatedValue h hgroups hskip htake hnodup (fun i hi => (hquery i hi).1)
      (fun i hi => ⟨hvalue.below i hi, hvalue.notMem i hi, hvalue.ne_outer i hi⟩) houter hy hbs
      honly hv

/-- The assignment of a value as it is read at the row of the new source. -/
def Query.setItem (q : Query) (t : Target) (outer : SourceId) (i : SetItem) :
    StateM Ids SetItem :=
  return { i with expr := ← q.setValue t outer i.expr }

theorem Query.run_setItems {q : Query} (hnodup : (Node.query q).declared.Nodup) (t : Target)
    (outer : SourceId) (items : List SetItem) (ids : Ids) :
    let out := (items.mapM (q.setItem t outer)).run ids
    ids ≤ out.2 ∧ List.Forall₂ (fun i i' => i'.column = i.column ∧
      ∃ ids', ids ≤ ids' ∧ i'.expr = ((q.setValue t outer i.expr).run ids').1) items out.1 := by
  induction items generalizing ids with
  | nil => exact ⟨Ids.le_refl ids, .nil⟩
  | cons i items ih =>
    have hle := q.le_run_setValue hnodup t outer i.expr ids
    obtain ⟨hle', hitems⟩ := ih ((q.setValue t outer i.expr).run ids).2
    rw [List.mapM_cons]
    refine ⟨Ids.le_trans hle hle', .cons ⟨rfl, ids, Ids.le_refl ids, rfl⟩ ?_⟩
    refine hitems.imp fun i i' ⟨hcolumn, ids', hids', hexpr⟩ => ?_
    exact ⟨hcolumn, ids', Ids.le_trans hle hids', hexpr⟩

namespace Statement

theorem toSingleTable_update (target : Option SourceId) (items : List SetItem) (q : Query) :
    (Statement.update target items q).toSingleTable =
      match q.target? target with
      | none => .update target items q
      | some t =>
        let ids := Ids.after (.statement (.update target items q))
        let outer := ids.drawSource.1
        let out := (items.mapM (q.setItem t outer)).run ids.drawSource.2
        .update (some outer) out.1
          (q.overTarget t outer (syntheticAlias (.update target items q)) out.2.drawQuery.1) := by
  simp only [toSingleTable, singleTable]
  cases q.target? target <;> rfl

/-- The values assigned at a row are those assigned in the only environment with this row. -/
theorem assigned?_setItems {items : List SetItem} {q : Query} {t : Target} {outer : SourceId}
    {ids : Ids} {rows : List (Row Value)} {bs : List (Env Value)} {b : Env Value} {x : Row Value}
    (h : q.TargetRows tables t rows) (hgroups : q.groupsRows = false) (hskip : q.skip = none)
    (htake : q.take = none) (hnodup : (Node.query q).declared.Nodup)
    (hquery : ∀ i ∈ (Node.query q).declared, i.Below ids ∧ i ≠ .source outer)
    (hitems : ∀ i ∈ items, q.SetScope outer ids i.expr) (houter : (Ident.source outer).Below ids)
    (hbs : (q.scan (.integers tables)).bindings .empty = some bs)
    (hunique : (bs.map fun b => b.source t.id).Nodup) (hb : b ∈ bs)
    (hbx : b.source t.id = some x) :
    Refines Eq (assigned? (.integers tables) items b)
      (assigned? (.integers tables) ((items.mapM (q.setItem t outer)).run ids).1
        (Env.empty.bindSource outer x)) := by
  obtain ⟨-, hrun⟩ := q.run_setItems hnodup t outer items ids
  refine Refines.mapM_eq ((List.forall₂_and_left _ _).2 ⟨hitems, hrun⟩) ?_
  rintro i i' ⟨hscope, hcolumn, ids', hle, hexpr⟩
  rw [hcolumn, hexpr]
  refine (Query.eval_setValue h hgroups hskip htake hnodup (fun j hj => ?_) (hscope.mono hle)
    (Ids.below_mono houter hle) hbs hunique hb hbx).map fun _ _ hv => hv ▸ rfl
  exact ⟨Ids.below_mono (hquery j hj).1 hle, (hquery j hj).2⟩

/-- The update of the target alone, whatever ids its query gets. -/
theorem updated?_overTarget {target : Option SourceId} {items : List SetItem} {q : Query}
    {t : Target} {outer : SourceId} {ids : Ids} {rows : List (Row Value)}
    {updates : List (Row Value × List (String × Value))} (hid : q.targetId? target = some t.id)
    (htr : q.TargetRows tables t rows) (hskip : q.skip = none) (htake : q.take = none)
    (hnodup : (Node.query q).declared.Nodup)
    (hquery : ∀ i ∈ (Node.query q).declared, i.Below ids ∧ i ≠ .source outer)
    (hitems : ∀ i ∈ items, q.SetScope outer ids i.expr) (houter : (Ident.source outer).Below ids)
    (h : (Statement.update target items q).updated? (.integers tables) = some updates)
    (hunique : (updates.map (·.1)).Nodup) (aliasName : String) (queryId : QueryId) :
    ∃ updates', (Statement.update (some outer) ((items.mapM (q.setItem t outer)).run ids).1
        (q.overTarget t outer aliasName queryId)).updated? (.integers tables) = some updates' ∧
      ∀ u, u ∈ updates' ↔ u ∈ updates := by
  obtain ⟨targetId, htargetId, h⟩ := Option.bind_eq_some_iff.1 h
  obtain ⟨bs, hbs, h⟩ := Option.bind_eq_some_iff.1 h
  obtain rfl : t.id = targetId := by simpa [hid] using htargetId
  rw [Query.selected?_of_unbounded _ hskip htake] at hbs
  obtain ⟨hgroups, hbs⟩ := Option.ite_none_left_eq_some.1 hbs
  have hgroups : q.groupsRows = false := by simpa using hgroups
  obtain ⟨found, hfound, hmem⟩ := Query.exists_selected?_overTarget htr hgroups hskip htake
    (fun i hi => (hquery i hi).2) hbs
  have hsources : (bs.map fun b => b.source t.id).Nodup := by
    have hrows : (bs.map fun b => b.source t.id) = updates.map fun u => some u.1 := by
      rw [← List.forall₂_eq_eq_eq, List.forall₂_map_left_iff, List.forall₂_map_right_iff]
      exact (forall₂_of_mapM h).imp fun b u hu => ((assignment?_eq_some _).1 hu).1
    rw [hrows, ← Function.comp_def some, ← List.map_map]
    exact hunique.map fun _ _ => Option.some.inj
  generalize hitems' : ((items.mapM (q.setItem t outer)).run ids).1 = items'
  have hassigned : ∀ b ∈ bs, ∀ {u}, assignment? (.integers tables) t.id items b = some u →
      assigned? (.integers tables) items' (Env.empty.bindSource outer u.1) = some u.2 := by
    intro b hb u hu
    obtain ⟨hsource, hvalues⟩ := (assignment?_eq_some _).1 hu
    rw [← hitems']
    exact (assigned?_setItems htr hgroups hskip htake hnodup hquery hitems houter hbs hsources hb
      hsource).eq_some hvalues
  have hvalues : ∀ x ∈ found, ∃ vs, (x, vs) ∈ updates ∧
      assigned? (.integers tables) items' (Env.empty.bindSource outer x) = some vs := by
    intro x hx
    obtain ⟨b, hb, hbx⟩ := (hmem x).1 hx
    obtain ⟨u, hu⟩ := exists_of_mapM h hb
    obtain rfl : u.1 = x := by simpa [hbx] using ((assignment?_eq_some _).1 hu).1.symm
    exact ⟨u.2, (mem_mapM h).2 ⟨b, hb, hu⟩, hassigned b hb hu⟩
  choose! values hmemValues hassignedValues using hvalues
  refine ⟨found.map fun x => (x, values x), ?_, fun u => ?_⟩
  · have hrows : found.mapM (fun x => assignment? (.integers tables) outer items'
        (Env.empty.bindSource outer x)) = some (found.map fun x => (x, values x)) :=
      mapM_eq_some fun x hx => (assignment?_eq_some _).2 ⟨by simp, hassignedValues x hx⟩
    simpa [updated?, Query.targetId?, hfound, Function.comp_def] using hrows
  · rw [List.mem_map]
    constructor
    · rintro ⟨x, hx, rfl⟩
      exact hmemValues x hx
    · intro hu
      obtain ⟨b, hb, hbu⟩ := (mem_mapM h).1 hu
      have hx : u.1 ∈ found := (hmem u.1).2 ⟨b, hb, ((assignment?_eq_some _).1 hbu).1⟩
      refine ⟨u.1, hx, Prod.ext rfl ?_⟩
      exact Option.some.inj ((hassignedValues u.1 hx).symm.trans (hassigned b hb hbu))

/-- If each row of the target is found by one environment at most, an update writes the same values
to the same rows when it is put over its target alone. -/
theorem updated?_toSingleTable {target : Option SourceId} {items : List SetItem} {q : Query}
    (hids : (Statement.update target items q).Numbered)
    (hfree : (Statement.update target items q).HasFreeIds) (hinner : q.InnerJoined)
    (hskip : q.skip = none) (htake : q.take = none) (hdb : q.Conforms tables)
    {updates : List (Row Value × List (String × Value))}
    (h : (Statement.update target items q).updated? (.integers tables) = some updates)
    (hunique : (updates.map (·.1)).Nodup) :
    ∃ updates', (Statement.update target items q).toSingleTable.updated? (.integers tables) =
      some updates' ∧ ∀ u, u ∈ updates' ↔ u ∈ updates := by
  rw [toSingleTable_update]
  cases ht : q.target? target with
  | none => exact ⟨updates, h, fun _ => Iff.rfl⟩
  | some t =>
    obtain ⟨hid, htarget⟩ := Query.target?_eq_some ht
    have hdeclared := hids.declared_nodup
    have hbelow := Ids.below_after hfree
    rw [Node.declared_update] at hdeclared hbelow
    obtain ⟨-, hnodup, hdisjoint⟩ := List.nodup_append'.1 hdeclared
    obtain ⟨hbelow, hbelowQuery⟩ := List.forall_mem_append.1 hbelow
    obtain ⟨rows, htr⟩ := q.exists_targetRows htarget hdb hinner hnodup
    refine updated?_overTarget hid htr hskip htake hnodup (fun i hi => ?_)
      (fun item hitem => q.setScope_of_mem hbelow hdisjoint hitem) (Nat.lt_succ_self _) h hunique
      _ _
    have hi' := hbelowQuery i hi
    exact ⟨Ids.below_mono hi' (Ids.le_drawSource _), Ids.ne_drawSource hi'⟩

end Statement

namespace Sample

/-- Marks the orders of blocked customers: one value reads the order, the other one the customer. -/
def markBlocked : Statement :=
  .update none
    [⟨"id", .operation .add (orders.fieldRef ⟨1⟩ "id") (.int 100) .int32⟩,
      ⟨"customer", customers.fieldRef ⟨2⟩ "blocked"⟩] blockedOrders

theorem numbered_markBlocked : markBlocked.Numbered :=
  .of_declared (by decide)

theorem hasFreeIds_markBlocked : markBlocked.HasFreeIds := by
  decide

theorem updated?_markBlocked :
    markBlocked.updated? (.integers shop) =
        some [(order 1 (some 7), [("id", some 101), ("customer", some 1)])] ∧
      ∃ updates, markBlocked.toSingleTable.updated? (.integers shop) = some updates ∧
        ∀ u, u ∈ updates ↔ u ∈ [(order 1 (some 7), [("id", some 101), ("customer", some 1)])] :=
  ⟨rfl, Statement.updated?_toSingleTable numbered_markBlocked hasFreeIds_markBlocked
    (by unfold Query.InnerJoined; decide) rfl rfl conforms_blockedOrders rfl
    (List.nodup_singleton _)⟩

end Sample

end SqlTree
