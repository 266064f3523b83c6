import SqlTree.Proofs.Semantics.Bindings
import SqlTree.Proofs.Semantics.Renaming
import SqlTree.Proofs.SingleTable.Key

/-! # Queries tied to a row

A query with the key condition, read at a row of the target table, leads to those environments of
the query that hold this row for the target. Where a join can extend rows by NULLs for the target,
these can also be environments without a row of the target: NULLs agree with a row that is NULL in
all key fields.

Main definitions:

* `Query.TargetTable`: a target over a table with given rows; `Query.TargetRows`: one that is inner
  joined.
* `Target.AtKey`: an environment that holds the key of a row for the target.

Main statements:

* `Query.bindings_addFilter`: one more condition leaves over the environments that meet it.
* `Query.bindings_addKey`: the key condition leaves over the environments at one row.
* `Query.hasRow_correlatedFilter`: when the tied query has a row.
* `Query.selected?_overTarget`: the rows of the target for which the query has a row.
-/

namespace SqlTree

variable {tables : String → Option (List (Row Value))}

theorem distinctOn_eq_nil {α β : Type} [DecidableEq β] {f : α → β} {xs : List α} :
    distinctOn f xs = [] ↔ xs = [] := by
  cases xs <;> simp [distinctOn]

theorem Scan.arrange_eq_nil {V : Type} [DecidableEq V] {e : Engine V} {c : Scan V}
    {es : List (List V × List V)} : c.arrange e es = [] ↔ es = [] := by
  rw [arrange, ← List.length_eq_zero_iff, List.length_mergeSort, List.length_eq_zero_iff]
  split
  · exact distinctOn_eq_nil
  · rfl

namespace Query

theorem addFilter?_eq (q : Query) (o : Option Expr) :
    q.addFilter? o = { q with filter := o.toList.foldl conjoin q.filter } := by
  cases o with
  | none => cases q; rfl
  | some e => exact foldl_addFilter [e] q

theorem evalCondition_conjoin (o : Option Expr) (e : Expr) (b : Env Value) :
    evalCondition (.integers tables) b (conjoin o e) =
      (evalCondition (.integers tables) b o).bind fun holds =>
        (e.eval (.integers tables) b).map fun v => holds && v.isTrue := by
  unfold conjoin
  cases o with
  | none => simp [evalCondition]
  | some old =>
    cases hold : old.eval (.integers tables) b with
    | none => simp [evalCondition, Expr.and, Expr.operation, Expr.eval, hold]
    | some a =>
      cases he : e.eval (.integers tables) b with
      | none => simp [evalCondition, Expr.and, Expr.operation, Expr.eval, hold, he]
      | some v =>
        have hand : (Expr.and old e).eval (.integers tables) b = some (a.and v) :=
          Expr.eval_operation hold he
        simp [evalCondition, hand, hold]

/-- One more condition leaves over the environments that meet it. -/
theorem bindings_addFilter {P : Frame Value → Frame Value → Prop} {q q' : Query} {e : Expr}
    {p : Env Value → Prop} [DecidablePred p]
    (hsources : List.Forall₂ (Source.Matches (.integers tables) P) q.sources q'.sources)
    (hfilter : Option.Rel (Expr.Matches (.integers tables) P) q.filter q'.filter)
    {env env' : Env Value} (henv : env.Lift P env')
    (he : ∀ {bs}, bindSources (.integers tables) env q.sources = some bs → ∀ b ∈ bs,
      ∀ b' : Env Value, b.Lift P b' → e.Decides tables b' (p b)) :
    Refines (fun bs bs' => List.Forall₂ (Env.Lift P) (bs.filter fun b => decide (p b)) bs')
      ((q.scan (.integers tables)).bindings env)
      (((q'.addFilter? (some e)).scan (.integers tables)).bindings env') := by
  rw [addFilter?_eq, bindings_eq, bindings_eq]
  simp only [Option.toList_some, List.foldl_cons, List.foldl_nil]
  refine (bindSources_refines hsources henv).bind_of_eq fun bs bs' hbs hlift => ?_
  have hboth := (List.forall₂_and_left bs bs').2 ⟨he hbs, hlift⟩
  refine .flatMapM_of_append .nil ?_ hboth fun b b' hb => ?_
  · intro l l' m m' hl hm
    rw [List.filter_append]
    exact List.rel_append hl hm
  · obtain ⟨v, hv, htrue⟩ := hb.1 b' hb.2
    unfold Env.keepIf
    rw [evalCondition_conjoin, hv]
    intro l hl
    obtain ⟨holds, hholds, rfl⟩ := Option.map_eq_some_iff.1 hl
    have hholds' := (evalCondition_refines hfilter hb.2).eq_some hholds
    refine ⟨_, by simp [hholds']; rfl, ?_⟩
    cases holds with
    | false => simp
    | true =>
      by_cases hp : p b
      · simp [htrue.2 hp, hp, hb.2]
      · have hfalse : v.isTrue = false := Bool.eq_false_iff.2 fun h => hp (htrue.1 h)
        simp [hp, hfalse]

/-- The target is a source of the query over a table with known fields. -/
structure HasTarget (q : Query) (t : Target) : Prop where
  fields : t.table.fields ≠ []
  source : ∃ s ∈ q.allSources, s.id = t.id ∧ s.origin = .table t.table

theorem target?_eq_some {q : Query} {target : Option SourceId} {t : Target}
    (h : q.target? target = some t) : q.targetId? target = some t.id ∧ q.HasTarget t := by
  unfold target? at h
  obtain ⟨first, hfirst, h⟩ := Option.bind_eq_some_iff.1 h
  simp only at h
  split at h
  · cases h
  obtain ⟨s, hs, h⟩ := Option.bind_eq_some_iff.1 h
  obtain ⟨table, htable, h⟩ := Option.bind_eq_some_iff.1 h
  split at h
  · cases h
  rename_i hfields
  cases h
  have hid : q.targetId? target = some (target.getD first.id) := by simp [targetId?, hfirst]
  refine ⟨hid, by simpa using hfields, s, List.mem_of_find?_eq_some hs, ?_, ?_⟩
  · simpa using List.find?_some hs
  · unfold Source.table? at htable
    split at htable
    · cases htable
      assumption
    · cases htable

/-- The target is a source of the query over a table with these rows. -/
structure TargetTable (tables : String → Option (List (Row Value))) (q : Query) (t : Target)
    (rows : List (Row Value)) : Prop where
  target : q.HasTarget t
  tables_eq : tables t.table.name = some rows
  fits : t.table.Fits none rows
  offered : q.offered.Nodup

/-- The target is an inner joined source of the query over a table with these rows, which its key
tells apart. -/
structure TargetRows (tables : String → Option (List (Row Value))) (q : Query) (t : Target)
    (rows : List (Row Value)) : Prop extends q.TargetTable tables t rows where
  conforms : t.table.Conforms none rows
  inner : q.InnerJoined

/-- The environments that the sources lead to hold rows of the target table, or NULLs if a join can
extend rows by them. -/
theorem TargetTable.exists_row_or_nulls {q : Query} {t : Target} {rows : List (Row Value)}
    (h : q.TargetTable tables t rows) {env b : Env Value} {bs : List (Env Value)}
    (hbs : bindSources (.integers tables) env q.sources = some bs) (hb : b ∈ bs) :
    ∃ y, b.source t.id = some y ∧ (y ∈ rows ∨ (y = .nulls none ∧ q.Extends t.id)) := by
  obtain ⟨s, hs, hid, horigin⟩ := h.target.source
  obtain ⟨y, hby, hy⟩ := q.atRow_of_mem_bindSources h.offered hbs hb s hs t.table horigin
  rw [hid] at hby hy
  rcases hy with ⟨rows', hrows', hy⟩ | hy
  · rw [Database.integers_tables, h.tables_eq] at hrows'
    cases hrows'
    exact ⟨y, hby, .inl hy⟩
  · exact ⟨y, hby, .inr hy⟩

theorem TargetRows.exists_row {q : Query} {t : Target} {rows : List (Row Value)}
    (h : q.TargetRows tables t rows) {env b : Env Value} {bs : List (Env Value)}
    (hbs : bindSources (.integers tables) env q.sources = some bs) (hb : b ∈ bs) :
    ∃ y ∈ rows, b.source t.id = some y := by
  obtain ⟨y, hby, hy | ⟨-, hext⟩⟩ := h.exists_row_or_nulls hbs hb
  · exact ⟨y, hy, hby⟩
  · exact absurd hext (h.inner.not_extends t.id)

end Query

/-- The environment holds a row for the target that agrees with `x` in the key fields. -/
def Target.AtKey (t : Target) (x : Row Value) (b : Env Value) : Prop :=
  ∃ y, b.source t.id = some y ∧ ∀ f ∈ t.table.keyFields, y f.name = x f.name

namespace Query

/-- An environment with the key of a row of an inner joined target holds this row. -/
theorem TargetRows.atKey_iff {q : Query} {t : Target} {rows : List (Row Value)}
    (h : q.TargetRows tables t rows) {env b : Env Value} {bs : List (Env Value)}
    (hbs : bindSources (.integers tables) env q.sources = some bs) (hb : b ∈ bs) {x : Row Value}
    (hx : x ∈ rows) : t.AtKey x b ↔ b.source t.id = some x := by
  obtain ⟨y, hy, hby⟩ := h.exists_row hbs hb
  constructor
  · rintro ⟨z, hz, hkeys⟩
    rw [hby] at hz
    cases hz
    rw [hby, h.conforms.eq_of_keyFields hy hx hkeys]
  · exact fun hbx => ⟨x, hbx, fun _ _ => rfl⟩

open Classical in
/-- The key condition at a row of the target leaves over the environments with the key of the
row. -/
theorem bindings_addKeyCondition {q : Query} (q' : Query) {t : Target} {r : Renaming}
    {K N : Ident → Prop} {outer : SourceId} {x : Row Value} {rows : List (Row Value)}
    (h : q.TargetTable tables t rows) (hx : x ∈ rows) (hN : N (.source t.id))
    (hsources : List.Forall₂ (Source.Matches (.integers tables) (Frame.Carries r K N outer x))
      q.sources q'.sources)
    (hfilter : Option.Rel (Expr.Matches (.integers tables) (Frame.Carries r K N outer x))
      q.filter q'.filter)
    {env env' : Env Value} (henv : env.Lift (Frame.Carries r K N outer x) env') :
    Refines
      (fun bs bs' => List.Forall₂ (Env.Lift (Frame.Carries r K N outer x))
        (bs.filter fun b => decide (t.AtKey x b)) bs')
      ((q.scan (.integers tables)).bindings env)
      (((q'.addFilter? (t.table.keyEquality (r.source t.id) outer)).scan
        (.integers tables)).bindings env') := by
  obtain ⟨e, hkey, hdecides⟩ := t.table.exists_keyEquality h.target.fields (r.source t.id) outer
  rw [hkey]
  refine bindings_addFilter hsources hfilter henv fun hbs b hb b' hlift => ?_
  obtain ⟨y, hby, hy⟩ := h.exists_row_or_nulls hbs hb
  have hvalues : ∀ f ∈ t.table.keyFields, (y f.name).isSome := by
    intro f hf
    rcases hy with hy | ⟨rfl, -⟩
    · exact (h.fits.isSome_iff y hy f.name).2 ⟨f, (Table.mem_keyFields.1 hf).1, rfl⟩
    · rfl
  obtain ⟨v, hv, htrue⟩ :=
    hdecides h.fits hvalues hx (hlift.frame.source t.id y hN hby).2 hlift.frame.outer
  exact ⟨v, hv, htrue.trans (by simp [Target.AtKey, hby])⟩

open Classical in
/-- The key condition at a row of an inner joined target leaves over the environments that hold this
row. -/
theorem bindings_addKey {q : Query} (q' : Query) {t : Target} {r : Renaming} {K N : Ident → Prop}
    {outer : SourceId} {x : Row Value} {rows : List (Row Value)} (h : q.TargetRows tables t rows)
    (hx : x ∈ rows) (hN : N (.source t.id))
    (hsources : List.Forall₂ (Source.Matches (.integers tables) (Frame.Carries r K N outer x))
      q.sources q'.sources)
    (hfilter : Option.Rel (Expr.Matches (.integers tables) (Frame.Carries r K N outer x))
      q.filter q'.filter)
    {env env' : Env Value} (henv : env.Lift (Frame.Carries r K N outer x) env') :
    Refines
      (fun bs bs' => List.Forall₂ (Env.Lift (Frame.Carries r K N outer x))
        (bs.filter fun b => decide (b.source t.id = some x)) bs')
      ((q.scan (.integers tables)).bindings env)
      (((q'.addFilter? (t.table.keyEquality (r.source t.id) outer)).scan
        (.integers tables)).bindings env') := by
  intro bs hbs
  obtain ⟨bs', hbs', hkept⟩ := bindings_addKeyCondition q' h.toTargetTable hx hN hsources hfilter
    henv bs hbs
  have hfilterEq : (bs.filter fun b => decide (b.source t.id = some x)) =
      bs.filter fun b => decide (t.AtKey x b) := by
    refine List.filter_congr fun b hb => ?_
    obtain ⟨cs, hcs, hbcs⟩ := q.mem_bindSources_of_mem_bindings hbs hb
    rw [decide_eq_decide, h.atKey_iff hcs hbcs hx]
  rw [← hfilterEq] at hkept
  exact ⟨bs', hbs', hkept⟩

/-- The statement over the target alone acts on the rows for which the tied query has a row. -/
theorem selected?_overTarget {V : Type} [DecidableEq V] {db : Database V} {q : Query} {t : Target}
    {outer : SourceId} {rows : List (Row V)} (hrows : db.tables t.table.name = some rows)
    {found : Row V → Bool}
    (hfound : ∀ x ∈ rows, ((q.correlatedFilter t outer).scan db).hasRow db.engine
      (Env.empty.bindSource outer x) = some (found x)) (aliasName : String) (id : QueryId) :
    (q.overTarget t outer aliasName id).selected? db =
      some ((rows.filter found).map (Env.empty.bindSource outer)) := by
  have hsources : bindSources db .empty (q.overTarget t outer aliasName id).sources =
      some (rows.map (Env.empty.bindSource outer)) := by
    have hsingle : ∀ envs : List (Env V), envs.flatMapM (fun b => some [b]) = some envs :=
      fun envs => by simpa using flatMapM_eq_some (g := fun b => [b]) fun b (_ : b ∈ envs) => rfl
    simp [overTarget, bindSources, Source.side, Origin.side, joinSides, hrows, hsingle]
  have hholds : ∀ b ∈ rows.map (Env.empty.bindSource outer),
      evalCondition db b (q.overTarget t outer aliasName id).filter =
        some (found ((b.source outer).getD fun _ => none)) := by
    intro b hb
    obtain ⟨x, hx, rfl⟩ := List.mem_map.1 hb
    simp [overTarget, evalCondition, Expr.eval, hfound x hx, db.engine.isTrue_boolean]
  have hungrouped : (q.overTarget t outer aliasName id).groupsRows = false := rfl
  rw [selected?_of_unbounded db rfl rfl, hungrouped, bindings_eq, hsources]
  simp [flatMapM_keepIf hholds, List.filter_map, Function.comp_def]

section Found

variable {q : Query} {t : Target} {rows : List (Row Value)} {outer : SourceId}

/-- Beside a new source at a row, a query leads to the environments that it leads to by itself. -/
theorem clausesMatch_carries (q : Query)
    (hfresh : ∀ i ∈ (Node.query q).declared, i ≠ .source outer) (x : Row Value) :
    ClausesMatch (.integers tables)
      (Frame.Carries {} (fun i => i ≠ .source outer) (fun _ => True) outer x) q q := by
  have hsim : Simulation {} {} (fun i => i ≠ .source outer) (fun _ => True)
      (Frame.Carries {} (fun i => i ≠ .source outer) (fun _ => True) outer x) :=
    Frame.Carries.simulation (fun _ h => h) (fun _ _ => rfl)
      (fun i j _ _ h => by simpa [Renaming.ident_empty] using h)
      (fun i h => by simpa [Renaming.ident_empty] using h)
  have hmatch : ClausesMatch (.integers tables) _ q (q.rename {} {}) :=
    hsim.query (Node.all_within hfresh fun _ _ => trivial)
  rwa [Tree.rename_empty_closed.onQuery q] at hmatch

/-- A query without groups and without rows to leave out has a row if it has an environment, unless
its bound leaves no room for one. -/
theorem hasRow_of_bindings {V : Type} [DecidableEq V] {db : Database V} {q : Query}
    (hgrouped : q.isGrouped = false) (hskip : q.skip = none) {env : Env V} {n : Option Nat}
    (htake : evalTake db env q.take = some n)
    {bs : List (Env V)} (hbs : (q.scan db).bindings env = some bs)
    (hentries : q.take.isSome → ((q.scan db).entries bs).isSome) :
    (q.scan db).hasRow db.engine env = some (decide (n ≠ some 0 ∧ bs ≠ [])) := by
  have hbounds : (q.scan db).bounds env = some (0, n) := by
    simp [scan_eq, evalSkip, hskip, htake]
  have hbounded : (q.scan db).bounded = q.take.isSome := by simp [scan_eq, hskip]
  rw [← units_of_not_isGrouped db env hgrouped] at hbs
  unfold Scan.hasRow
  rw [hbounded]
  cases hq : q.take with
  | none =>
    obtain rfl : n = none := by simpa [evalTake, hq, eq_comm] using htake
    cases bs <;> simp [hbs]
  | some e =>
    obtain ⟨es, hes⟩ := Option.isSome_iff_exists.1 (hentries (by simp [hq]))
    have hlength : es.length = bs.length := by
      simpa using (forall₂_of_mapM hes).length_eq.symm
    have hempty : (q.scan db).arrange db.engine es = [] ↔ bs = [] := by
      rw [Scan.arrange_eq_nil, ← List.length_eq_zero_iff, hlength, List.length_eq_zero_iff]
    simp only [Scan.rows, hbs, hes, hbounds, Option.bind_eq_bind, Option.bind_some,
      Option.isSome_some, if_true, Option.pure_def, Option.map_some]
    rw [Option.some.injEq, Bool.eq_iff_iff]
    simp [page_zero_eq_nil, hempty]

/-- The only column of the tied query is a number, so its entries need the keys of its order. -/
theorem isSome_entries_correlatedFilter (q : Query) (t : Target) (outer : SourceId)
    {bs : List (Env Value)}
    (hkeys : ∀ b ∈ bs, ∃ ks, evalOrder (.integers tables) b q.orderBy = some ks) :
    (((q.correlatedFilter t outer).scan (.integers tables)).entries bs).isSome := by
  choose! ks hks using hkeys
  have hone : ∀ b i, evalColumns (.integers tables) bs i b [{ expr := .int 1 }] = some [some 1] :=
    fun _ _ => rfl
  rw [Scan.entries, mapM_eq_some (g := fun b => ([some 1], ks b.1)) fun b hb => ?_]
  · rfl
  · have hmem : b.1 ∈ bs := List.fst_mem_of_mem_zipIdx hb
    simp [scan_eq, correlatedFilter, addFilter?_eq, hks b.1 hmem, hone]

/-- The only column of the tied query has no aggregate. -/
theorem isGrouped_correlatedFilter (q : Query) (t : Target) (outer : SourceId) :
    (q.correlatedFilter t outer).isGrouped = q.groupsRows := by
  simp [correlatedFilter, addFilter?_eq, groupsRows, isGrouped, Expr.int, Expr.aggregates]

open Classical in
/-- The tied query has a row if an environment of the query has the key of the row, unless its bound
leaves no room for a row. -/
theorem hasRow_correlatedFilter (h : q.TargetTable tables t rows) (hgroups : q.groupsRows = false)
    (hskip : q.skip = none)
    {n : Option Nat} (htake : evalTake (.integers tables) .empty q.take = some n)
    (hfresh : ∀ i ∈ (Node.query q).declared, i ≠ .source outer) {bs : List (Env Value)}
    (hbs : (q.scan (.integers tables)).bindings .empty = some bs)
    (hkeys : q.take.isSome → ∀ b ∈ bs, (evalOrder (.integers tables) b q.orderBy).isSome)
    {x : Row Value} (hx : x ∈ rows) :
    ((q.correlatedFilter t outer).scan (.integers tables)).hasRow Engine.integers
      (Env.empty.bindSource outer x) = some (decide (n ≠ some 0 ∧ ∃ b ∈ bs, t.AtKey x b)) := by
  have hmatch : ClausesMatch (.integers tables) _ q q := q.clausesMatch_carries hfresh x
  have hstart : (Env.empty : Env Value).Lift
      (Frame.Carries {} (fun i => i ≠ .source outer) (fun _ => True) outer x)
      (Env.empty.bindSource outer x) := Env.lift_carries_empty ..
  have hkeyed := bindings_addKeyCondition { q with columns := [{ expr := .int 1 }] } h hx trivial
    hmatch.sources hmatch.filter hstart
  obtain ⟨bs', hbs', hkept⟩ := hkeyed bs hbs
  have htake' : evalTake (.integers tables) (Env.empty.bindSource outer x)
      (q.correlatedFilter t outer).take = some n := by
    simpa [correlatedFilter, addFilter?_eq] using
      (evalTake_refines hmatch.take hstart).eq_some htake
  have hskip' : (q.correlatedFilter t outer).skip = none := by
    simp [correlatedFilter, addFilter?_eq, hskip]
  have hentries : (q.correlatedFilter t outer).take.isSome →
      (((q.correlatedFilter t outer).scan (.integers tables)).entries bs').isSome := by
    intro hsome
    refine q.isSome_entries_correlatedFilter t outer fun b' hb' => ?_
    obtain ⟨b, hb, hcarries⟩ := exists_of_forall₂ hkept hb'
    obtain ⟨ks, hks⟩ := Option.isSome_iff_exists.1
      (hkeys (by simpa [correlatedFilter, addFilter?_eq] using hsome) b (List.mem_filter.1 hb).1)
    exact ⟨ks, (evalOrder_refines hmatch.orderBy hcarries).eq_some hks⟩
  have hgrouped := (q.isGrouped_correlatedFilter t outer).trans hgroups
  rw [← Database.integers_engine tables, hasRow_of_bindings hgrouped hskip' htake' hbs' hentries,
    Option.some.injEq, decide_eq_decide]
  have hempty : bs' = [] ↔ ∀ b ∈ bs, ¬ t.AtKey x b := by
    rw [← List.length_eq_zero_iff, ← hkept.length_eq, List.length_eq_zero_iff]
    simp [List.filter_eq_nil_iff]
  simp [hempty]

open Classical in
/-- The statement over the target alone acts on the rows of the target whose key the query finds,
unless the bound of the query leaves no room for a row. -/
theorem selected?_overTarget_of_bindings (h : q.TargetTable tables t rows)
    (hgroups : q.groupsRows = false) (hskip : q.skip = none) {n : Option Nat}
    (htake : evalTake (.integers tables) .empty q.take = some n)
    (hfresh : ∀ i ∈ (Node.query q).declared, i ≠ .source outer) {bs : List (Env Value)}
    (hbs : (q.scan (.integers tables)).bindings .empty = some bs)
    (hkeys : q.take.isSome → ∀ b ∈ bs, (evalOrder (.integers tables) b q.orderBy).isSome)
    (aliasName : String) (id : QueryId) :
    (q.overTarget t outer aliasName id).selected? (.integers tables) =
      some ((rows.filter fun x => decide (n ≠ some 0 ∧ ∃ b ∈ bs, t.AtKey x b)).map
        (Env.empty.bindSource outer)) :=
  selected?_overTarget h.tables_eq
    (fun _ hx => hasRow_correlatedFilter h hgroups hskip htake hfresh hbs hkeys hx) aliasName id

/-- The statement over an inner joined target acts on the rows that the query finds for it. -/
theorem exists_selected?_overTarget (h : q.TargetRows tables t rows)
    (hgroups : q.groupsRows = false) (hskip : q.skip = none) (htake : q.take = none)
    (hfresh : ∀ i ∈ (Node.query q).declared, i ≠ .source outer)
    {bs : List (Env Value)} (hbs : (q.scan (.integers tables)).bindings .empty = some bs) :
    ∃ found : List (Row Value),
      (∀ aliasName id, (q.overTarget t outer aliasName id).selected? (.integers tables) =
        some (found.map (Env.empty.bindSource outer))) ∧
      ∀ x, x ∈ found ↔ ∃ b ∈ bs, b.source t.id = some x := by
  classical
  have hselected := selected?_overTarget_of_bindings h.toTargetTable hgroups hskip
    (by rw [htake]; rfl) hfresh hbs (by simp [htake])
  refine ⟨_, hselected, fun x => ?_⟩
  rw [List.mem_filter, decide_eq_true_iff]
  constructor
  · rintro ⟨hx, -, b, hb, hkey⟩
    obtain ⟨cs, hcs, hbcs⟩ := q.mem_bindSources_of_mem_bindings hbs hb
    exact ⟨b, hb, (h.atKey_iff hcs hbcs hx).1 hkey⟩
  · rintro ⟨b, hb, hbx⟩
    obtain ⟨cs, hcs, hbcs⟩ := q.mem_bindSources_of_mem_bindings hbs hb
    obtain ⟨y, hy, hby⟩ := h.exists_row hcs hbcs
    obtain rfl : y = x := by simpa [hby] using hbx
    exact ⟨hy, nofun, b, hb, y, hbx, fun _ _ => rfl⟩

end Found

end Query

end SqlTree
