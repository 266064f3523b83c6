import SqlTree.Proofs.Lowering.Bounds
import SqlTree.Proofs.Pagination.Queries

/-! # The target of lowered deletions and updates

The passes keep the sources of a query as far as their ids and tables go, and the pass for single
tables puts a new source of the same table in the place of the target. Only pagination by row
numbers moves the sources of a query away: those of a deletion or an update that skips rows are out
of its reach then.

Main definitions:

* `Statement.targetTable?`: the table that a deletion or an update is about.
* `Source.Alike`, `Query.Alike`, `Statement.Alike`: the same sources by ids and tables.
* `Dialect.hidesTarget`: the sources of the query of the statement are moved away.

Main statements:

* `Query.Alike.targetTable?_eq`, `Query.Alike.target?_eq`: with the same sources, the target is the
  same.
* `Statement.targetTable?_toSingleTable`, `Statement.targetTable?_emulatePagination`: the target
  after the passes that change sources.
* `Dialect.targetTable?_lower_iff`: when the target is kept.
-/

namespace SqlTree

/-- The table of the source that a deletion or an update over the query is about. -/
def Query.targetTable? (q : Query) (target : Option SourceId) : Option Table := do
  (← q.source? (← q.targetId? target)).table?

namespace Statement

/-- The source that a deletion or an update names, if it names one, and its query. -/
def scope? : Statement → Option (Option SourceId × Query)
  | .delete target q => some (target, q)
  | .update target _ q => some (target, q)
  | _ => none

/-- The table that a deletion or an update is about. -/
def targetTable? (s : Statement) : Option Table := do
  let (target, q) ← s.scope?
  q.targetTable? target

/-- Whether the query of a deletion or an update skips rows. -/
def skips (s : Statement) : Bool := s.scope?.any fun (_, q) => q.hasSkip

end Statement

/-- Whether the query of a deletion or an update skips rows by row numbers: it does so if the engine
has no bounds and the pass for single tables leaves the query in its place. -/
def Dialect.hidesTarget (d : Dialect) (s : Statement) : Bool :=
  !d.capabilities.offsetFetch && s.scope?.any fun (target, q) =>
    q.hasSkip && (d.capabilities.multiTableDml || (q.target? target).isNone)

/-! The same sources. -/

/-- The same id and, of a source over a table, the same table. -/
structure Source.SameTable (s s' : Source) : Prop where
  id : s'.id = s.id
  table : s'.table? = s.table?

/-- The same ids and tables of a source and of those joined to it. -/
structure Source.Alike (s s' : Source) : Prop where
  joins : s'.joins.isEmpty = s.joins.isEmpty
  joined : List.Forall₂ Source.SameTable s.withJoined s'.withJoined

structure Query.Alike (q q' : Query) : Prop where
  hasSkip : q'.hasSkip = q.hasSkip
  sources : List.Forall₂ Source.Alike q.sources q'.sources

inductive Statement.Alike (s s' : Statement) : Prop
  | other (hs : s.scope? = none) (hs' : s'.scope? = none)
  | scope {target : Option SourceId} {q q' : Query} (hs : s.scope? = some (target, q))
      (hs' : s'.scope? = some (target, q')) (hq : q.Alike q')

section Aligned

variable {RE : Expr → Expr → Prop} {RQ : Query → Query → Prop} {RS : Source → Source → Prop}

theorem Source.Aligned.sameTable {s s' : Source} (h : s.Aligned RE RQ RS s') : s.SameTable s' where
  id := h.id
  table := by
    have horigin := h.origin
    unfold table?
    generalize s.origin = origin, s'.origin = origin' at horigin
    cases horigin with
    | table t => rfl
    | query _ => rfl

theorem Source.Aligned.alike {s s' : Source} (h : s.Aligned RE RQ Source.Alike s') :
    s.Alike s' where
  joins := isEmpty_of_forall₂ h.joins
  joined := by
    rw [s.withJoined_eq, s'.withJoined_eq]
    exact .cons h.sameTable (List.rel_flatMap h.joins fun _ _ hj => hj.source.joined)

theorem Query.Aligned.alike {q q' : Query} (h : q.Aligned RE Source.Alike q') : q.Alike q' :=
  ⟨rel_isSome h.skip, h.sources⟩

theorem Statement.Aligned.alike {s s' : Statement} (h : s.Aligned RE Query.Alike RS s') :
    s.Alike s' := by
  cases h with
  | update target _ hq => exact .scope rfl rfl hq
  | delete target hq => exact .scope rfl rfl hq
  | _ => exact .other rfl rfl

end Aligned

theorem Source.Alike.id_eq {s s' : Source} (h : s.Alike s') : s'.id = s.id := by
  have hjoined := h.joined
  rw [s.withJoined_eq, s'.withJoined_eq] at hjoined
  cases hjoined with
  | cons hs _ => exact hs.id

namespace Query

namespace Alike

variable {q q' : Query} (h : q.Alike q')

include h

theorem sourceTable?_eq (id : SourceId) :
    (q'.source? id >>= Source.table?) = (q.source? id >>= Source.table?) := by
  have hall : List.Forall₂ Source.SameTable q.allSources q'.allSources :=
    List.rel_flatMap h.sources fun _ _ hs => hs.joined
  unfold source?
  generalize q.allSources = ss, q'.allSources = ss' at hall
  induction hall with
  | nil => rfl
  | @cons s s' _ _ hs _ ih =>
    rw [List.find?_cons, List.find?_cons, hs.id]
    cases s.id == id with
    | true => exact hs.table
    | false => exact ih

theorem firstId_eq : (q'.sources.head?.map fun s => s.id) = q.sources.head?.map fun s => s.id := by
  have hsources := h.sources
  generalize q.sources = ss, q'.sources = ss' at hsources
  cases hsources with
  | nil => rfl
  | cons hs _ => exact congrArg some hs.id_eq

theorem isMultiTable_eq : q'.isMultiTable = q.isMultiTable := by
  have hsources := h.sources
  unfold isMultiTable
  generalize q.sources = ss, q'.sources = ss' at hsources
  have hany : (ss'.any fun s => !s.joins.isEmpty) = ss.any fun s => !s.joins.isEmpty := by
    induction hsources with
    | nil => rfl
    | cons hs _ ih => rw [List.any_cons, List.any_cons, hs.joins, ih]
  rw [hany, hsources.length_eq]

theorem targetTable?_eq (target : Option SourceId) :
    q'.targetTable? target = q.targetTable? target := by
  unfold targetTable? targetId?
  rw [h.firstId_eq]
  cases target <|> q.sources.head?.map (·.id) with
  | none => rfl
  | some id => exact h.sourceTable?_eq id

theorem target?_eq (target : Option SourceId) : q'.target? target = q.target? target := by
  have hfirst := h.firstId_eq
  unfold target?
  rw [h.isMultiTable_eq]
  cases hq : q.sources.head? with
  | none =>
    have hq' : q'.sources.head? = none := by simpa [hq] using hfirst
    rw [hq']
    rfl
  | some s =>
    obtain ⟨s', hq', hid⟩ : ∃ s', q'.sources.head? = some s' ∧ s'.id = s.id := by
      simpa [hq] using hfirst
    simp only [hq', hid, Option.bind_eq_bind, Option.bind_some]
    split
    · rfl
    · simp only [← Option.bind_assoc]
      exact congrArg (fun t => Option.bind t _) (h.sourceTable?_eq _)

end Alike

end Query

namespace Statement

namespace Alike

variable {s s' : Statement}

theorem refl (s : Statement) : s.Alike s := by
  have hsource : ∀ s : Source, s.Alike s :=
    fun s => ⟨rfl, List.forall₂_same.2 fun _ _ => ⟨rfl, rfl⟩⟩
  cases hs : s.scope? with
  | none => exact .other hs hs
  | some x => exact .scope hs hs ⟨rfl, List.forall₂_same.2 fun s _ => hsource s⟩

theorem targetTable?_eq (h : s.Alike s') : s'.targetTable? = s.targetTable? := by
  cases h with
  | other hs hs' => rw [targetTable?, targetTable?, hs, hs']
  | scope hs hs' hq =>
    rw [targetTable?, targetTable?, hs, hs']
    exact hq.targetTable?_eq _

theorem skips_eq (h : s.Alike s') : s'.skips = s.skips := by
  cases h with
  | other hs hs' => rw [skips, skips, hs, hs']
  | scope hs hs' hq =>
    rw [skips, skips, hs, hs']
    exact hq.hasSkip

theorem hidesTarget_eq (h : s.Alike s') (d : Dialect) : d.hidesTarget s' = d.hidesTarget s := by
  cases h with
  | other hs hs' => rw [Dialect.hidesTarget, Dialect.hidesTarget, hs, hs']
  | scope hs hs' hq =>
    rw [Dialect.hidesTarget, Dialect.hidesTarget, hs, hs']
    simp only [Option.any_some, hq.hasSkip, hq.target?_eq]

end Alike

end Statement

/-! The passes that keep sources. -/

section Rebuild

variable {m : Type → Type} [Monad m] [LawfulMonad m] {O : Outcome m} {t : Transform m}

theorem Transform.alike (hquery : t.query = QueryParts.rebuild)
    (hexpr : ∀ e, O.Holds (fun _ => True) (t.expr e)) :
    t.Yields O (fun _ _ => True) Query.Alike Source.Alike where
  expr _ := hexpr _
  query h := by
    rw [hquery]
    exact O.mono h.rebuild fun _ hq => hq.alike
  source h := h.alike

end Rebuild

theorem Transform.alike_correctPagination :
    Transform.correctPagination.Yields (.success Error) (fun _ _ => True) Query.Alike
      Source.Alike where
  expr _ := (Outcome.success Error).pure trivial
  query {q p} h := by
    refine (Outcome.success Error).mono (Query.holds_correctPagination h) fun q' hq' => ?_
    cases hq' with
    | rebuilt _ h => exact h.alike
    | byColumns _ _ h => exact ⟨h.alike.hasSkip, h.alike.sources⟩
  source h := h.alike

theorem Transform.alike_fixEmptyProjection :
    Transform.fixEmptyProjection.Yields .result (fun _ _ => True) Query.Alike Source.Alike where
  expr _ := trivial
  query {q p} h := by
    have hq := Query.holds_fixEmptyProjection h
    change q.Alike (q.fixEmptyProjection p)
    generalize q.fixEmptyProjection p = q' at hq
    cases hq with
    | rebuilt _ h => exact h.alike
    | constant _ h => exact ⟨h.alike.hasSkip, h.alike.sources⟩
  source h := h.alike

namespace Statement

theorem alike_correctPagination {s s' : Statement} (h : s.correctPagination = .ok s') :
    s.Alike s' :=
  (Transform.alike_correctPagination.onStatement s s' h).alike

theorem alike_fixEmptyProjection (s : Statement) : s.Alike s.fixEmptyProjection :=
  (Transform.alike_fixEmptyProjection.onStatement s).alike

theorem alike_mapUp (f : Expr → Expr) (s : Statement) : s.Alike (s.mapUp f) :=
  ((Transform.alike (O := .result) (t := .ofFun f) rfl fun _ => trivial).onStatement s).alike

theorem alike_debindInsertParameters (s : Statement) : s.Alike s.debindInsertParameters := by
  cases s with
  | insert into items q => exact .other rfl rfl
  | _ => exact .refl _

end Statement

namespace Dialect

variable (d : Dialect)

theorem targetTable?_inlined (config : Config) (s : Statement) :
    (d.inlined config s).targetTable? = s.targetTable? := by
  refine d.inlined_induction (P := fun s' => s'.targetTable? = s.targetTable?) config rfl
    (fun s' h => ?_) (fun s' h => ?_) fun s' h => ?_
  · exact s'.alike_debindInsertParameters.targetTable?_eq.trans h
  · exact (s'.alike_mapUp _).targetTable?_eq.trans h
  · exact (s'.alike_mapUp _).targetTable?_eq.trans h

theorem alike_convert (ctx : Context) {s s' : Statement}
    (h : d.convertStatement ctx s = .ok s') : s.Alike s' :=
  ((Transform.alike (O := .success Error) (t := d.conversion ctx) rfl
    fun _ _ _ => trivial).onStatement s s' h).alike

end Dialect

/-! The passes that change sources. -/

namespace Query

theorem targetTable?_of_target? {q : Query} {target : Option SourceId} {t : Target}
    (h : q.target? target = some t) : q.targetTable? target = some t.table := by
  obtain ⟨hid, -⟩ := target?_eq_some h
  unfold target? at h
  obtain ⟨first, -, h⟩ := Option.bind_eq_some_iff.1 h
  simp only at h
  split at h
  · cases h
  obtain ⟨s, hs, h⟩ := Option.bind_eq_some_iff.1 h
  obtain ⟨table, htable, h⟩ := Option.bind_eq_some_iff.1 h
  split at h
  · cases h
  cases h
  exact Option.bind_eq_some_iff.2 ⟨_, hid, Option.bind_eq_some_iff.2 ⟨s, hs, htable⟩⟩

theorem source?_of_sources_eq {q : Query} {s : Source} (hq : q.sources = [s]) (hs : s.joins = [])
    (id : SourceId) : q.source? id = if s.id = id then some s else none := by
  rw [source?, allSources, hq, List.flatMap_singleton, s.withJoined_eq, hs, List.flatMap_nil,
    List.find?_singleton]
  simp only [beq_iff_eq]

theorem targetTable?_overTarget (q : Query) (t : Target) (outer : SourceId) (aliasName : String)
    (id : QueryId) :
    (q.overTarget t outer aliasName id).targetTable? (some outer) = some t.table := by
  have hsource : (q.overTarget t outer aliasName id).source? outer = some _ :=
    (source?_of_sources_eq rfl rfl outer).trans (if_pos rfl)
  exact Option.bind_eq_some_iff.2 ⟨_, hsource, rfl⟩

/-- No source of the page is over a table. -/
theorem targetTable?_page (id : QueryId) (columns : List Column) (inner : Query) (source : SourceId)
    (bounds : List Expr) (number : Expr) (target : Option SourceId) :
    (page id columns inner source bounds number).targetTable? target = none := by
  rw [page_eq]
  refine Option.bind_eq_none_iff.2 fun id _ => Option.bind_eq_none_iff.2 fun s hs => ?_
  rw [source?_of_sources_eq (s := { id := source, origin := .query inner, aliasName := _ }) rfl rfl]
    at hs
  split at hs
  · cases hs
    rfl
  · cases hs

/-- The sources of a query that skips rows are below the only one of the page. -/
theorem Emulated.targetTable?_eq {RE : Expr → Expr → Prop} {ids : Ids} {q q' : Query}
    (h : q.Emulated RE Source.Alike ids q') (target : Option SourceId) :
    q'.targetTable? target = if q.hasSkip then none else q.targetTable? target := by
  cases h with
  | rebuilt hskip h =>
    rw [hskip, if_neg Bool.false_ne_true]
    exact h.alike.targetTable?_eq target
  | numbered hskip =>
    rw [hskip, if_pos rfl]
    exact targetTable?_page ..
  | distinct hskip =>
    rw [hskip, if_pos rfl]
    exact targetTable?_page ..

end Query

theorem Transform.targetTable?_emulatePagination (ids : Ids) :
    Transform.emulatePagination.Yields (Numbering.results ids) (fun _ _ => True)
      (fun q q' => ∀ target, q'.targetTable? target = if q.hasSkip then none else
        q.targetTable? target) Source.Alike where
  expr _ := (Numbering.results ids).pure trivial
  query h := (Numbering.results ids).mono (Query.holds_emulatePagination h)
    fun _ hq => hq.targetTable?_eq
  source h := h.alike

namespace Statement

theorem targetTable?_emulatePagination {s s' : Statement} (h : s.emulatePagination = .ok s') :
    s'.targetTable? = if s.skips then none else s.targetTable? := by
  obtain ⟨σ, hrun⟩ := exists_run_emulatePagination h
  obtain ⟨-, haligned⟩ := (Transform.targetTable?_emulatePagination _).onStatement s _ s' σ
    (Ids.le_refl _) hrun
  cases haligned with
  | update target _ hq => exact hq target
  | delete target hq => exact hq target
  | _ => rfl

theorem targetTable?_toSingleTable (s : Statement) :
    s.toSingleTable.targetTable? = s.targetTable? := by
  cases s with
  | delete target q =>
    rw [toSingleTable_delete]
    cases ht : q.target? target with
    | none => rfl
    | some t => exact (q.targetTable?_overTarget ..).trans (Query.targetTable?_of_target? ht).symm
  | update target items q =>
    rw [toSingleTable_update]
    cases ht : q.target? target with
    | none => rfl
    | some t => exact (q.targetTable?_overTarget ..).trans (Query.targetTable?_of_target? ht).symm
  | _ => rfl

theorem skips_toSingleTable (s : Statement) :
    s.toSingleTable.skips =
      s.scope?.any fun (target, q) => q.hasSkip && (q.target? target).isNone := by
  cases s with
  | delete target q =>
    rw [toSingleTable_delete]
    cases ht : q.target? target with
    | none => simp [skips, scope?, ht]
    | some t => simp [skips, scope?, ht, Query.overTarget, Query.hasSkip]
  | update target items q =>
    rw [toSingleTable_update]
    cases ht : q.target? target with
    | none => simp [skips, scope?, ht]
    | some t => simp [skips, scope?, ht, Query.overTarget, Query.hasSkip]
  | _ => rfl

end Statement

namespace Dialect

variable (d : Dialect)

theorem targetTable?_single (s : Statement) : (d.single s).targetTable? = s.targetTable? := by
  unfold single
  split
  · rfl
  · exact s.targetTable?_toSingleTable

theorem hidesTarget_eq (s : Statement) :
    d.hidesTarget s = (!d.capabilities.offsetFetch && (d.single s).skips) := by
  unfold hidesTarget single
  cases d.capabilities.multiTableDml with
  | true => simp [Statement.skips]
  | false => simp [Statement.skips_toSingleTable]

theorem targetTable?_paged {s s' : Statement} (h : d.paged s = .ok s') :
    s'.targetTable? =
      if !d.capabilities.offsetFetch && s.skips then none else s.targetTable? := by
  unfold paged at h
  cases hfetch : d.capabilities.offsetFetch with
  | true =>
    rw [hfetch, if_pos rfl] at h
    cases h
    rfl
  | false =>
    rw [hfetch, if_neg Bool.false_ne_true] at h
    exact Statement.targetTable?_emulatePagination h

/-! The lowering. -/

variable (config : Config) (ctx : Context) {s s' : Statement} (hd : d.edits = [])
  (h : d.lower config ctx s = .ok s')

include hd h

/-- The target is kept or it is out of reach. -/
theorem targetTable?_of_lower :
    s'.targetTable? = if d.hidesTarget s then none else s.targetTable? := by
  obtain ⟨s₁, s₂, h₁, h₂, h₃⟩ := d.exists_of_lower config ctx hd h
  have hordered := Statement.alike_correctPagination h₁
  have hprojected := (d.single s₁).alike_fixEmptyProjection
  calc s'.targetTable?
      = (d.inlined config s₂).targetTable? := (d.alike_convert ctx h₃).targetTable?_eq
    _ = s₂.targetTable? := d.targetTable?_inlined config s₂
    _ = if d.hidesTarget s₁ then none else (d.single s₁).targetTable? := by
      rw [d.targetTable?_paged h₂, hprojected.skips_eq, hprojected.targetTable?_eq,
        d.hidesTarget_eq]
    _ = if d.hidesTarget s then none else s.targetTable? := by
      rw [hordered.hidesTarget_eq, d.targetTable?_single, hordered.targetTable?_eq]

/-- A deletion or an update of a table stays one of the same table exactly if its query does not
skip rows by row numbers. -/
theorem targetTable?_lower_iff {t : Table} (ht : s.targetTable? = some t) :
    s'.targetTable? = some t ↔ d.hidesTarget s = false := by
  rw [d.targetTable?_of_lower config ctx hd h, ht]
  cases d.hidesTarget s <;> simp

end Dialect

namespace Sample

theorem targetTable?_lower_markLater :
    ∃ s', DialectKind.sqlCe.dialect.lower {} {} markLater = .ok s' ∧
      s'.targetTable? = some orders := by
  obtain ⟨s', hs'⟩ := exists_lower_markLater .sqlCe
  have hhides : DialectKind.sqlCe.dialect.hidesTarget markLater = false := rfl
  exact ⟨s', hs', (Dialect.targetTable?_lower_iff _ {} {} rfl hs' rfl).2 hhides⟩

/-- An engine without bounds that deletes from joined sources. -/
def unbounded : Dialect :=
  CustomDialect.dialect { name := "unbounded", capabilities := { offsetFetch := some false } }

/-- Removes the orders but for the first one. -/
def dropLater : Statement :=
  .delete (some ⟨1⟩) {
    id := ⟨1⟩
    columns := [{ expr := orders.fieldRef ⟨1⟩ "id" }]
    skip := some (.int 1)
    sources := [{ id := ⟨1⟩, origin := .table orders }]
    orderBy := [{ expr := orders.fieldRef ⟨1⟩ "id" }] }

theorem targetTable?_lower_dropLater :
    dropLater.targetTable? = some orders ∧
      ∃ s', unbounded.lower {} {} dropLater = .ok s' ∧ s'.targetTable? = none := by
  have hafter : Ids.after (.statement dropLater) = ⟨2, 2⟩ := by
    rw [Ids.after, Ids.reserve, Node.walk_eq_preorder]
    decide +kernel
  have hok : dropLater.emulatePagination.isOk = true := by
    rw [Statement.emulatePagination, hafter]
    decide +kernel
  obtain ⟨s₂, hs₂⟩ := Outcome.exists_of_isOk hok
  obtain ⟨s', hs', -⟩ := (Transform.alike (O := .total Error) (t := unbounded.conversion {}) rfl
    fun e => ⟨e, rfl, trivial⟩).onStatement (unbounded.inlined {} s₂)
  have hlower : unbounded.lower {} {} dropLater = .ok s' := by
    rw [unbounded.lower_eq {} {} rfl]
    change dropLater.emulatePagination >>=
      (fun s => unbounded.convertStatement {} (unbounded.inlined {} s)) = _
    rw [hs₂]
    exact hs'
  refine ⟨rfl, s', hlower, ?_⟩
  rw [unbounded.targetTable?_of_lower {} {} rfl hlower]
  rfl

end Sample

end SqlTree
