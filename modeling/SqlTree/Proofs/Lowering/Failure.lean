import SqlTree.Proofs.Lowering.Conformance
import SqlTree.Proofs.SingleTable.Key
import SqlTree.Proofs.Survey

/-! # When a lowering fails

A lowering refuses a statement for two reasons only, and both are in the statement. A query that
skips rows may have nothing to order them by. On an engine that cannot skip rows, distinct rows may
be ordered by an expression that is not among their columns. The first query that cannot be ordered
is the one that is reported. Apart from that, the conversion may not be able to go on.

Main definitions:

* `Query.isUnorderable`: a query that skips rows and has nothing to order them by.
* `Query.isUnprojected`: distinct rows in an order that is not projected.
* `Survey.first`: a computation that fails at the first of some queries.
* `Survey.failures`: the queries that a computation fails at.

Main statements:

* `Statement.correctPagination_eq`: orderings fail at the first query without a possible one.
* `Statement.Ordered.emulatePagination_fails_iff`: row numbers fail exactly if distinct rows have an
  order that is not projected.
* `Dialect.lower_fails_iff`: the failures of a lowering.
-/

namespace SqlTree

/-- Whether nothing identifies the rows of the source. -/
def Source.isKeyless (s : Source) : Bool :=
  match s.origin with
  | .table t => t.fields.isEmpty
  | .query q => q.columns.isEmpty

/-- Whether the query skips rows in no stated order and has neither columns nor a first source with
a key to order them by. -/
def Query.isUnorderable (q : Query) : Bool :=
  q.hasSkip && q.orderBy.isEmpty && q.columns.isEmpty && q.sources.head?.all Source.isKeyless

/-- Whether the query skips distinct rows in an order that is not among its columns. -/
def Query.isUnprojected (q : Query) : Bool :=
  q.hasSkip && q.distinct && q.orderBy.any fun o => q.columns.all fun c => !c.expr.same o.expr

namespace Survey

/-- A computation fails at the first query that is `bad`, and otherwise it succeeds. -/
def first (bad : Query → Bool) (error : Query → Error) : Survey (Except Error) where
  Holds l x :=
    match l.find? bad with
    | some q => x = .error (error q)
    | none => ∃ a, x = .ok a
  pure a := ⟨a, rfl⟩
  bind {_ _ l l' x f} h g := by
    rw [List.find?_append]
    cases hl : l.find? bad with
    | some q =>
      rw [hl] at h
      simp only [h, Option.some_or]
      rfl
    | none =>
      rw [hl] at h
      obtain ⟨a, rfl⟩ := h
      exact g a

section First

variable {bad : Query → Bool} {error : Query → Error} {α : Type} {x : Except Error α} {q : Query}
  {l : List Query}

theorem first_cons_of_pos (hq : bad q = true) :
    (first bad error).Holds (q :: l) x ↔ x = .error (error q) := by
  simp only [first, List.find?_cons_of_pos hq]

theorem first_cons_of_neg (hq : bad q = false) :
    (first bad error).Holds (q :: l) x ↔ (first bad error).Holds l x := by
  simp only [first, List.find?_cons, hq]

end First

/-- A computation fails only with an error that `Fails` allows for a query that it meets. -/
def failures (Fails : Query → Error → Prop) : Survey Numbering where
  Holds l x := ∀ σ e, x.run σ = .error e → ∃ q ∈ l, Fails q e
  pure a σ e h := by cases h
  bind {_ _ l l' x f} h g σ e herror := by
    rw [StateT.run_bind] at herror
    cases hx : x.run σ with
    | error e' =>
      rw [hx] at herror
      cases herror
      obtain ⟨q, hq, hfails⟩ := h σ e hx
      exact ⟨q, List.mem_append_left l' hq, hfails⟩
    | ok r =>
      rw [hx] at herror
      obtain ⟨q, hq, hfails⟩ := g r.1 r.2 e herror
      exact ⟨q, List.mem_append_right l hq, hfails⟩

end Survey

/-! Orderings. -/

theorem Source.isEmpty_keyExprs (s : Source) : s.keyExprs.isEmpty = s.isKeyless := by
  cases ho : s.origin with
  | table t =>
    rw [Bool.eq_iff_iff]
    simp [keyExprs, isKeyless, ho, Table.keyFields_eq_nil]
  | query q =>
    rw [Bool.eq_iff_iff]
    simp [keyExprs, isKeyless, ho, Query.columnRefs]

theorem Query.isUnorderable_eq (q : Query) :
    q.isUnorderable = (q.lacksOrdering && (q.columns.isEmpty && q.orderKeys.isEmpty)) := by
  unfold isUnorderable lacksOrdering orderKeys
  cases q.columns.isEmpty with
  | false => simp
  | true => cases q.sources.head? <;> simp [Source.isEmpty_keyExprs]

theorem Transform.surveyed_correctPagination : Transform.correctPagination.Surveyed
    (.first Query.isUnorderable fun q => .missingOrdering q.id) where
  expr e := ⟨e, rfl⟩
  query {q p} h := by
    change Survey.Holds _ _ (q.correctPagination p)
    have hq := q.isUnorderable_eq
    rw [Node.queries_query, Query.correctPagination]
    cases hbad : q.isUnorderable with
    | true =>
      obtain ⟨hlacks, hempty⟩ := Bool.and_eq_true_iff.1 (hq.symm.trans hbad)
      rw [if_pos hlacks, if_pos hempty]
      exact (Survey.first_cons_of_pos hbad).2 rfl
    | false =>
      rw [Survey.first_cons_of_neg hbad]
      rw [hbad] at hq
      by_cases hlacks : q.lacksOrdering = true
      · rw [hlacks, Bool.true_and] at hq
        rw [if_pos hlacks, if_neg (by simp [← hq])]
        exact Survey.map h.rebuild _
      · rw [if_neg hlacks]
        exact h.rebuild

/-- Orderings fail at the first query for which there is none, and only there. -/
theorem Statement.correctPagination_eq (s : Statement) :
    match (Node.statement s).queries.find? Query.isUnorderable with
    | some q => s.correctPagination = .error (.missingOrdering q.id)
    | none => ∃ s', s.correctPagination = .ok s' :=
  Transform.surveyed_correctPagination.onStatement s

/-! Row numbers. -/

/-- The errors of row numbers for a query. -/
inductive Query.FailsPaging (q : Query) : Error → Prop
  | unordered (h : q.lacksOrdering = true) :
      FailsPaging q (.pass .emulatePagination (.query q.id) "pagination requires ordering")
  | unprojected (h : q.isUnprojected = true) :
      FailsPaging q (.pass .emulatePagination (.query q.id) "DISTINCT ordering must be projected")

theorem Query.isUnprojected_eq_false {q : Query} : q.isUnprojected = false ↔
    (q.hasSkip = true → q.distinct = true →
      ∀ o ∈ q.orderBy, ∃ c ∈ q.columns, c.expr.same o.expr = true) := by
  simp [isUnprojected]

theorem Query.isUnprojected_of_refOrder? {q : Query} {id : QueryId} (hskip : q.hasSkip = true)
    (hdistinct : q.distinct = true) (h : q.refOrder? id = none) : q.isUnprojected = true := by
  by_contra hprojected
  rw [Bool.not_eq_true, isUnprojected_eq_false] at hprojected
  obtain ⟨order, hsome⟩ := q.exists_refOrder? id (hprojected hskip hdistinct)
  rw [h] at hsome
  cases hsome

namespace Survey

variable {Fails : Query → Error → Prop} {α β : Type} {l l' : List Query} {x : Numbering α}

theorem failures_mono (h : (failures Fails).Holds l x) (hl : l ⊆ l') :
    (failures Fails).Holds l' x := by
  intro σ e herror
  obtain ⟨q, hq, hfails⟩ := h σ e herror
  exact ⟨q, hl hq, hfails⟩

/-- Steps that meet queries of one list. -/
theorem failures_bind {f : α → Numbering β} (h : (failures Fails).Holds l x)
    (g : ∀ a, (failures Fails).Holds l (f a)) : (failures Fails).Holds l (x >>= f) :=
  failures_mono ((failures Fails).bind h g) (by simp)

theorem failures_pure (a : α) : (failures Fails).Holds l (Pure.pure a) :=
  failures_mono ((failures Fails).pure a) (by simp)

theorem failures_modifyGet (f : Ids → α × Ids) : (failures Fails).Holds l (modifyGet f) := by
  intro σ e herror
  cases herror

theorem failures_throw {q : Query} {e : Error} (hq : q ∈ l) (hfails : Fails q e) :
    (failures Fails).Holds l (throw e : Numbering α) := by
  intro σ e' herror
  cases herror
  exact ⟨q, hq, hfails⟩

end Survey

/-- The actions on the clauses of a query fail only at queries of the list. -/
structure QueryParts.FailsAt (l : List Query) (p : QueryParts Numbering) : Prop where
  columns : (Survey.failures Query.FailsPaging).Holds l p.columns
  skip : (Survey.failures Query.FailsPaging).Holds l p.skip
  take : (Survey.failures Query.FailsPaging).Holds l p.take
  sources : (Survey.failures Query.FailsPaging).Holds l p.sources
  filter : (Survey.failures Query.FailsPaging).Holds l p.filter
  groupBy : (Survey.failures Query.FailsPaging).Holds l p.groupBy
  having : (Survey.failures Query.FailsPaging).Holds l p.having
  orderBy : (Survey.failures Query.FailsPaging).Holds l p.orderBy

namespace QueryParts

open Survey

variable {q : Query} {p : QueryParts Numbering} {l : List Query}

theorem Surveyed.failsAt (h : p.Surveyed (failures Query.FailsPaging) q) :
    p.FailsAt (Node.query q).queries := by
  rw [Node.queries_query]
  simp only [Node.children, List.flatMap_append, List.flatMap_map, Node.queries_column,
    Node.queries_order]
  refine ⟨failures_mono h.columns ?_, failures_mono h.skip ?_, failures_mono h.take ?_,
    failures_mono h.sources ?_, failures_mono h.filter ?_, failures_mono h.groupBy ?_,
    failures_mono h.having ?_, failures_mono h.orderBy ?_⟩ <;> intro r hr <;>
      simp only [List.mem_cons, List.mem_append, hr, true_or, or_true]

namespace FailsAt

variable (h : p.FailsAt l)

include h

theorem rows (q : Query) : (failures Query.FailsPaging).Holds l (p.rows q) :=
  failures_bind h.columns fun _ => failures_bind h.sources fun _ => failures_bind h.filter fun _ =>
    failures_bind h.groupBy fun _ => failures_bind h.having fun _ => failures_pure _

theorem numberedRows (q : Query) : (failures Query.FailsPaging).Holds l (p.numberedRows q) :=
  failures_bind h.columns fun _ => failures_bind h.orderBy fun _ => failures_bind h.sources fun _ =>
    failures_bind h.filter fun _ => failures_bind h.groupBy fun _ =>
      failures_bind h.having fun _ => failures_pure _

theorem bounds (q : Query) (number : Expr) :
    (failures Query.FailsPaging).Holds l (p.bounds q number) := by
  unfold QueryParts.bounds
  refine failures_bind h.skip fun skip => ?_
  by_cases htake : q.take.isNone = true
  · rw [if_pos htake]
    exact failures_pure _
  · rw [if_neg htake]
    exact failures_bind h.skip fun _ => failures_bind h.take fun _ => failures_pure _

end FailsAt

end QueryParts

open Survey in
theorem Transform.surveyed_emulatePagination :
    Transform.emulatePagination.Surveyed (.failures Query.FailsPaging) where
  expr e := failures_pure e
  query {q p} h := by
    -- Clauses move to other queries and the number of rows to skip is used twice, so that only the
    -- set of queries is kept.
    have hparts := h.failsAt
    have hself : q ∈ (Node.query q).queries := by simp [Node.queries_query]
    change Holds _ _ (q.emulatePagination p)
    unfold Query.emulatePagination
    cases hskip : q.hasSkip with
    | false =>
      rw [Node.queries_query]
      exact failures_mono h.rebuild (by simp)
    | true =>
      by_cases horder : q.orderBy.isEmpty = true
      · rw [if_neg (by simp), if_pos horder]
        exact failures_throw hself (.unordered (by simp [Query.lacksOrdering, hskip, horder]))
      · rw [if_neg (by simp), if_neg horder]
        by_cases hdistinct : q.distinct = true
        · rw [if_pos hdistinct]
          refine failures_bind (failures_modifyGet _) fun rowsId => ?_
          cases href : q.refOrder? rowsId with
          | none =>
            have hunprojected := Query.isUnprojected_of_refOrder? hskip hdistinct href
            exact failures_throw hself (.unprojected hunprojected)
          | some order =>
            refine failures_bind (failures_modifyGet _) fun _ => ?_
            refine failures_bind (failures_modifyGet _) fun _ => ?_
            refine failures_bind (failures_modifyGet _) fun _ => ?_
            refine failures_bind (hparts.rows _) fun _ => ?_
            exact failures_bind (hparts.bounds _ _) fun _ => failures_pure _
        · rw [if_neg hdistinct]
          refine failures_bind (failures_modifyGet _) fun _ => ?_
          refine failures_bind (failures_modifyGet _) fun _ => ?_
          refine failures_bind (hparts.numberedRows _) fun _ => ?_
          exact failures_bind (hparts.bounds _ _) fun _ => failures_pure _

theorem Query.isUnprojected_of_same {q q' : Query} (h : q.same q' = true)
    (hq : q.isUnprojected = false) : q'.isUnprojected = false := by
  have haligned := Query.Aligned.of_same h
  rw [isUnprojected_eq_false] at hq ⊢
  intro hskip hdistinct o' ho'
  obtain ⟨o, ho, hsame, -⟩ := exists_of_forall₂ haligned.orderBy ho'
  obtain ⟨c, hc, hcolumn⟩ := hq ((rel_isSome haligned.skip).symm.trans hskip)
    (haligned.distinct.symm.trans hdistinct) o ho
  obtain ⟨c', hc', hsame', -⟩ := exists_of_forall₂ haligned.symm.columns hc
  exact ⟨c', hc', Expr.same_congr hsame' hsame hcolumn⟩

theorem Query.Emulated.isUnprojected {RE : Expr → Expr → Prop} {RS : Source → Source → Prop}
    {ids : Ids} {q q' : Query} (h : q.Emulated RE RS ids q') : q.isUnprojected = false := by
  rw [isUnprojected_eq_false]
  intro hskip hdistinct o ho
  cases h with
  | rebuilt hnone => exact absurd hskip (by simp [hnone])
  | numbered _ hmany => exact absurd hdistinct (by simp [hmany])
  | distinct _ _ _ _ _ _ horder =>
    obtain ⟨_, _, index, c, hc, hsame, -⟩ :=
      exists_of_forall₂ (R := flip (q.RefersTo _)) horder.flip ho
    exact ⟨c, List.mem_of_getElem? hc, hsame⟩

namespace Statement

variable {s s' : Statement}

/-- Row numbers fail only at a query of the statement. -/
theorem exists_of_emulatePagination_eq_error {e : Error} (h : s.emulatePagination = .error e) :
    ∃ q ∈ (Node.statement s).queries, q.FailsPaging e := by
  refine Transform.surveyed_emulatePagination.onStatement s (.after (.statement s)) e ?_
  rw [emulatePagination, StateT.run'_eq] at h
  cases hrun : (s.transform .emulatePagination).run (.after (.statement s)) with
  | error e' =>
    rw [hrun] at h
    cases h
    rfl
  | ok r =>
    rw [hrun] at h
    cases h

/-- Row numbers succeed only if distinct rows are ordered by what they project. -/
theorem projected_of_emulatePagination (h : s.emulatePagination = .ok s') :
    ∀ q ∈ (Node.statement s).queries, q.isUnprojected = false := by
  let P := Node.IfQuery fun q => q.isUnprojected = false
  have hleads := Transform.leads_emulatePagination (.after (.statement s)) (C := fun _ => True)
    (P := fun q => q.isUnprojected = false)
    (fun _ q' _ _ hskip _ _ => by simp [Query.isUnprojected, hskip])
    (fun _ _ _ r _ hskip _ => by simp [Query.isUnprojected, hskip])
  have hcomes := Transform.comesFrom_emulatePagination (.after (.statement s))
    (P := fun q => q.isUnprojected = false) (C := fun q => q.isUnprojected = false)
    (fun _ _ hsame hq₁ => Query.isUnprojected_of_same hsame hq₁) (fun h _ => h.isUnprojected)
  obtain ⟨σ, hrun⟩ := exists_run_emulatePagination h
  obtain ⟨-, hto⟩ := hleads.onStatement s _ s' σ (Ids.le_refl _) hrun
  obtain ⟨-, hfrom⟩ := hcomes.onStatement s _ s' σ (Ids.le_refl _) hrun
  have hs' : (Node.statement s').All P :=
    hto.leads (fun _ _ h => h) (fun _ _ h => h) (fun _ _ h => h) (Node.IfQuery.ofTrees _)
      fun _ _ => trivial
  exact Node.forall_mem_queries.2 (hfrom.symm.leads (fun _ _ h => h) (fun _ _ h => h)
    (fun _ _ h => h) (Node.IfQuery.ofTrees _) hs')

/-- The errors of row numbers, if the queries that skip rows are ordered. -/
theorem Ordered.exists_unprojected (hs : s.Ordered) {e : Error}
    (h : s.emulatePagination = .error e) :
    ∃ q ∈ (Node.statement s).queries, q.isUnprojected = true ∧
      e = .pass .emulatePagination (.query q.id) "DISTINCT ordering must be projected" := by
  obtain ⟨q, hq, hfails⟩ := exists_of_emulatePagination_eq_error h
  cases hfails with
  | unordered hlacks =>
    have hordered := Node.forall_mem_queries.2 hs q hq
    exact absurd hlacks (by simp [hordered])
  | unprojected hunprojected => exact ⟨q, hq, hunprojected, rfl⟩

theorem Ordered.emulatePagination_fails_iff (hs : s.Ordered) :
    (∃ e, s.emulatePagination = .error e) ↔
      ∃ q ∈ (Node.statement s).queries, q.isUnprojected = true := by
  constructor
  · rintro ⟨e, he⟩
    obtain ⟨q, hq, hunprojected, -⟩ := hs.exists_unprojected he
    exact ⟨q, hq, hunprojected⟩
  · rintro ⟨q, hq, hunprojected⟩
    cases hpaged : s.emulatePagination with
    | error e => exact ⟨e, rfl⟩
    | ok s' => exact absurd hunprojected (by simp [projected_of_emulatePagination hpaged q hq])

theorem Aligned.kind {RE : Expr → Expr → Prop} {RQ : Query → Query → Prop}
    {RS : Source → Source → Prop} (h : s.Aligned RE RQ RS s') : s'.kind = s.kind := by
  cases h <;> rfl

theorem toSingleTable_of_kind (hs : s.kind ≠ .update ∧ s.kind ≠ .delete) : s.toSingleTable = s := by
  cases s with
  | update => exact absurd rfl hs.1
  | delete => exact absurd rfl hs.2
  | _ => rfl

end Statement

namespace Dialect

variable {d : Dialect} {config : Config} {ctx : Context} {s s₁ : Statement}

theorem single_of_kind (hs : s.kind ≠ .update ∧ s.kind ≠ .delete) : d.single s = s := by
  unfold single
  rw [Statement.toSingleTable_of_kind hs, ite_self]

/-- Once there are orderings, a lowering fails where row numbers do, unless the conversion cannot go
on. -/
theorem Standard.lower_eq_error_iff (hd : d.Standard) (hs : s.kind ≠ .update ∧ s.kind ≠ .delete)
    (h₁ : s.correctPagination = .ok s₁) {e : Error} (he : e ≠ .overflow) :
    d.lower config ctx s = .error e ↔
      d.capabilities.offsetFetch = false ∧ s₁.fixEmptyProjection.emulatePagination = .error e := by
  have hkind := (Transform.ordered_correctPagination.onStatement s s₁ h₁).kind
  have hconvert : ∀ s₂, d.convertStatement ctx s₂ ≠ .error e := by
    intro s₂ hs₂
    obtain ⟨s', hattempts⟩ := hd.exists_attempts ctx s₂
    exact he (hattempts.eq_error_iff.1 hs₂).2
  rw [d.lower_eq config ctx hd.edits, h₁]
  change d.paged (d.single s₁).fixEmptyProjection >>= _ = _ ↔ _
  rw [single_of_kind (hkind.symm ▸ hs), paged]
  cases hfetch : d.capabilities.offsetFetch with
  | true => simp [bind, Except.bind, hconvert]
  | false =>
    cases hpaged : s₁.fixEmptyProjection.emulatePagination with
    | error e' => simp [bind, Except.bind]
    | ok s₂ => simp [bind, Except.bind, hconvert]

/-- The passes before the conversion do not overflow. -/
theorem prepared_ne_overflow (hs : s.kind ≠ .update ∧ s.kind ≠ .delete) :
    d.prepared config s ≠ .error .overflow := by
  intro h
  have horders := s.correctPagination_eq
  split at horders
  · rw [prepared, horders] at h
    cases h
  · obtain ⟨s₁, h₁⟩ := horders
    have hkind := (Transform.ordered_correctPagination.onStatement s s₁ h₁).kind
    have hordered : s₁.fixEmptyProjection.Ordered :=
      (Statement.keepsOrder_fixEmptyProjection s₁).ordered (Statement.ordered_correctPagination h₁)
    rw [prepared, h₁] at h
    change d.paged (d.single s₁).fixEmptyProjection >>= _ = _ at h
    rw [single_of_kind (hkind.symm ▸ hs), paged] at h
    split at h
    · cases h
    · cases hpaged : s₁.fixEmptyProjection.emulatePagination with
      | error e =>
        rw [hpaged] at h
        obtain ⟨q, -, -, rfl⟩ := hordered.exists_unprojected hpaged
        cases h
      | ok s₂ =>
        rw [hpaged] at h
        cases h

/-- A selection, an insertion or a merge cannot be lowered if a query of it has nothing to order by,
or, on an engine without bounds, if distinct rows are in an order that is not projected. The error
names the first query of the former kind, or else one of the latter. Apart from these, a lowering
fails only where the conversion cannot go on. -/
theorem lower_fails_iff (hd : d.Standard) (hs : s.kind ≠ .update ∧ s.kind ≠ .delete) :
    ((∃ e ≠ .overflow, d.lower config ctx s = .error e) ↔
      (∃ q ∈ (Node.statement s).queries, q.isUnorderable = true) ∨
        d.capabilities.offsetFetch = false ∧ ∃ s₁, s.correctPagination = .ok s₁ ∧
          ∃ q ∈ (Node.statement s₁.fixEmptyProjection).queries, q.isUnprojected = true) ∧
    (∀ q, (Node.statement s).queries.find? Query.isUnorderable = some q →
      d.lower config ctx s =
        .error (.pass .correctPagination (.query q.id) "pagination requires ordering")) ∧
    (∀ e ≠ .overflow, d.lower config ctx s = .error e →
      (∀ q ∈ (Node.statement s).queries, q.isUnorderable = false) →
        ∃ s₁, s.correctPagination = .ok s₁ ∧
          ∃ q ∈ (Node.statement s₁.fixEmptyProjection).queries, q.isUnprojected = true ∧
            e = .pass .emulatePagination (.query q.id) "DISTINCT ordering must be projected") ∧
    (d.lower config ctx s = .error .overflow ↔
      ∃ s₁, d.prepared config s = .ok s₁ ∧ d.GivesUp ctx s₁) := by
  have horders := s.correctPagination_eq
  have hoverflow : d.lower config ctx s = .error .overflow ↔
      ∃ s₁, d.prepared config s = .ok s₁ ∧ d.GivesUp ctx s₁ := by
    rw [hd.lower_eq_bind]
    cases hprepared : d.prepared config s with
    | error e =>
      have hne : e ≠ .overflow := fun he => prepared_ne_overflow hs (he ▸ hprepared)
      simp [bind, Except.bind, hne]
    | ok s₁ =>
      obtain ⟨s', hattempts⟩ := hd.exists_attempts ctx s₁
      simp [bind, Except.bind, hattempts.eq_error_iff]
  cases hfind : (Node.statement s).queries.find? Query.isUnorderable with
  | some q =>
    rw [hfind] at horders
    have hq : q ∈ (Node.statement s).queries := List.mem_of_find?_eq_some hfind
    have hbad : q.isUnorderable = true := List.find?_some hfind
    have hlower : d.lower config ctx s = .error (.missingOrdering q.id) := by
      rw [d.lower_eq config ctx hd.edits, horders]
      rfl
    have hne : Error.missingOrdering q.id ≠ .overflow := by simp [Error.missingOrdering]
    refine ⟨iff_of_true ⟨_, hne, hlower⟩ (.inl ⟨q, hq, hbad⟩), ?_, ?_, hoverflow⟩
    · rintro _ ⟨⟩
      exact hlower
    · intro e _ _ hnone
      exact absurd hbad (by simp [hnone q hq])
  | none =>
    rw [hfind] at horders
    obtain ⟨s₁, h₁⟩ := horders
    have hordered : s₁.fixEmptyProjection.Ordered :=
      (Statement.keepsOrder_fixEmptyProjection s₁).ordered (Statement.ordered_correctPagination h₁)
    have hnone : ∀ q ∈ (Node.statement s).queries, q.isUnorderable = false := by
      simpa using hfind
    have hfails : (∃ e ≠ .overflow, d.lower config ctx s = .error e) ↔
        d.capabilities.offsetFetch = false ∧
          ∃ q ∈ (Node.statement s₁.fixEmptyProjection).queries, q.isUnprojected = true := by
      rw [← hordered.emulatePagination_fails_iff, ← exists_and_left]
      refine exists_congr fun e => ⟨fun ⟨he, h⟩ => (hd.lower_eq_error_iff hs h₁ he).1 h, fun h => ?_⟩
      have he : e ≠ .overflow := by
        obtain ⟨q, -, -, rfl⟩ := hordered.exists_unprojected h.2
        simp
      exact ⟨he, (hd.lower_eq_error_iff hs h₁ he).2 h⟩
    refine ⟨hfails.trans ⟨?_, ?_⟩, by simp, ?_, hoverflow⟩
    · rintro ⟨hfetch, hq⟩
      exact .inr ⟨hfetch, s₁, h₁, hq⟩
    · rintro (⟨q, hq, hbad⟩ | ⟨hfetch, s₂, h₂, hq⟩)
      · exact absurd hbad (by simp [hnone q hq])
      · cases h₁.symm.trans h₂
        exact ⟨hfetch, hq⟩
    · intro e hne he _
      obtain ⟨-, hpaged⟩ := (hd.lower_eq_error_iff hs h₁ hne).1 he
      exact ⟨s₁, h₁, hordered.exists_unprojected hpaged⟩

end Dialect

namespace Sample

/-- The players but for the best one, in the order of points that are not among the columns. -/
def ranking : Query := { runnersUp with columns := [{ expr := player 1 }], filter := none }

/-- A selection from a derived table, if there is a row after the first one of no table at all. -/
def unfounded : Query :=
  { report with filter := some (.existsRow { id := ⟨3⟩, skip := some (.int 1) }) }

theorem lower_fails_ranking :
    (∃ e, bare.lower {} {} (.insert scores [] ranking) = .error e) ∧
      bare.lower {} {} (.select unfounded) =
        .error (.pass .correctPagination (.query ⟨3⟩) "pagination requires ordering") := by
  have hstandard : bare.Standard := .custom rfl rfl
  have hunprojected : ∃ q ∈ (Node.statement (Statement.insert scores [] ranking)).queries,
      q.isUnprojected = true := by
    decide +kernel
  have hunorderable : (Node.statement (.select unfounded)).queries.find? Query.isUnorderable =
      some { id := ⟨3⟩, skip := some (.int 1) } := by
    rfl
  constructor
  · have hfails : (∃ e ≠ .overflow, bare.lower {} {} (.insert scores [] ranking) = .error e) ↔ _ :=
      (Dialect.lower_fails_iff hstandard (by decide)).1
    obtain ⟨e, -, he⟩ := hfails.2 (.inr ⟨rfl, _, rfl, hunprojected⟩)
    exact ⟨e, he⟩
  · exact (Dialect.lower_fails_iff hstandard (by decide)).2.1 _ hunorderable

end Sample

end SqlTree
