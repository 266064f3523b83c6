import SqlTree.Proofs.Lowering.Arguments
import SqlTree.Proofs.Lowering.Conformance
import SqlTree.Proofs.Settled

/-! # Passes that are run again

A pass takes one thing out of a statement, wherever it stands, and returns a statement without it.
So a second run of the same pass finds nothing to do: it returns the statement and takes no ids.

Main statements:

* `Statement.Ordered.correctPagination`, `Statement.fixEmptyProjection_of_projected`,
  `Statement.emulatePagination_of_unbounded`, `Statement.inlineAllParameters_of_unbound`,
  `Statement.Unbound.inlineFunctionParameters`: statements that a pass returns.
* `Dialect.runPass_of_runPass`: a pass returns what it made.
-/

namespace SqlTree

/-! Queries that a pass puts back. -/

namespace Query

variable {q : Query}

theorem correctPagination_eq_rebuild (h : q.Ordered) :
    q.correctPagination = QueryParts.rebuild q := by
  funext p
  simp [correctPagination, show q.lacksOrdering = false from h]

theorem emulatePagination_eq_rebuild (h : q.hasSkip = false) :
    q.emulatePagination = QueryParts.rebuild q := by
  funext p
  simp [emulatePagination, h]

theorem fixEmptyProjection_eq_rebuild (h : q.Projected) :
    Transform.fixEmptyProjection.query q = QueryParts.rebuild q := by
  funext p
  simp [Transform.fixEmptyProjection, fixEmptyProjection, show q.lacksProjection = false from h]

end Query

theorem Expr.unbind_of_not_isBound {e : Expr} (h : (Node.expr e).isBoundParameter = false) :
    e.unbind = e := by
  cases e with
  | parameter x =>
    cases x
    cases h
    rfl
  | _ => rfl

theorem Expr.Unbound.unbindArgs {e : Expr} (h : e.Unbound) : e.unbindArgs = e := by
  cases e with
  | call name t args flags =>
    have hargs : ∀ a ∈ args, a.unbind = a := by
      intro a ha
      refine unbind_of_not_isBound ?_
      cases a with
      | parameter x => exact Bool.eq_false_iff.2 fun hx => h x ⟨hx, ha⟩
      | _ => rfl
    rw [Expr.unbindArgs, List.map_congr_left hargs, List.map_id']
  | _ => rfl

@[simp] theorem Expr.unbind_unbind (e : Expr) : e.unbind.unbind = e.unbind := by
  cases e <;> rfl

/-! Statements that a pass returns. -/

/-- The query over the new source has the shape of one over a single table. -/
theorem Query.target?_overTarget (q : Query) (t : Target) (outer : SourceId) (aliasName : String)
    (id : QueryId) : (q.overTarget t outer aliasName id).target? (some outer) = none := by
  simp [Query.target?, Query.overTarget, Query.isMultiTable]

namespace Statement

variable {s : Statement}

theorem Ordered.correctPagination (h : s.Ordered) : s.correctPagination = .ok s :=
  transform_of_settled fun n hn =>
    ⟨fun _ _ => rfl, fun q hq => q.correctPagination_eq_rebuild (h n hn q hq)⟩

theorem fixEmptyProjection_of_projected
    (h : (Node.statement s).All (Node.IfQuery Query.Projected)) : s.fixEmptyProjection = s :=
  congrArg Id.run (transform_of_settled (t := .fixEmptyProjection) fun n hn =>
    ⟨fun _ _ => rfl, fun q hq => q.fixEmptyProjection_eq_rebuild (h n hn q hq)⟩)

/-- Where no query skips rows, none is changed and no ids are taken. -/
theorem emulatePagination_of_unbounded
    (h : (Node.statement s).All (Node.IfQuery fun q => q.hasSkip = false)) :
    s.emulatePagination = .ok s := by
  have hsettled : s.transform .emulatePagination = pure s := transform_of_settled fun n hn =>
    ⟨fun _ _ => rfl, fun q hq => q.emulatePagination_eq_rebuild (h n hn q hq)⟩
  rw [emulatePagination, hsettled]
  rfl

theorem inlineAllParameters_of_unbound
    (h : (Node.statement s).All fun n => n.isBoundParameter = false) :
    s.inlineAllParameters = s :=
  congrArg Id.run (transform_of_settled (t := .ofFun Expr.unbind) fun n hn =>
    Transform.settles_ofFun.2 fun e he => e.unbind_of_not_isBound (he ▸ h n hn))

theorem Unbound.inlineFunctionParameters (h : s.Unbound) : s.inlineFunctionParameters = s :=
  congrArg Id.run (transform_of_settled (t := .ofFun Expr.unbindArgs) fun n hn =>
    Transform.settles_ofFun.2 fun e he => (h n hn e he).unbindArgs)

/-! What a pass made. -/

theorem unbounded_of_emulatePagination {s' : Statement} (h : s.emulatePagination = .ok s') :
    (Node.statement s').All (Node.IfQuery fun q => q.hasSkip = false) := by
  have hyields := Transform.leads_emulatePagination (.after (.statement s)) (C := fun _ => True)
    (P := fun q => q.hasSkip = false) (fun _ _ _ _ hskip _ _ => hskip) fun _ _ _ _ _ hskip _ => hskip
  obtain ⟨σ, hrun⟩ := exists_run_emulatePagination h
  obtain ⟨-, haligned⟩ := hyields.onStatement s _ s' σ (Ids.le_refl _) hrun
  exact haligned.leads (fun _ _ h => h) (fun _ _ h => h) (fun _ _ h => h) (Node.IfQuery.ofTrees _)
    fun _ _ => trivial

theorem debindInsertParameters_debindInsertParameters (s : Statement) :
    s.debindInsertParameters.debindInsertParameters = s.debindInsertParameters := by
  cases s with
  | insert into items q => simp [debindInsertParameters, Query.unbindColumns]
  | _ => rfl

theorem toSingleTable_toSingleTable (s : Statement) :
    s.toSingleTable.toSingleTable = s.toSingleTable := by
  cases s with
  | delete target q =>
    cases ht : q.target? target with
    | none => simp [toSingleTable_delete, ht]
    | some t => simp [toSingleTable_delete, ht, Query.target?_overTarget]
  | update target items q =>
    cases ht : q.target? target with
    | none => simp [toSingleTable_update, ht]
    | some t => simp [toSingleTable_update, ht, Query.target?_overTarget]
  | _ => rfl

end Statement

namespace Dialect

variable {d : Dialect} {ctx : Context}

/-- A pass other than the conversion returns the statement that it made. -/
theorem runPass_of_runPass {p : Pass} (hp : p ≠ .convertExpressions) {s s' : Statement}
    (h : d.runPass ctx p s = .ok s') : d.runPass ctx p s' = .ok s' := by
  cases p with
  | correctPagination => exact (Statement.ordered_correctPagination h).correctPagination
  | singleTableDml =>
    cases h
    exact congrArg Except.ok s.toSingleTable_toSingleTable
  | fixEmptyProjection =>
    cases h
    exact congrArg Except.ok
      (Statement.fixEmptyProjection_of_projected s.projected_fixEmptyProjection)
  | emulatePagination =>
    exact Statement.emulatePagination_of_unbounded (Statement.unbounded_of_emulatePagination h)
  | debindInsertParameters =>
    cases h
    exact congrArg Except.ok s.debindInsertParameters_debindInsertParameters
  | inlineFunctionParameters =>
    cases h
    exact congrArg Except.ok s.unbound_inlineFunctionParameters.inlineFunctionParameters
  | inlineAllParameters =>
    cases h
    exact congrArg Except.ok
      (Statement.inlineAllParameters_of_unbound s.unbound_inlineAllParameters)
  | convertExpressions => exact absurd rfl hp

end Dialect

namespace Sample

theorem runPass_of_runPass_dropBlocked :
    bare.runPass {} .singleTableDml dropBlocked = .ok dropFound ∧
      bare.runPass {} .singleTableDml dropFound = .ok dropFound := by
  have hfirst : bare.runPass {} .singleTableDml dropBlocked = .ok dropFound :=
    congrArg Except.ok toSingleTable_dropBlocked
  exact ⟨hfirst, Dialect.runPass_of_runPass (by decide) hfirst⟩

end Sample

end SqlTree
