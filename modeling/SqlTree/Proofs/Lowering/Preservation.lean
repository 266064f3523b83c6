import SqlTree.Proofs.Invariant
import SqlTree.Proofs.Lowering.Conversion
import SqlTree.Proofs.Lowering.Pipeline

/-! # What the last passes keep

The passes that write parameters into the text and the conversion act on expressions where they
stand. They keep the form of every query, and no expression becomes a parameter by them that was not
one before.

Main definitions:

* `Dialect.Standard`: a dialect with the default passes and a built-in conversion.
* `Dialect.GivesUp`: the conversion of a dialect cannot go on in a statement.
* `Node.Kept`: a property that depends on no more than that.

Main statements:

* `Dialect.Standard.exists_attempts`: the conversion succeeds, or it cannot go on.
* `Dialect.Standard.exists_lower`: a lowering succeeds if the passes before the conversion do and
  the conversion can go on.
* `SqlCe.Converted.leads`: a conversion keeps such a property of all nodes.
* `Node.Kept.inlined`, `Node.Kept.convert`: so do the passes.
-/

namespace SqlTree

/-- The dialect runs the passes that its capabilities call for and converts expressions as a
built-in dialect does. -/
structure Dialect.Standard (d : Dialect) : Prop where
  edits : d.edits = []
  convert : ∃ k : DialectKind, d.convert = k.dialect.convert

/-- The dialect converts expressions, and the statement has an operation where the conversion cannot
go on. -/
def Dialect.GivesUp (d : Dialect) (ctx : Context) (s : Statement) : Prop :=
  d.convert ≠ DialectKind.generic.dialect.convert ∧ ¬ (Node.statement s).Convertible ctx

theorem DialectKind.edits_dialect (k : DialectKind) : k.dialect.edits = [] := by cases k <;> rfl

namespace Dialect.Standard

theorem builtIn (k : DialectKind) : k.dialect.Standard := ⟨k.edits_dialect, k, rfl⟩

theorem convert_custom {c : CustomDialect} (hconvert : c.convert = .ok) :
    c.dialect.convert = c.base.dialect.convert := by
  funext ctx e
  simp only [CustomDialect.dialect, hconvert]
  exact bind_pure _

theorem custom {c : CustomDialect} (hedits : c.edits = []) (hconvert : c.convert = .ok) :
    c.dialect.Standard :=
  ⟨hedits, c.base, convert_custom hconvert⟩

theorem converted {d : Dialect} (hd : d.Standard) {ctx : Context} {e e' : Expr}
    (h : d.convert ctx e = .ok e') : SqlCe.Converted e e' := by
  obtain ⟨k, hk⟩ := hd.convert
  rw [hk] at h
  cases k with
  | generic =>
    cases h
    exact .unchanged e
  | sqlCe =>
    obtain ⟨-, rfl⟩ := ((SqlCe.conversion_attempts ctx).expr e).eq_ok_iff.1 h
    exact SqlCe.converted ctx e

/-- The conversion succeeds unless it comes to an operation where it cannot go on. -/
theorem exists_attempts {d : Dialect} (hd : d.Standard) (ctx : Context) (s : Statement) :
    ∃ s', Attempts .overflow (¬ d.GivesUp ctx s) s' (d.convertStatement ctx s) := by
  by_cases hgeneric : d.convert = DialectKind.generic.dialect.convert
  · let O := Outcome.total Error
    have hyields : (d.conversion ctx).Yields O (fun _ _ => True) (fun _ _ => True)
        (fun _ _ => True) := by
      refine ⟨fun {_ e} _ => ?_, fun h => O.mono h.rebuild fun _ _ => trivial, fun _ => trivial⟩
      change O.Holds _ (d.convert ctx e)
      rw [hgeneric]
      exact ⟨e, rfl, trivial⟩
    obtain ⟨s', hs', -⟩ := hyields.onStatement s
    exact ⟨s', fun _ => hs', fun h => absurd (fun hgives => hgives.1 hgeneric) h⟩
  · obtain ⟨k, hk⟩ := hd.convert
    cases k with
    | generic => exact absurd hk hgeneric
    | sqlCe =>
      have hconversion : d.conversion ctx = SqlCe.dialect.conversion ctx := by
        rw [Dialect.conversion, hk]
        rfl
      have hattempts := SqlCe.convertStatement_attempts ctx s
      rw [Dialect.convertStatement, ← hconversion] at hattempts
      exact ⟨_, hattempts.of_iff (by simp [Dialect.GivesUp, hgeneric])⟩

theorem lower_eq_bind {d : Dialect} (hd : d.Standard) (config : Config) (ctx : Context)
    (s : Statement) :
    d.lower config ctx s = d.prepared config s >>= d.convertStatement ctx := by
  rw [d.lower_eq config ctx hd.edits, prepared]
  simp

/-- A lowering succeeds if the passes before the conversion do and the conversion can go on. -/
theorem exists_lower {d : Dialect} (hd : d.Standard) {config : Config} {ctx : Context}
    {s s₁ : Statement} (h : d.prepared config s = .ok s₁) (hs₁ : ¬ d.GivesUp ctx s₁) :
    ∃ s', d.lower config ctx s = .ok s' ∧ d.convertStatement ctx s₁ = .ok s' := by
  obtain ⟨s', hattempts⟩ := hd.exists_attempts ctx s₁
  have hs' := hattempts.succeeds hs₁
  refine ⟨s', ?_, hs'⟩
  rw [hd.lower_eq_bind, h]
  exact hs'

end Dialect.Standard

/-! Insertions with unbound parameters. -/

section Unbind

variable {RE : Expr → Expr → Prop} {RQ : Query → Query → Prop} {RS : Source → Source → Prop}

theorem Query.aligned_unbindColumns (hE : ∀ e, RE e e) (hS : ∀ s, RS s s)
    (hunbind : ∀ e, RE e e.unbind) (q : Query) : q.Aligned RE RS q.unbindColumns := by
  have hrel : ∀ o : Option Expr, Option.Rel RE o o := by
    rintro (_ | e)
    · exact .none
    · exact .some (hE e)
  refine ⟨rfl, ?_, rfl, hrel _, hrel _, ?_, hrel _, ?_, hrel _, ?_⟩
  all_goals simp [unbindColumns, List.forall₂_same, hE, hS, hunbind]

theorem Statement.aligned_debindInsertParameters (hunbind : ∀ e, RE e e.unbind)
    (hcolumns : ∀ q, RQ q q.unbindColumns) (into : Table) (items : List SetItem) (q : Query) :
    Statement.Aligned RE RQ RS (.insert into items q)
      (Statement.insert into items q).debindInsertParameters := by
  refine .insert into (List.forall₂_map_right_iff.2 ?_) (hcolumns q)
  exact List.forall₂_same.2 fun i _ => ⟨rfl, hunbind i.expr⟩

end Unbind

/-- The property asks nothing of expressions but of parameters, which have it also when they are
unbound, and of a query it depends on the form only. -/
structure Node.Kept (P : Node → Prop) : Prop extends Node.Selective P where
  unbind : ∀ x : Parameter, P (.expr (.parameter x)) → P (.expr (.parameter x.unbind))
  query : ∀ {RE : Expr → Expr → Prop} {RS : Source → Source → Prop} {q q' : Query},
    q.Aligned RE RS q' → P (.query q) → P (.query q')

theorem Node.IfQuery.kept {P : Query → Prop}
    (hP : ∀ {RE : Expr → Expr → Prop} {RS : Source → Source → Prop} {q q' : Query},
      q.Aligned RE RS q' → P q → P q') : Node.Kept (Node.IfQuery P) where
  toSelective := Node.IfQuery.selective P
  unbind _ _ q hq := by cases hq
  query {_ _ q q'} h hq r hr := by
    cases hr
    exact hP h (hq q rfl)

/-- A parameter that is not bound. -/
theorem Node.kept_isBoundParameter : Node.Kept fun n => n.isBoundParameter = false where
  statement _ := rfl
  column _ := rfl
  source _ := rfl
  join _ := rfl
  table _ := rfl
  order _ := rfl
  setItem _ := rfl
  mergeOperation _ := rfl
  expr e he := by
    cases e with
    | parameter x => exact absurd rfl (he x)
    | _ => rfl
  unbind _ _ := rfl
  query _ _ := rfl

section Kept

variable {P : Node → Prop} (hP : Node.Kept P)

include hP

namespace Node.Kept

theorem leads_unbind (e : Expr) : Node.Leads P P (.expr e) (.expr e.unbind) := by
  intro he
  cases e with
  | parameter x =>
    refine (Node.all_iff _).2 ⟨hP.unbind x he.self, ?_⟩
    simp [Expr.unbind, Node.children]
  | _ => exact he

theorem leads_unbindArgs (e : Expr) : Node.Leads P P (.expr e) (.expr e.unbindArgs) := by
  intro he
  cases e with
  | call name t args flags =>
    refine hP.all_call.2 (List.forall_mem_map.2 fun a ha => ?_)
    exact hP.leads_unbind a (hP.all_call.1 he a ha)
  | _ => exact he

end Node.Kept

/-- What a conversion makes of an expression consists of its children and of new nodes that are
neither parameters nor queries. -/
theorem SqlCe.Converted.leads {e e' : Expr} (h : Converted e e') :
    Node.Leads P P (.expr e) (.expr e') := by
  intro he
  cases h with
  | unchanged => exact he
  | modulo =>
    obtain ⟨hl, hr⟩ := hP.all_binary.1 he
    exact hP.all_binary.2 ⟨hP.all_call.2 (by simp [hP.all_typeName, hl]), hr⟩
  | @shift _ l r date _ _ _ _ hdate =>
    have hdate : (Node.expr date).All P := by
      rcases hdate with rfl | rfl
      · exact (hP.all_binary.1 he).1
      · exact (hP.all_binary.1 he).2
    exact hP.all_call.2 (by simp [hP.all_raw, Expr.long, hP.all_value, hdate])
  | null => exact hP.all_value _ _
  | floor =>
    have hargs := hP.all_call.1 he
    simp only [List.forall_mem_cons] at hargs
    exact hP.all_call.2 (by simp [Expr.function, hP.all_call, hargs.1, hargs.2.1])
  | text => exact hP.all_raw.2 (by simpa using hP.all_call.1 he _ (by simp))
  | value => exact hP.all_call.1 he _ (by simp)

section Rebuild

variable {m : Type → Type} [Monad m] [LawfulMonad m] {O : Outcome m} {t : Transform m}

/-- A transformation that acts on expressions only. -/
theorem Transform.keeps (hquery : t.query = QueryParts.rebuild)
    (hexpr : ∀ e, O.Holds (fun e' => Node.Leads P P (.expr e) (.expr e')) (t.expr e)) :
    t.Yields O (fun e e' => Node.Leads P P (.expr e) (.expr e'))
      (fun q q' => Node.Leads P P (.query q) (.query q'))
      (fun s s' => Node.Leads P P (.source s) (.source s')) where
  expr {e e'} h := O.mono (hexpr e') fun e'' hconverted he =>
    hconverted (h.leads_of_selective hP.toSelective (fun _ _ h => h) (fun _ _ h => h) he)
  query h := by
    rw [hquery]
    refine O.mono h.rebuild fun q' hq' hq => ?_
    exact (Node.all_query hP.toOfTrees q').2
      ⟨hP.query hq' hq.self, hq'.leads (fun _ _ h => h) (fun _ _ h => h) hq.clauses⟩
  source h := h.leads (fun _ _ h => h) (fun _ _ h => h) (fun _ _ h => h) hP.toOfTrees

end Rebuild

namespace Node.Kept

theorem mapUp {f : Expr → Expr} (hf : ∀ e, Node.Leads P P (.expr e) (.expr (f e)))
    (s : Statement) : Node.Leads P P (.statement s) (.statement (s.mapUp f)) :=
  ((Transform.keeps hP (O := .result) (t := .ofFun f) rfl hf).onStatement s).leads
    (fun _ _ h => h) (fun _ _ h => h) (fun _ _ h => h) hP.toOfTrees

theorem unbindColumns (q : Query) : Node.Leads P P (.query q) (.query q.unbindColumns) := by
  intro hq
  have haligned : q.Aligned (fun _ _ => True) (fun _ _ => True) q.unbindColumns :=
    q.aligned_unbindColumns (fun _ => trivial) (fun _ => trivial) fun _ => trivial
  refine (Node.all_query hP.toOfTrees _).2 ⟨hP.query haligned hq.self, ?_⟩
  exact { hq.clauses with
    columns := List.forall_mem_map.2 fun c hc => hP.leads_unbind _ (hq.clauses.columns c hc) }

theorem debindInsertParameters (s : Statement) :
    Node.Leads P P (.statement s) (.statement s.debindInsertParameters) := by
  cases s with
  | insert into items q =>
    have haligned : Statement.Aligned (fun e e' => Node.Leads P P (.expr e) (.expr e'))
        (fun q q' => Node.Leads P P (.query q) (.query q')) (fun _ _ => False) _ _ :=
      Statement.aligned_debindInsertParameters hP.leads_unbind hP.unbindColumns into items q
    exact haligned.leads (fun _ _ h => h) (fun _ _ h => h) (fun _ _ h => h.elim) hP.toOfTrees
  | _ => exact id

/-- The passes that write parameters into the text. -/
theorem inlined (d : Dialect) (config : Config) (s : Statement) :
    Node.Leads P P (.statement s) (.statement (d.inlined config s)) := by
  intro hs
  refine d.inlined_induction (P := fun s => (Node.statement s).All P) config hs
    (fun s hs => ?_) (fun s hs => ?_) fun s hs => ?_
  · exact hP.debindInsertParameters s hs
  · exact hP.mapUp hP.leads_unbindArgs s hs
  · exact hP.mapUp hP.leads_unbind s hs

theorem convert {d : Dialect} (hd : d.Standard) {ctx : Context} {s s' : Statement}
    (h : d.convertStatement ctx s = .ok s') :
    Node.Leads P P (.statement s) (.statement s') := by
  have hyields := Transform.keeps hP (O := .success Error) (t := d.conversion ctx) rfl
    fun e e' he' => (hd.converted he').leads hP
  exact (hyields.onStatement s s' h).leads (fun _ _ h => h) (fun _ _ h => h) (fun _ _ h => h)
    hP.toOfTrees

end Node.Kept

end Kept

end SqlTree
