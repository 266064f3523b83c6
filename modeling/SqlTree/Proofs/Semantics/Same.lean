import SqlTree.Proofs.Semantics.Matching
import SqlTree.Proofs.Tree

/-! # Equal trees mean the same

Main statements:

* `Expr.matches_of_same`: expressions that are equal up to equality of literals have one value.
-/

namespace SqlTree

/-- A comparison of lists that compares their elements. -/
theorem forall₂_of_same {α : Type} {f : List α → List α → Bool} {p : α → α → Bool}
    (hnil : ∀ y ys, f [] (y :: ys) = false) (hnil' : ∀ x xs, f (x :: xs) [] = false)
    (hcons : ∀ x xs y ys, f (x :: xs) (y :: ys) = (p x y && f xs ys)) {xs ys : List α}
    (h : f xs ys = true) : List.Forall₂ (fun x y => p x y = true) xs ys := by
  induction xs generalizing ys with
  | nil =>
    cases ys with
    | nil => exact .nil
    | cons y ys => simp [hnil] at h
  | cons x xs ih =>
    cases ys with
    | nil => simp [hnil'] at h
    | cons y ys =>
      rw [hcons, Bool.and_eq_true] at h
      exact .cons h.1 (ih h.2)

theorem forall₂_of_sameExprs {es es' : List Expr} (h : sameExprs es es' = true) :
    List.Forall₂ (fun e e' => e.same e' = true) es es' :=
  forall₂_of_same (fun _ _ => by simp [sameExprs]) (fun _ _ => by simp [sameExprs])
    (fun _ _ _ _ => by simp [sameExprs]) h

theorem forall₂_of_sameColumns {cs cs' : List Column} (h : sameColumns cs cs' = true) :
    List.Forall₂ (fun c c' => c.expr.same c'.expr = true) cs cs' := by
  refine (forall₂_of_same (p := Column.same) (fun _ _ => by simp [sameColumns])
    (fun _ _ => by simp [sameColumns]) (fun _ _ _ _ => by simp [sameColumns]) h).imp
      fun c c' hc => ?_
  cases c
  cases c'
  simp only [Column.same, Bool.and_eq_true] at hc
  exact hc.1

theorem forall₂_of_sameOrder {os os' : List OrderItem} (h : sameOrder os os' = true) :
    List.Forall₂ (fun o o' => o.expr.same o'.expr = true ∧ o'.desc = o.desc) os os' := by
  refine (forall₂_of_same (p := OrderItem.same) (fun _ _ => by simp [sameOrder])
    (fun _ _ => by simp [sameOrder]) (fun _ _ _ _ => by simp [sameOrder]) h).imp fun o o' ho => ?_
  cases o
  cases o'
  simp only [OrderItem.same, Bool.and_eq_true, beq_iff_eq] at ho
  exact ⟨ho.1, ho.2.symm⟩

theorem forall₂_of_sameSources {ss ss' : List Source} (h : sameSources ss ss' = true) :
    List.Forall₂ (fun s s' => s.same s' = true) ss ss' :=
  forall₂_of_same (fun _ _ => by simp [sameSources]) (fun _ _ => by simp [sameSources])
    (fun _ _ _ _ => by simp [sameSources]) h

theorem forall₂_of_sameJoins {js js' : List Join} (h : sameJoins js js' = true) :
    List.Forall₂ (fun j j' => j'.kind = j.kind ∧ j.source.same j'.source = true ∧
      sameOptional j.condition j'.condition = true) js js' := by
  refine (forall₂_of_same (p := Join.same) (fun _ _ => by simp [sameJoins])
    (fun _ _ => by simp [sameJoins]) (fun _ _ _ _ => by simp [sameJoins]) h).imp fun j j' hj => ?_
  cases j
  cases j'
  simp only [Join.same, Bool.and_eq_true, beq_iff_eq] at hj
  exact ⟨hj.1.1.symm, hj.1.2, hj.2⟩

variable {V : Type} [DecidableEq V] {db : Database V}

theorem rel_of_sameOptional {R : Expr → Expr → Prop} {o o' : Option Expr}
    (ih : ∀ e ∈ o, ∀ e', e.same e' = true → R e e') (h : sameOptional o o' = true) :
    Option.Rel R o o' := by
  cases o with
  | none =>
    cases o' with
    | none => exact .none
    | some e' => simp [sameOptional] at h
  | some e =>
    cases o' with
    | none => simp [sameOptional] at h
    | some e' => exact .some (ih e rfl e' (by simpa [sameOptional] using h))

theorem Tree.matches_of_same_closed :
    Tree.Closed (fun e => ∀ e', e.same e' = true → e.Matches db Eq e')
      (fun q => ∀ q', q.same q' = true → Query.ClausesMatch db Eq q q' ∧ q'.id = q.id)
      (fun s => ∀ s', s.same s' = true → s.Matches db Eq s') where
  value l t e' h := by
    cases e' <;> simp only [Expr.same, Bool.and_eq_true, reduceCtorEq, beq_iff_eq] at h
    refine .ofEval rfl rfl (fun _ => rfl) rfl fun _ => .of_eq ?_
    exact db.engine.literal_congr h.1
  parameter p e' h := by
    cases e' <;> simp only [Expr.same, Parameter.same, Bool.and_eq_true, reduceCtorEq] at h
    refine .ofEval rfl rfl (fun _ => rfl) rfl fun _ => .of_eq ?_
    exact db.engine.literal_congr h.1.1.2
  field f e' h := by
    cases e' <;> simp only [Expr.same, reduceCtorEq, beq_iff_eq] at h
    exact h ▸ .field rfl fun x hR hx => hR ▸ hx
  column c e' h := by
    cases e' <;> simp only [Expr.same, reduceCtorEq, beq_iff_eq] at h
    exact h ▸ .column rfl fun vs hR hvs => hR ▸ hvs
  call name t args flags ih e' h := by
    cases e' <;> simp only [Expr.same, Bool.and_eq_true, reduceCtorEq, beq_iff_eq] at h
    obtain ⟨⟨⟨rfl, rfl⟩, hargs⟩, rfl⟩ := h
    exact .call name t flags (forall₂_imp_of_mem (forall₂_of_sameExprs hargs) ih)
  binary op l r p t n hl hr e' h := by
    cases e' <;> simp only [Expr.same, Bool.and_eq_true, reduceCtorEq, beq_iff_eq] at h
    obtain ⟨⟨⟨⟨⟨rfl, hleft⟩, hright⟩, rfl⟩, rfl⟩, rfl⟩ := h
    exact .binary op p t n (hl _ hleft) (hr _ hright)
  raw format p args t ih e' h := by
    cases e' <;> simp only [Expr.same, Bool.and_eq_true, reduceCtorEq, beq_iff_eq] at h
    obtain ⟨⟨⟨rfl, rfl⟩, hargs⟩, rfl⟩ := h
    exact .raw format p t (forall₂_imp_of_mem (forall₂_of_sameExprs hargs) ih)
  typeName t e' h := by
    cases e' <;> simp only [Expr.same, reduceCtorEq, beq_iff_eq] at h
    exact h ▸ .typeName t
  subquery q ih e' h := by
    cases e' <;> simp only [Expr.same, reduceCtorEq] at h
    exact .subquery (ih _ h).1.toMatches
  existsRow q ih e' h := by
    cases e' <;> simp only [Expr.same, reduceCtorEq] at h
    exact .existsRow (ih _ h).1.toMatches
  query q ih q' h := by
    cases q
    cases q'
    simp only [Query.same, Bool.and_eq_true, beq_iff_eq] at h
    obtain ⟨⟨⟨⟨⟨⟨⟨⟨⟨rfl, hcolumns⟩, rfl⟩, hskip⟩, htake⟩, hsources⟩, hfilter⟩, hgroupBy⟩, hhaving⟩,
      horderBy⟩ := h
    refine ⟨?_, rfl⟩
    exact
      { columns := forall₂_imp_of_mem (forall₂_of_sameColumns hcolumns)
          fun c hc c' => ih.columns c hc c'.expr
        skip := rel_of_sameOptional ih.skip hskip
        take := rel_of_sameOptional ih.take htake
        sources := forall₂_imp_of_mem (forall₂_of_sameSources hsources) ih.sources
        filter := rel_of_sameOptional ih.filter hfilter
        orderBy := forall₂_imp_of_mem (forall₂_of_sameOrder horderBy)
          fun o ho o' h => ⟨ih.orderBy o ho o'.expr h.1, h.2⟩
        groupBy := forall₂_imp_of_mem (forall₂_of_sameExprs hgroupBy) ih.groupBy
        having := rel_of_sameOptional ih.having hhaving
        distinct := rfl }
  source s ih s' h := by
    cases s with
    | mk id origin a joins =>
    cases s' with
    | mk id' origin' a' joins' =>
    simp only [Source.same, Bool.and_eq_true, beq_iff_eq] at h
    obtain ⟨⟨⟨rfl, horigin⟩, rfl⟩, hjoins⟩ := h
    have hjoins' : List.Forall₂ (Join.Matches db Eq) joins joins' :=
      forall₂_imp_of_mem (forall₂_of_sameJoins hjoins) fun j hj j' h =>
        ⟨h.1, ih.joins j hj _ h.2.1, rel_of_sameOptional (ih.conditions j hj) h.2.2⟩
    cases origin with
    | table t =>
      cases origin' <;> simp only [Origin.same, reduceCtorEq, beq_iff_eq] at horigin
      subst horigin
      exact .ofTable rfl rfl rfl (fun x hR => hR ▸ rfl) hjoins'
    | query q =>
      cases origin' <;> simp only [Origin.same, reduceCtorEq] at horigin
      obtain ⟨hq, hid⟩ := ih.origin q rfl _ horigin
      exact .ofQuery rfl rfl hq.toMatches hq.columns.length_eq.symm
        (fun vs hR => hid ▸ hR ▸ rfl) hjoins'

/-- Expressions that are equal up to equality of literals have one value. -/
theorem Expr.matches_of_same {e e' : Expr} (h : e.same e' = true) : e.Matches db Eq e' :=
  Tree.matches_of_same_closed.onExpr e e' h

end SqlTree
