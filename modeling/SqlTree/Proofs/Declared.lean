import SqlTree.Proofs.Ident
import SqlTree.Proofs.Invariant

/-! # The ids of transformed trees

What a transformation does to the ids that a tree declares is shown one node at a time, for
relations between lists of ids that pass from the parts to the whole.

Main definitions:

* `Ident.Congruence`: such a relation.
* `Node.Declares`: the ids of two trees are related if all nodes of the first one meet a property.

Main statements:

* `Expr.Aligned.declares`, `Query.Aligned.declares`, `Source.Aligned.declares`,
  `Statement.Aligned.declares`: from the parts to the whole.
* `Transform.declares`: so for a transformation that acts on expressions only.
-/

namespace SqlTree

/-- A relation between lists of ids that passes from the parts of a tree to the whole. -/
structure Ident.Congruence (R : List Ident → List Ident → Prop) : Prop where
  refl : ∀ l, R l l
  trans : ∀ {l l' l'' : List Ident}, R l l' → R l' l'' → R l l''
  append : ∀ {l l' m m' : List Ident}, R l l' → R m m' → R (l ++ m) (l' ++ m')

theorem Ident.congruence_eq : Congruence Eq where
  refl := Eq.refl
  trans := Eq.trans
  append := congrArg₂ _

theorem Ident.congruence_sublist : Congruence fun l l' => l'.Sublist l where
  refl := List.Sublist.refl
  trans h g := g.trans h
  append := List.Sublist.append

theorem Ident.congruence_superlist : Congruence List.Sublist where
  refl := List.Sublist.refl
  trans := List.Sublist.trans
  append := List.Sublist.append

/-- If all nodes of the first tree meet `C`, the ids of the two trees are related. -/
def Node.Declares (C : Node → Prop) (R : List Ident → List Ident → Prop) (n n' : Node) : Prop :=
  n.All C → R n.declared n'.declared

section Declares

variable {C : Node → Prop} {R : List Ident → List Ident → Prop} (hR : Ident.Congruence R)

include hR

namespace Ident.Congruence

theorem flatMap {α β : Type} {S : α → β → Prop} {f : α → List Ident} {g : β → List Ident}
    {xs : List α} {ys : List β} (h : List.Forall₂ S xs ys)
    (hS : ∀ x ∈ xs, ∀ y, S x y → R (f x) (g y)) : R (xs.flatMap f) (ys.flatMap g) := by
  induction h with
  | nil => exact hR.refl []
  | cons hxy _ ih =>
    rw [List.flatMap_cons, List.flatMap_cons]
    refine hR.append (hS _ List.mem_cons_self _ hxy) (ih fun x hx => ?_)
    exact hS x (List.mem_cons_of_mem _ hx)

theorem declaredIn {RE : Expr → Expr → Prop} {o o' : Option Expr} (h : Option.Rel RE o o')
    (hE : ∀ e ∈ o, ∀ e', RE e e' → R (Node.expr e).declared (Node.expr e').declared) :
    R (Node.declaredIn o) (Node.declaredIn o') := by
  cases h with
  | none => exact hR.refl []
  | some h => simpa using hE _ rfl _ h

end Ident.Congruence

variable {RE : Expr → Expr → Prop} {RQ : Query → Query → Prop} {RS : Source → Source → Prop}
  (hE : ∀ e e', RE e e' → Node.Declares C R (.expr e) (.expr e'))

include hE

theorem Expr.Aligned.declares
    (hQ : ∀ q q', RQ q q' → Node.Declares C R (.query q) (.query q')) {e e' : Expr}
    (h : e.Aligned RE RQ e') : Node.Declares C R (.expr e) (.expr e') := by
  intro hC
  cases h with
  | call name t flags hargs =>
    rw [Node.declared_call, Node.declared_call]
    exact hR.flatMap hargs fun e he e' h => hE e e' h (hC.arg e he)
  | binary op p t n hl hr =>
    rw [Node.declared_binary, Node.declared_binary]
    exact hR.append (hE _ _ hl hC.left) (hE _ _ hr hC.right)
  | raw format p t hargs =>
    rw [Node.declared_raw, Node.declared_raw]
    exact hR.flatMap hargs fun e he e' h => hE e e' h (hC.rawArg e he)
  | subquery hq =>
    rw [Node.declared_subquery, Node.declared_subquery]
    exact hQ _ _ hq hC.subquery
  | existsRow hq =>
    rw [Node.declared_existsRow, Node.declared_existsRow]
    exact hQ _ _ hq hC.existsRow
  | _ => exact hR.refl _

theorem Query.Aligned.declares
    (hS : ∀ s s', RS s s' → Node.Declares C R (.source s) (.source s')) {q q' : Query}
    (h : q.Aligned RE RS q') : Node.Declares C R (.query q) (.query q') := by
  intro hC
  have hclauses := hC.clauses
  have hoptional : ∀ {o o' : Option Expr}, Option.Rel RE o o' →
      (∀ e ∈ o, (Node.expr e).All C) → R (Node.declaredIn o) (Node.declaredIn o') :=
    fun h ho => hR.declaredIn h fun e he e' h => hE e e' h (ho e he)
  rw [Node.declared_query, Node.declared_query, h.id]
  refine hR.append (hR.refl [.query q.id]) (hR.append ?_ (hR.append ?_ (hR.append ?_
    (hR.append ?_ (hR.append ?_ (hR.append ?_ (hR.append ?_ ?_)))))))
  · exact hR.flatMap h.columns fun c hc c' h => hE _ _ h.1 (hclauses.columns c hc)
  · exact hoptional h.skip hclauses.skip
  · exact hoptional h.take hclauses.take
  · exact hR.flatMap h.sources fun s hs s' h => hS s s' h (hclauses.sources s hs)
  · exact hoptional h.filter hclauses.filter
  · exact hR.flatMap h.groupBy fun e he e' h => hE e e' h (hclauses.groupBy e he)
  · exact hoptional h.having hclauses.having
  · exact hR.flatMap h.orderBy fun o ho o' h => hE _ _ h.1 (hclauses.orderBy o ho)

variable (hQ : ∀ q q', RQ q q' → Node.Declares C R (.query q) (.query q'))
  (hS : ∀ s s', RS s s' → Node.Declares C R (.source s) (.source s'))

include hQ hS

theorem Source.Aligned.declares {s s' : Source} (h : s.Aligned RE RQ RS s') :
    Node.Declares C R (.source s) (.source s') := by
  intro hC
  have hparts := hC.parts
  rw [Node.declared_source, Node.declared_source, h.id]
  refine hR.append (hR.refl [.source s.id]) (hR.append ?_ ?_)
  · have horigin := h.origin
    cases ho : s.origin with
    | table t =>
      rw [ho] at horigin
      generalize s'.origin = origin at horigin
      cases horigin
      exact hR.refl []
    | query q =>
      rw [ho] at horigin
      generalize s'.origin = origin at horigin
      cases horigin with
      | query hq => exact hQ _ _ hq (hparts.origin q ho)
  · refine hR.flatMap h.joins fun j hj j' h => hR.append ?_ ?_
    · exact hS _ _ h.source (hparts.joins j hj)
    · exact hR.declaredIn h.condition fun e he e' h => hE e e' h (hparts.conditions j hj e he)

theorem Statement.Aligned.declares {s s' : Statement} (h : s.Aligned RE RQ RS s') :
    Node.Declares C R (.statement s) (.statement s') := by
  intro hC
  have hitems : ∀ {items items' : List SetItem}, List.Forall₂ (SetItem.Aligned RE) items items' →
      (∀ i ∈ items, (Node.setItem i).All C) →
        R (items.flatMap fun i => (Node.expr i.expr).declared)
          (items'.flatMap fun i => (Node.expr i.expr).declared) := by
    intro items items' hall hitems
    refine hR.flatMap hall fun i hi i' h => hE _ _ h.expr ?_
    exact (hitems i hi).child (by simp [Node.children])
  obtain ⟨-, hC⟩ := (Node.all_iff _).1 hC
  cases h with
  | select hq =>
    rw [Node.declared_select, Node.declared_select]
    exact hQ _ _ hq (hC _ (by simp [Node.children]))
  | insert into hall hq =>
    simp only [Node.children, List.mem_cons, List.mem_append, List.mem_map] at hC
    rw [Node.declared_insert, Node.declared_insert]
    refine hR.append (hitems hall fun i hi => ?_) (hQ _ _ hq ?_)
    · exact hC _ (.inr (.inl ⟨i, hi, rfl⟩))
    · exact hC _ (by simp)
  | update target hall hq =>
    simp only [Node.children, List.mem_append, List.mem_map, List.mem_singleton] at hC
    rw [Node.declared_update, Node.declared_update]
    refine hR.append (hitems hall fun i hi => ?_) (hQ _ _ hq ?_)
    · exact hC _ (.inl ⟨i, hi, rfl⟩)
    · exact hC _ (by simp)
  | delete target hq =>
    rw [Node.declared_delete, Node.declared_delete]
    exact hQ _ _ hq (hC _ (by simp [Node.children]))
  | merge htarget hq hon hoperations =>
    simp only [Node.children, List.forall_mem_cons, List.mem_append, or_imp, forall_and,
      Node.forall_ofOption, List.forall_mem_map] at hC
    obtain ⟨htargetC, hqC, honC, hoperationsC⟩ := hC
    rw [Node.declared_merge, Node.declared_merge]
    refine hR.append (hS _ _ htarget htargetC) (hR.append (hQ _ _ hq hqC) (hR.append ?_ ?_))
    · exact hR.declaredIn hon fun e he e' h => hE e e' h (honC e he)
    · refine hR.flatMap hoperations fun o ho o' h => ?_
      obtain ⟨-, hoC⟩ := (Node.all_iff _).1 (hoperationsC o ho)
      simp only [Node.children, List.mem_append, or_imp, forall_and, Node.forall_ofOption,
        List.forall_mem_map] at hoC
      rw [Node.declared_mergeOperation, Node.declared_mergeOperation]
      refine hR.append ?_ (hitems h.items hoC.2)
      exact hR.declaredIn h.condition fun e he e' h => hE e e' h (hoC.1 e he)
  | createTable t => exact hR.refl _
  | dropTable t ifExists => exact hR.refl _

end Declares

/-- A transformation that acts on expressions only. -/
theorem Transform.declares {C : Node → Prop} {R : List Ident → List Ident → Prop}
    (hR : Ident.Congruence R) {m : Type → Type} [Monad m] [LawfulMonad m] {O : Outcome m}
    {t : Transform m} (hquery : t.query = QueryParts.rebuild)
    (hexpr : ∀ e, O.Holds (fun e' => R (Node.expr e).declared (Node.expr e').declared)
      (t.expr e)) :
    t.Yields O (fun e e' => Node.Declares C R (.expr e) (.expr e'))
      (fun q q' => Node.Declares C R (.query q) (.query q'))
      (fun s s' => Node.Declares C R (.source s) (.source s')) where
  expr {e e'} h := O.mono (hexpr e') fun _ he hC =>
    hR.trans (h.declares hR (fun _ _ h => h) (fun _ _ h => h) hC) he
  query h := by
    rw [hquery]
    exact O.mono h.rebuild fun _ hq => hq.declares hR (fun _ _ h => h) fun _ _ h => h
  source h := h.declares hR (fun _ _ h => h) (fun _ _ h => h) fun _ _ h => h

end SqlTree
