import SqlTree.Proofs.Invariant
import SqlTree.Proofs.Semantics.Same

/-! # Equality of trees

Trees are compared up to equality of literals, by which a literal need not equal itself. Apart from
that the comparison is an equality: it is symmetric and transitive, so equal trees can stand for
each other, and what is asked of all nodes of a tree is met by an equal one.

Main statements:

* `Literal.same_symm`, `Literal.same_trans`: equality of literals.
* `Query.aligned_of_same`, `Source.aligned_of_same`: equal queries and sources have the same form.
* `Expr.same_congr`: equal expressions can stand for each other in a comparison.
* `Tree.all_of_same_closed`: a property of all nodes of one tree and of an equal one.
-/

namespace SqlTree

/-! Literals. -/

section Float

open Float.Model

/-- Numbers that are equal: infinities of one sign, zeros of any sign, and finite numbers with the
same parts. -/
inductive EqualFloats : UnpackedFloat → UnpackedFloat → Prop
  | infinity (s : UnpackedFloat.Sign) : EqualFloats (.infinity s) (.infinity s)
  | zero (s s' : UnpackedFloat.Sign) : EqualFloats (.zero s) (.zero s')
  | finite (s : UnpackedFloat.Sign) (m : Nat) (e : Int) (hm : 0 < m) :
      EqualFloats (.finite s m e hm) (.finite s m e hm)

theorem EqualFloats.of_compare {a b : UnpackedFloat} (h : (a.compare b == some .eq) = true) :
    EqualFloats a b := by
  have hparts : ∀ {m m' : Nat} {e e' : Int}, (compare e e').then (compare m m') = .eq →
      e = e' ∧ m = m' := by
    intro m m' e e' h
    simpa [Ordering.then_eq_eq, Std.LawfulEqCmp.compare_eq_iff_eq] using h
  cases a with
  | notANumber => cases h
  | infinity s =>
    cases b with
    | infinity s' => cases s <;> cases s' <;> first | exact .infinity _ | cases h
    | _ => cases s <;> cases h
  | zero s =>
    cases b with
    | zero s' => exact .zero s s'
    | notANumber => cases h
    | infinity s' => cases s' <;> cases h
    | finite s' => cases s' <;> cases h
  | finite s m e hm =>
    cases b with
    | finite s' m' e' hm' =>
      -- Of two negative numbers the order is turned round.
      have heq : s = s' ∧ (compare e e').then (compare m m') = .eq := by
        cases s <;> cases s' <;> first | cases h | refine ⟨rfl, ?_⟩
        · exact Ordering.swap_eq_eq.1 (Option.some.inj (eq_of_beq h))
        · exact Option.some.inj (eq_of_beq h)
      obtain ⟨rfl, heq⟩ := heq
      obtain ⟨rfl, rfl⟩ := hparts heq
      exact .finite s m e hm
    | infinity s' => cases s' <;> cases h
    | _ => cases s <;> cases h

theorem EqualFloats.compare_eq {a b : UnpackedFloat} (h : EqualFloats a b) :
    (a.compare b == some .eq) = true := by
  cases h with
  | infinity s => cases s <;> rfl
  | zero s s' => rfl
  | finite s m e hm =>
    have hparts : (compare e e).then (compare m m) = .eq := by simp
    cases s with
    | negative =>
      change (some ((compare e e).then (compare m m)).swap == some .eq) = true
      rw [hparts]
      rfl
    | positive =>
      change (some ((compare e e).then (compare m m)) == some .eq) = true
      rw [hparts]
      rfl

theorem beq_iff_equalFloats {a b : Float} :
    (a == b) = true ↔ EqualFloats a.toModel.unpack b.toModel.unpack :=
  ⟨.of_compare, EqualFloats.compare_eq⟩

theorem EqualFloats.symm {a b : UnpackedFloat} (h : EqualFloats a b) : EqualFloats b a := by
  cases h <;> constructor

theorem EqualFloats.trans {a b c : UnpackedFloat} (h : EqualFloats a b) (h' : EqualFloats b c) :
    EqualFloats a c := by
  cases h <;> cases h' <;> constructor

end Float

namespace Literal

theorem same_symm {l l' : Literal} (h : l.same l' = true) : l'.same l = true := by
  cases l with
  | float x =>
    cases l' <;> simp only [same, reduceCtorEq] at h
    exact beq_iff_equalFloats.2 (beq_iff_equalFloats.1 h).symm
  | _ => cases l' <;> simp_all [same]

theorem same_trans {l l' l'' : Literal} (h : l.same l' = true) (h' : l'.same l'' = true) :
    l.same l'' = true := by
  cases l with
  | float x =>
    cases l' <;> simp only [same, reduceCtorEq] at h
    cases l'' <;> simp only [same, reduceCtorEq] at h'
    exact beq_iff_equalFloats.2 ((beq_iff_equalFloats.1 h).trans (beq_iff_equalFloats.1 h'))
  | _ => cases l' <;> cases l'' <;> simp_all [same]

end Literal

/-! Queries and sources. -/

section Aligned

variable {RE : Expr → Expr → Prop} {RQ : Query → Query → Prop} {RS : Source → Source → Prop}

theorem Query.aligned_of_same {q q' : Query}
    (ih : q.Each (fun e => ∀ e', e.same e' = true → RE e e')
      (fun s => ∀ s', s.same s' = true → RS s s')) (h : q.same q' = true) : q.Aligned RE RS q' := by
  cases q
  cases q'
  simp only [Query.same, Bool.and_eq_true, beq_iff_eq] at h
  obtain ⟨⟨⟨⟨⟨⟨⟨⟨⟨rfl, hcolumns⟩, rfl⟩, hskip⟩, htake⟩, hsources⟩, hfilter⟩, hgroupBy⟩, hhaving⟩,
    horderBy⟩ := h
  refine ⟨rfl, ?_, rfl, rel_of_sameOptional ih.skip hskip, rel_of_sameOptional ih.take htake,
    forall₂_imp_of_mem (forall₂_of_sameSources hsources) ih.sources,
    rel_of_sameOptional ih.filter hfilter,
    forall₂_imp_of_mem (forall₂_of_sameExprs hgroupBy) ih.groupBy,
    rel_of_sameOptional ih.having hhaving, ?_⟩
  · refine forall₂_imp_of_mem (forall₂_of_same (p := Column.same) (fun _ _ => by simp [sameColumns])
      (fun _ _ => by simp [sameColumns]) (fun _ _ _ _ => by simp [sameColumns]) hcolumns)
        fun c hc c' h => ?_
    have hexpr := ih.columns c hc c'.expr
    cases c
    cases c'
    simp only [Column.same, Bool.and_eq_true, beq_iff_eq] at h
    exact ⟨hexpr h.1, h.2.symm⟩
  · exact forall₂_imp_of_mem (forall₂_of_sameOrder horderBy) fun o ho o' h =>
      ⟨ih.orderBy o ho o'.expr h.1, h.2⟩

theorem Query.Aligned.of_same {q q' : Query} (h : q.same q' = true) :
    q.Aligned (fun e e' => e.same e' = true) (fun s s' => s.same s' = true) q' :=
  Query.aligned_of_same ⟨fun _ _ _ h => h, fun _ _ _ h => h, fun _ _ _ h => h, fun _ _ _ h => h,
    fun _ _ _ h => h, fun _ _ _ h => h, fun _ _ _ h => h, fun _ _ _ h => h⟩ h

theorem Source.aligned_of_same {s s' : Source}
    (ih : s.Each (fun e => ∀ e', e.same e' = true → RE e e')
      (fun q => ∀ q', q.same q' = true → RQ q q') (fun s => ∀ s', s.same s' = true → RS s s'))
    (h : s.same s' = true) : s.Aligned RE RQ RS s' := by
  cases s with
  | mk id origin a joins =>
  cases s' with
  | mk id' origin' a' joins' =>
  simp only [Source.same, Bool.and_eq_true, beq_iff_eq] at h
  obtain ⟨⟨⟨rfl, horigin⟩, rfl⟩, hjoins⟩ := h
  refine ⟨rfl, rfl, ?_, forall₂_imp_of_mem (forall₂_of_sameJoins hjoins) fun j hj j' h =>
    ⟨h.1, ih.joins j hj _ h.2.1, rel_of_sameOptional (ih.conditions j hj) h.2.2⟩⟩
  cases origin with
  | table t =>
    cases origin' <;> simp only [Origin.same, reduceCtorEq, beq_iff_eq] at horigin
    exact horigin ▸ .table t
  | query q =>
    cases origin' <;> simp only [Origin.same, reduceCtorEq] at horigin
    exact .query (ih.origin q rfl _ horigin)

end Aligned

/-! Equal trees stand for each other. -/

section Congruence

variable {RE RE' RE'' : Expr → Expr → Prop} {RQ RQ' RQ'' : Query → Query → Prop}
  {RS RS' RS'' : Source → Source → Prop}

theorem forall₂_trans {α : Type} {R R' R'' : α → α → Prop}
    (hR : ∀ x y z, R x y → R' y z → R'' x z) {xs ys zs : List α} (h : List.Forall₂ R xs ys)
    (h' : List.Forall₂ R' ys zs) : List.Forall₂ R'' xs zs := by
  induction h generalizing zs with
  | nil =>
    cases h'
    exact .nil
  | cons hx _ ih =>
    cases h' with
    | cons hy h' => exact .cons (hR _ _ _ hx hy) (ih h')

theorem rel_trans {α : Type} {R R' R'' : α → α → Prop} (hR : ∀ x y z, R x y → R' y z → R'' x z)
    {o o' o'' : Option α} (h : Option.Rel R o o') (h' : Option.Rel R' o' o'') :
    Option.Rel R'' o o'' := by
  cases h with
  | none =>
    cases h'
    exact .none
  | some h =>
    cases h' with
    | some h' => exact .some (hR _ _ _ h h')

theorem Query.Aligned.trans (hE : ∀ e e' e'', RE e e' → RE' e' e'' → RE'' e e'')
    (hS : ∀ s s' s'', RS s s' → RS' s' s'' → RS'' s s'') {q q' q'' : Query}
    (h : q.Aligned RE RS q') (h' : q'.Aligned RE' RS' q'') : q.Aligned RE'' RS'' q'' where
  id := h'.id.trans h.id
  columns := forall₂_trans (fun _ _ _ hc hc' => ⟨hE _ _ _ hc.1 hc'.1, hc'.2.trans hc.2⟩) h.columns
    h'.columns
  distinct := h'.distinct.trans h.distinct
  skip := rel_trans hE h.skip h'.skip
  take := rel_trans hE h.take h'.take
  sources := forall₂_trans hS h.sources h'.sources
  filter := rel_trans hE h.filter h'.filter
  groupBy := forall₂_trans hE h.groupBy h'.groupBy
  having := rel_trans hE h.having h'.having
  orderBy := forall₂_trans (fun _ _ _ ho ho' => ⟨hE _ _ _ ho.1 ho'.1, ho'.2.trans ho.2⟩) h.orderBy
    h'.orderBy

theorem Source.Aligned.trans (hE : ∀ e e' e'', RE e e' → RE' e' e'' → RE'' e e'')
    (hQ : ∀ q q' q'', RQ q q' → RQ' q' q'' → RQ'' q q'')
    (hS : ∀ s s' s'', RS s s' → RS' s' s'' → RS'' s s'') {s s' s'' : Source}
    (h : s.Aligned RE RQ RS s') (h' : s'.Aligned RE' RQ' RS' s'') :
    s.Aligned RE'' RQ'' RS'' s'' where
  id := h'.id.trans h.id
  aliasName := h'.aliasName.trans h.aliasName
  origin := by
    have ho := h.origin
    have ho' := h'.origin
    generalize s.origin = origin, s'.origin = origin', s''.origin = origin'' at ho ho'
    cases ho with
    | table t =>
      cases ho'
      exact .table t
    | query hq =>
      cases ho' with
      | query hq' => exact .query (hQ _ _ _ hq hq')
  joins := forall₂_trans (fun _ _ _ hj hj' => ⟨hj'.kind.trans hj.kind,
    hS _ _ _ hj.source hj'.source, rel_trans hE hj.condition hj'.condition⟩) h.joins h'.joins

theorem same_of_forall₂ {α : Type} {f : List α → List α → Bool} {p : α → α → Bool}
    (hnil : f [] [] = true) (hcons : ∀ x xs y ys, f (x :: xs) (y :: ys) = (p x y && f xs ys))
    {xs ys : List α} (h : List.Forall₂ (fun x y => p x y = true) xs ys) : f xs ys = true := by
  induction h with
  | nil => exact hnil
  | cons hx _ ih => rw [hcons, hx, ih, Bool.and_self]

theorem sameExprs_of_forall₂ {es es' : List Expr}
    (h : List.Forall₂ (fun e e' => e.same e' = true) es es') : sameExprs es es' = true :=
  same_of_forall₂ (by simp [sameExprs]) (by simp [sameExprs]) h

theorem sameOptional_of_rel {o o' : Option Expr}
    (h : Option.Rel (fun e e' => e.same e' = true) o o') : sameOptional o o' = true := by
  cases h with
  | none => simp [sameOptional]
  | some h => simpa [sameOptional] using h

theorem Query.Aligned.same {q q' : Query}
    (h : q.Aligned (fun e e' => e.same e' = true) (fun s s' => s.same s' = true) q') :
    q.same q' = true := by
  have hcolumns : sameColumns q.columns q'.columns = true := by
    refine same_of_forall₂ (p := Column.same) (by simp [sameColumns]) (by simp [sameColumns])
      (h.columns.imp fun c c' hc => ?_)
    cases c
    cases c'
    simpa [Column.same] using ⟨hc.1, hc.2.symm⟩
  have horder : sameOrder q.orderBy q'.orderBy = true := by
    refine same_of_forall₂ (p := OrderItem.same) (by simp [sameOrder]) (by simp [sameOrder])
      (h.orderBy.imp fun o o' ho => ?_)
    cases o
    cases o'
    simpa [OrderItem.same] using ⟨ho.1, ho.2.symm⟩
  have hsources : sameSources q.sources q'.sources = true :=
    same_of_forall₂ (by simp [sameSources]) (by simp [sameSources]) h.sources
  have hskip := sameOptional_of_rel h.skip
  have htake := sameOptional_of_rel h.take
  have hfilter := sameOptional_of_rel h.filter
  have hhaving := sameOptional_of_rel h.having
  have hgroupBy := sameExprs_of_forall₂ h.groupBy
  have hid := h.id.symm
  have hdistinct := h.distinct.symm
  cases q
  cases q'
  simp_all [Query.same]

theorem Source.Aligned.same {s s' : Source}
    (h : s.Aligned (fun e e' => e.same e' = true) (fun q q' => q.same q' = true)
      (fun s s' => s.same s' = true) s') : s.same s' = true := by
  have horigin : s.origin.same s'.origin = true := by
    have ho := h.origin
    generalize s.origin = origin, s'.origin = origin' at ho
    cases ho with
    | table t => simp [Origin.same]
    | query hq => simpa [Origin.same] using hq
  have hjoins : sameJoins s.joins s'.joins = true := by
    refine same_of_forall₂ (p := Join.same) (by simp [sameJoins]) (by simp [sameJoins])
      (h.joins.imp fun j j' hj => ?_)
    have hcondition := sameOptional_of_rel hj.condition
    have hkind := hj.kind.symm
    have hsource := hj.source
    cases j
    cases j'
    simp_all [Join.same]
  have hid := h.id.symm
  have halias := h.aliasName.symm
  cases s
  cases s'
  simp_all [Source.same]

theorem sameExprs_trans {es es' es'' : List Expr}
    (ih : ∀ a ∈ es, ∀ b, a.same b = true → ∀ c, a.same c = true → b.same c = true)
    (h : sameExprs es es' = true) (h' : sameExprs es es'' = true) : sameExprs es' es'' = true := by
  have hback := (forall₂_imp_of_mem (forall₂_of_sameExprs h) ih).flip
  exact sameExprs_of_forall₂
    (forall₂_trans (fun _ _ _ h h' => h _ h') hback (forall₂_of_sameExprs h'))

/-- Trees that equal one tree are equal. -/
theorem Tree.same_closed :
    Tree.Closed (fun a => ∀ b, a.same b = true → ∀ c, a.same c = true → b.same c = true)
      (fun q => ∀ r, q.same r = true → ∀ r', q.same r' = true → r.same r' = true)
      (fun s => ∀ t, s.same t = true → ∀ t', s.same t' = true → t.same t' = true) where
  value l t b hb c hc := by
    cases b <;> simp only [Expr.same, Bool.and_eq_true, beq_iff_eq, reduceCtorEq] at hb
    cases c <;> simp only [Expr.same, Bool.and_eq_true, beq_iff_eq, reduceCtorEq] at hc
    obtain ⟨hbl, rfl⟩ := hb
    obtain ⟨hcl, rfl⟩ := hc
    simpa [Expr.same] using Literal.same_trans (Literal.same_symm hbl) hcl
  parameter p b hb c hc := by
    cases b <;> simp only [Expr.same, Parameter.same, Bool.and_eq_true, beq_iff_eq,
      reduceCtorEq] at hb
    cases c <;> simp only [Expr.same, Parameter.same, Bool.and_eq_true, beq_iff_eq,
      reduceCtorEq] at hc
    have hvalue := Literal.same_trans (Literal.same_symm hb.1.1.2) hc.1.1.2
    simp [Expr.same, Parameter.same, hvalue, ← hb.1.1.1, ← hc.1.1.1, ← hb.1.2, ← hc.1.2, ← hb.2,
      ← hc.2]
  field f b hb c hc := by
    cases b <;> simp only [Expr.same, beq_iff_eq, reduceCtorEq] at hb
    exact hb ▸ hc
  column c b hb c' hc := by
    cases b <;> simp only [Expr.same, beq_iff_eq, reduceCtorEq] at hb
    exact hb ▸ hc
  call name t args flags ih b hb c hc := by
    cases b <;> simp only [Expr.same, Bool.and_eq_true, beq_iff_eq, reduceCtorEq] at hb
    cases c <;> simp only [Expr.same, Bool.and_eq_true, beq_iff_eq, reduceCtorEq] at hc
    obtain ⟨⟨⟨rfl, rfl⟩, hbargs⟩, rfl⟩ := hb
    obtain ⟨⟨⟨rfl, rfl⟩, hcargs⟩, rfl⟩ := hc
    simpa [Expr.same] using sameExprs_trans ih hbargs hcargs
  binary op l r p t n hl hr b hb c hc := by
    cases b <;> simp only [Expr.same, Bool.and_eq_true, beq_iff_eq, reduceCtorEq] at hb
    cases c <;> simp only [Expr.same, Bool.and_eq_true, beq_iff_eq, reduceCtorEq] at hc
    obtain ⟨⟨⟨⟨⟨rfl, hbl⟩, hbr⟩, rfl⟩, rfl⟩, rfl⟩ := hb
    obtain ⟨⟨⟨⟨⟨rfl, hcl⟩, hcr⟩, rfl⟩, rfl⟩, rfl⟩ := hc
    simp [Expr.same, hl _ hbl _ hcl, hr _ hbr _ hcr]
  raw format p args t ih b hb c hc := by
    cases b <;> simp only [Expr.same, Bool.and_eq_true, beq_iff_eq, reduceCtorEq] at hb
    cases c <;> simp only [Expr.same, Bool.and_eq_true, beq_iff_eq, reduceCtorEq] at hc
    obtain ⟨⟨⟨rfl, rfl⟩, hbargs⟩, rfl⟩ := hb
    obtain ⟨⟨⟨rfl, rfl⟩, hcargs⟩, rfl⟩ := hc
    simpa [Expr.same] using sameExprs_trans ih hbargs hcargs
  typeName t b hb c hc := by
    cases b <;> simp only [Expr.same, beq_iff_eq, reduceCtorEq] at hb
    exact hb ▸ hc
  subquery q ih b hb c hc := by
    cases b <;> simp only [Expr.same, reduceCtorEq] at hb
    cases c <;> simp only [Expr.same, reduceCtorEq] at hc
    simpa [Expr.same] using ih _ hb _ hc
  existsRow q ih b hb c hc := by
    cases b <;> simp only [Expr.same, reduceCtorEq] at hb
    cases c <;> simp only [Expr.same, reduceCtorEq] at hc
    simpa [Expr.same] using ih _ hb _ hc
  query q ih r hr r' hr' := by
    have hback := (Query.aligned_of_same ih hr).symm
    exact (hback.trans (fun _ _ _ h h' => h _ h') (fun _ _ _ h h' => h _ h') (.of_same hr')).same
  source s ih t ht t' ht' := by
    have hs := Source.aligned_of_same ih ht
    have hs' : s.Aligned (fun e e' => e.same e' = true) (fun q q' => q.same q' = true)
        (fun s s' => s.same s' = true) t' :=
      Source.aligned_of_same (ih.imp (fun _ _ _ h => h) (fun _ _ _ h => h) fun _ _ _ h => h) ht'
    exact (hs.symm.trans (fun _ _ _ h h' => h _ h') (fun _ _ _ h h' => h _ h')
      (fun _ _ _ h h' => h _ h') hs').same

/-- Expressions that equal two equal ones are equal. -/
theorem Expr.same_congr {a a' b b' : Expr} (ha : a.same a' = true) (hb : b.same b' = true)
    (h : a.same b = true) : a'.same b' = true := by
  have hba : b.same a' = true := Tree.same_closed.onExpr a b h a' ha
  exact Tree.same_closed.onExpr b a' hba b' hb

end Congruence

/-! Properties of all nodes. -/

/-- A property of all nodes, which passes between equal parameters and equal queries, passes between
equal trees. -/
theorem Tree.all_of_same_closed {P : Node → Prop} (hP : Node.Selective P)
    (hparameter : ∀ x y : Parameter, x.same y = true → P (.expr (.parameter x)) →
      P (.expr (.parameter y)))
    (hquery : ∀ q q' : Query, q.same q' = true → P (.query q) → P (.query q')) :
    Tree.Closed (fun e => ∀ e', e.same e' = true → Node.Leads P P (.expr e) (.expr e'))
      (fun q => ∀ q', q.same q' = true → Node.Leads P P (.query q) (.query q'))
      (fun s => ∀ s', s.same s' = true → Node.Leads P P (.source s) (.source s')) where
  value l t e' h _ := by
    cases e' <;> simp only [Expr.same, reduceCtorEq] at h
    exact hP.all_value _ _
  parameter x e' h he := by
    cases e' <;> simp only [Expr.same, reduceCtorEq] at h
    exact Node.all_parameter.2 (hparameter x _ h he.self)
  field f e' h _ := by
    cases e' <;> simp only [Expr.same, reduceCtorEq] at h
    exact hP.all_field _
  column c e' h _ := by
    cases e' <;> simp only [Expr.same, reduceCtorEq] at h
    exact hP.all_columnRef _
  call name t args flags ih e' h he := by
    cases e' <;> simp only [Expr.same, Bool.and_eq_true, reduceCtorEq] at h
    have hargs := forall₂_imp_of_mem (forall₂_of_sameExprs h.1.2) ih
    exact hP.all_call.2 (forall_mem_of_forall₂ hargs he.arg fun _ _ h => h)
  binary op l r p t n hl hr e' h he := by
    cases e' <;> simp only [Expr.same, Bool.and_eq_true, reduceCtorEq] at h
    exact hP.all_binary.2 ⟨hl _ h.1.1.1.1.2 he.left, hr _ h.1.1.1.2 he.right⟩
  raw format p args t ih e' h he := by
    cases e' <;> simp only [Expr.same, Bool.and_eq_true, reduceCtorEq] at h
    have hargs := forall₂_imp_of_mem (forall₂_of_sameExprs h.1.2) ih
    exact hP.all_raw.2 (forall_mem_of_forall₂ hargs he.rawArg fun _ _ h => h)
  typeName t e' h _ := by
    cases e' <;> simp only [Expr.same, reduceCtorEq] at h
    exact hP.all_typeName _
  subquery q ih e' h he := by
    cases e' <;> simp only [Expr.same, reduceCtorEq] at h
    exact hP.all_subquery.2 (ih _ h he.subquery)
  existsRow q ih e' h he := by
    cases e' <;> simp only [Expr.same, reduceCtorEq] at h
    exact hP.all_existsRow.2 (ih _ h he.existsRow)
  query q ih q' h hq := by
    have hclauses := (Query.aligned_of_same ih h).leads (fun _ _ h => h) (fun _ _ h => h) hq.clauses
    exact (Node.all_query hP.toOfTrees q').2 ⟨hquery q q' h hq.self, hclauses⟩
  source s ih s' h :=
    (Source.aligned_of_same ih h).leads (fun _ _ h => h) (fun _ _ h => h) (fun _ _ h => h)
      hP.toOfTrees

end SqlTree
