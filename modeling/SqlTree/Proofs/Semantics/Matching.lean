import SqlTree.Proofs.Refinement
import SqlTree.Proofs.Semantics.Basic

/-! # Trees that mean the same

A tree matches another one, along a relation of frames, if in environments at related frames it
yields what the other one yields, wherever that one yields anything. Whole trees match if their
parts do, which is shown here once for every kind of node; what is left for a rewriting is to say
how it treats the parts and which frames it relates.

Main definitions:

* `Env.Lift`: environments at related frames.
* `Expr.Matches`, `Query.Matches`, `Side.Matches`: matching of trees.
* `Scan.Matches`, `Query.ClausesMatch`: matching clause by clause.

Main statements:

* `Query.ClausesMatch.scan`, `Query.ClausesMatch.toMatches`: queries match if their clauses do.
* `Side.Matches.join`: joins match if their sides and conditions do.
* `Source.Matches.ofTable`, `Source.Matches.ofQuery`: sources match if their origins and joins do.
-/

namespace SqlTree

/-- The environments are at related frames, and if one stands for a group, so does the other one,
with related frames as members. -/
structure Env.Lift {V : Type} (P : Frame V → Frame V → Prop) (env env' : Env V) : Prop where
  frame : P env.toFrame env'.toFrame
  group : Option.Rel (List.Forall₂ P) env.group env'.group

variable {V : Type} [DecidableEq V] (db : Database V) (P : Frame V → Frame V → Prop)

/-- At related frames the second expression has the value of the first one. -/
structure Expr.Matches (e e' : Expr) : Prop where
  eval : ∀ {env env'}, env.Lift P env' → Refines Eq (e.eval db env) (e'.eval db env')
  keys : e'.rowNumberKeys? = e.rowNumberKeys?
  args : ∀ {env env'}, env.Lift P env' → Refines Eq (e.evalArgs db env) (e'.evalArgs db env')
  aggregates : e'.aggregates = e.aggregates

/-- At related frames the second query yields what the first one yields. -/
structure Query.Matches (q q' : Query) : Prop where
  rows : ∀ {env env'}, env.Lift P env' →
    Refines Eq ((q.scan db).rows db.engine env) ((q'.scan db).rows db.engine env')
  single : ∀ {env env'}, env.Lift P env' →
    Refines Eq ((q.scan db).single? db.engine env) ((q'.scan db).single? db.engine env')
  hasRow : ∀ {env env'}, env.Lift P env' →
    Refines Eq ((q.scan db).hasRow db.engine env) ((q'.scan db).hasRow db.engine env')

/-- From related frames the two sides lead to related frames. -/
structure Side.Matches (a a' : Side V) : Prop where
  bind : ∀ {env env'}, env.Lift P env' →
    Refines (List.Forall₂ (Env.Lift P)) (a.bind env) (a'.bind env')
  nulls : ∀ {env env'}, env.Lift P env' → (a.nulls env).Lift P (a'.nulls env')

/-- From related frames the two sources lead to related frames. -/
def Source.Matches (s s' : Source) : Prop := (s.side db).Matches P (s'.side db)

/-- Two joins of one kind whose sources and conditions match. -/
structure Join.Matches (j j' : Join) : Prop where
  kind : j'.kind = j.kind
  source : j.source.Matches db P j'.source
  condition : Option.Rel (Expr.Matches db P) j.condition j'.condition

/-- The clauses of two queries yield the same at related frames. -/
structure Scan.Matches (c c' : Scan V) : Prop where
  bind : ∀ {env env'}, env.Lift P env' →
    Refines (List.Forall₂ (Env.Lift P)) (c.bind env) (c'.bind env')
  holds : ∀ {env env'}, env.Lift P env' → Refines Eq (c.holds env) (c'.holds env')
  grouped : c'.grouped = c.grouped
  whole : c'.whole = c.whole
  groupKeys : ∀ {env env'}, env.Lift P env' → Refines Eq (c.groupKeys env) (c'.groupKeys env')
  keeps : ∀ {env env'}, env.Lift P env' → Refines Eq (c.keeps env) (c'.keeps env')
  project : ∀ {envs envs' env env' i}, List.Forall₂ (Env.Lift P) envs envs' → env.Lift P env' →
    Refines Eq (c.project envs i env) (c'.project envs' i env')
  first : ∀ {env env'}, env.Lift P env' → Refines Eq (c.first env) (c'.first env')
  keys : ∀ {env env'}, env.Lift P env' → Refines Eq (c.keys env) (c'.keys env')
  descending : c'.descending = c.descending
  distinct : c'.distinct = c.distinct
  bounds : ∀ {env env'}, env.Lift P env' → Refines Eq (c.bounds env) (c'.bounds env')
  bounded : c'.bounded = c.bounded

/-- The clauses of two queries match. -/
structure Query.ClausesMatch (q q' : Query) : Prop where
  columns : List.Forall₂ (fun c c' => c.expr.Matches db P c'.expr) q.columns q'.columns
  skip : Option.Rel (Expr.Matches db P) q.skip q'.skip
  take : Option.Rel (Expr.Matches db P) q.take q'.take
  sources : List.Forall₂ (Source.Matches db P) q.sources q'.sources
  filter : Option.Rel (Expr.Matches db P) q.filter q'.filter
  groupBy : List.Forall₂ (Expr.Matches db P) q.groupBy q'.groupBy
  having : Option.Rel (Expr.Matches db P) q.having q'.having
  orderBy : List.Forall₂ (fun o o' => o.expr.Matches db P o'.expr ∧ o'.desc = o.desc)
    q.orderBy q'.orderBy
  distinct : q'.distinct = q.distinct

variable {db P}

/-! Environments. -/

namespace Env.Lift

variable {env env' : Env V}

omit [DecidableEq V] in
/-- Outside of groups. -/
theorem of_frame {f f' : Frame V} (h : P f f') : Env.Lift P { toFrame := f } { toFrame := f' } :=
  ⟨h, .none⟩

omit [DecidableEq V] in
theorem refl (h : ∀ f, P f f) (env : Env V) : env.Lift P env where
  frame := h env.toFrame
  group := by
    cases env.group with
    | none => exact .none
    | some members => exact .some (List.forall₂_same.2 fun f _ => h f)

omit [DecidableEq V] in
/-- What is bound at related frames belongs to the same group. -/
theorem rebind (h : env.Lift P env') {f f' : Frame V} (hf : P f f') :
    Env.Lift P { env with toFrame := f } { env' with toFrame := f' } :=
  ⟨hf, h.group⟩

omit [DecidableEq V] in
/-- Groups of related environments. -/
theorem ofMembers (h : env.Lift P env') {bs bs' : List (Env V)}
    (hbs : List.Forall₂ (Env.Lift P) bs bs') : (env.ofMembers bs).Lift P (env'.ofMembers bs') where
  frame := by
    cases hbs with
    | nil => exact h.frame
    | cons hb _ => exact hb.frame
  group := by
    refine .some ?_
    rw [List.forall₂_map_left_iff, List.forall₂_map_right_iff]
    exact hbs.imp fun _ _ hb => hb.frame

end Env.Lift

omit [DecidableEq V] in
theorem keepIf_refines {env env' : Env V} {b b' : Option Bool} (h : env.Lift P env')
    (hb : Refines Eq b b') :
    Refines (List.Forall₂ (Env.Lift P)) (env.keepIf b) (env'.keepIf b') := by
  refine hb.map fun b _ hbb => hbb ▸ ?_
  cases b with
  | false => exact .nil
  | true => exact .cons h .nil

theorem forall₂_distinctOn {α β κ : Type} [DecidableEq κ] {R : α → β → Prop} {f : α → κ}
    {g : β → κ} {xs : List α} {ys : List β} (h : List.Forall₂ R xs ys)
    (hfg : ∀ x y, R x y → g y = f x) :
    List.Forall₂ R (distinctOn f xs) (distinctOn g ys) := by
  induction h with
  | nil => exact .nil
  | @cons x y xs ys hxy _ ih =>
    refine .cons hxy (List.rel_filter (fun a b hab => ?_) ih)
    simp [hfg x y hxy, hfg a b hab]

/-- Elements with equal keys make up related classes. -/
theorem forall₂_classes {α β κ : Type} [DecidableEq κ] {R : α → β → Prop} {xs : List (κ × α)}
    {ys : List (κ × β)} (h : List.Forall₂ (fun x y => y.1 = x.1 ∧ R x.2 y.2) xs ys) :
    List.Forall₂ (List.Forall₂ R) (classes xs) (classes ys) := by
  unfold classes
  rw [List.forall₂_map_left_iff, List.forall₂_map_right_iff]
  refine (forall₂_distinctOn h fun _ _ hxy => hxy.1).imp fun x y hxy => ?_
  rw [List.forall₂_map_left_iff, List.forall₂_map_right_iff]
  refine (List.rel_filter (fun a b hab => ?_) h).imp fun _ _ hab => hab.2
  simp [hxy.1, hab.1]

/-! Joins. -/

namespace Side.Matches

variable {a a' b b' : Side V} {holds holds' : Env V → Option Bool} (ha : a.Matches P a')
  (hb : b.Matches P b')
  (hholds : ∀ {env env'}, env.Lift P env' → Refines Eq (holds env) (holds' env'))
  {env env' : Env V} (h : env.Lift P env')

omit [DecidableEq V]

include hb hholds h in
theorem kept : Refines (List.Forall₂ (Env.Lift P)) (b.kept holds env) (b'.kept holds' env') :=
  (hb.bind h).bind fun _ _ hes => .flatMapM hes fun _ _ he => keepIf_refines he (hholds he)

include ha hb hholds h

theorem matched :
    Refines (List.Forall₂ (Env.Lift P)) (a.matched b holds env) (a'.matched b' holds' env') :=
  (ha.bind h).bind fun _ _ hes => .flatMapM hes fun _ _ he => hb.kept hholds he

theorem unmatched :
    Refines (List.Forall₂ (Env.Lift P)) (a.unmatched b holds env)
      (a'.unmatched b' holds' env') := by
  refine (ha.bind h).bind fun _ _ hes => .flatMapM hes fun e e' he => ?_
  refine (hb.kept hholds he).bind fun _ _ hkept => ?_
  cases hkept with
  | nil => exact .some (.cons (hb.nulls he) .nil)
  | cons _ _ => exact .some .nil

theorem extended :
    Refines (List.Forall₂ (Env.Lift P)) (a.extended b holds env) (a'.extended b' holds' env') := by
  refine (ha.bind h).bind fun _ _ hes => .flatMapM hes fun e e' he => ?_
  refine (hb.kept hholds he).bind fun _ _ hkept => ?_
  cases hkept with
  | nil => exact .some (.cons (hb.nulls he) .nil)
  | cons hfirst hrest => exact .some (.cons hfirst hrest)

omit h

theorem join (kind : JoinKind) : (a.join b holds kind).Matches P (a'.join b' holds' kind) where
  bind h := by
    cases kind with
    | inner | crossApply => exact ha.matched hb hholds h
    | left | outerApply => exact ha.extended hb hholds h
    | right => exact hb.extended ha hholds h
    | full =>
      refine (ha.extended hb hholds h).bind fun _ _ hl => ?_
      exact (hb.unmatched ha hholds h).bind fun _ _ hr => .some (List.rel_append hl hr)
  nulls h := hb.nulls (ha.nulls h)

end Side.Matches

/-! Queries. -/

namespace Scan.Matches

variable {c c' : Scan V} {e : Engine V} (h : c.Matches P c')

include h

omit [DecidableEq V] in
theorem bindings {env env' : Env V} (henv : env.Lift P env') :
    Refines (List.Forall₂ (Env.Lift P)) (c.bindings env) (c'.bindings env') :=
  (h.bind henv).bind fun _ _ henvs => .flatMapM henvs fun _ _ hb => keepIf_refines hb (h.holds hb)

theorem groups {envs envs' : List (Env V)} (henvs : List.Forall₂ (Env.Lift P) envs envs') :
    Refines (List.Forall₂ (List.Forall₂ (Env.Lift P))) (c.groups envs) (c'.groups envs') := by
  unfold Scan.groups
  rw [h.whole]
  refine Refines.bind (R := List.Forall₂ fun x y => y.1 = x.1 ∧ x.2.Lift P y.2)
    (.mapM henvs fun b b' hb => ?_) fun keyed keyed' hkeyed => .some ?_
  · exact (h.groupKeys hb).bind fun ks ks' hks => .some ⟨hks.symm, hb⟩
  · split
    · exact .cons henvs .nil
    · exact forall₂_classes hkeyed

theorem units {env env' : Env V} (henv : env.Lift P env') :
    Refines (List.Forall₂ (Env.Lift P)) (c.units env) (c'.units env') := by
  unfold Scan.units
  rw [h.grouped]
  refine (h.bindings henv).bind fun envs envs' henvs => ?_
  split
  · refine (h.groups henvs).bind fun _ _ hgroups => .flatMapM hgroups fun _ _ hmembers => ?_
    exact keepIf_refines (henv.ofMembers hmembers) (h.keeps (henv.ofMembers hmembers))
  · exact .some henvs

omit [DecidableEq V] in
theorem entries {envs envs' : List (Env V)} (henvs : List.Forall₂ (Env.Lift P) envs envs') :
    Refines Eq (c.entries envs) (c'.entries envs') := by
  refine Refines.mapM_eq (forall₂_zipIdx henvs 0) ?_
  rintro ⟨b, i⟩ ⟨b', i'⟩ ⟨hb, rfl⟩
  exact (h.project henvs hb).bind fun vs _ hvs => (h.keys hb).bind fun ks _ hks =>
    hvs ▸ hks ▸ .refl _

theorem rows {env env' : Env V} (henv : env.Lift P env') :
    Refines Eq (c.rows e env) (c'.rows e env') := by
  unfold Scan.rows
  refine (h.units henv).bind fun envs envs' henvs => (h.entries henvs).bind fun es _ hes => ?_
  refine (h.bounds henv).bind fun b _ hb => ?_
  unfold Scan.arrange
  rw [← hes, ← hb, h.distinct, h.descending]
  exact .refl _

theorem hasRow {env env' : Env V} (henv : env.Lift P env') :
    Refines Eq (c.hasRow e env) (c'.hasRow e env') := by
  unfold Scan.hasRow
  rw [h.bounded]
  split
  · exact (h.rows henv).map fun _ _ hrows => hrows ▸ rfl
  · exact (h.units henv).map fun envs envs' henvs => by cases henvs <;> rfl

theorem single {env env' : Env V} (henv : env.Lift P env') :
    Refines Eq (c.single? e env) (c'.single? e env') := by
  unfold Scan.single?
  rw [h.bounded, h.distinct]
  split
  · exact (h.rows henv).bind fun _ _ hrows => hrows ▸ .refl _
  · refine (h.units henv).bind fun envs envs' henvs => ?_
    cases henvs with
    | nil => exact .refl _
    | cons hb hbs =>
      cases hbs with
      | nil => exact h.first hb
      | cons _ _ => exact .none _ _

end Scan.Matches

/-! Clauses. -/

theorem evalExprs_refines {es es' : List Expr} (h : List.Forall₂ (Expr.Matches db P) es es')
    {env env' : Env V} (henv : env.Lift P env') :
    Refines Eq (evalExprs db env es) (evalExprs db env' es') := by
  rw [evalExprs_eq_mapM, evalExprs_eq_mapM]
  exact Refines.mapM_eq h fun _ _ he => he.eval henv

theorem evalCondition_refines {o o' : Option Expr} (h : Option.Rel (Expr.Matches db P) o o')
    {env env' : Env V} (henv : env.Lift P env') :
    Refines Eq (evalCondition db env o) (evalCondition db env' o') := by
  cases h with
  | none => exact .refl _
  | some he => exact (he.eval henv).map fun _ _ hv => hv ▸ rfl

theorem evalSkip_refines {o o' : Option Expr} (h : Option.Rel (Expr.Matches db P) o o')
    {env env' : Env V} (henv : env.Lift P env') :
    Refines Eq (evalSkip db env o) (evalSkip db env' o') := by
  cases h with
  | none => exact .refl _
  | some he => exact (he.eval henv).bind fun _ _ hv => hv ▸ .refl _

theorem evalTake_refines {o o' : Option Expr} (h : Option.Rel (Expr.Matches db P) o o')
    {env env' : Env V} (henv : env.Lift P env') :
    Refines Eq (evalTake db env o) (evalTake db env' o') := by
  cases h with
  | none => exact .refl _
  | some he => exact (he.eval henv).bind fun _ _ hv => hv ▸ .refl _

theorem Column.eval_refines {c c' : Column} (h : c.expr.Matches db P c'.expr)
    {peers peers' : List (Env V)} (hpeers : List.Forall₂ (Env.Lift P) peers peers') (i : Nat)
    {env env' : Env V} (henv : env.Lift P env') :
    Refines Eq (c.eval db peers i env) (c'.eval db peers' i env') := by
  cases hk : c.expr.rowNumberKeys? with
  | none =>
    rw [Column.eval_of_rowNumberKeys? db env hk,
      Column.eval_of_rowNumberKeys? db env' (h.keys.trans hk)]
    exact h.eval henv
  | some keys =>
    rw [Column.eval_rowNumber db env hk, Column.eval_rowNumber db env' (h.keys.trans hk)]
    refine Refines.map (Refines.mapM_eq hpeers fun peer peer' hpeer => ?_) fun _ _ hvs => hvs ▸ rfl
    exact (h.args hpeer).bind fun args _ hargs => hargs ▸ .refl _

theorem evalColumns_refines {cs cs' : List Column}
    (h : List.Forall₂ (fun c c' => c.expr.Matches db P c'.expr) cs cs')
    {peers peers' : List (Env V)} (hpeers : List.Forall₂ (Env.Lift P) peers peers') (i : Nat)
    {env env' : Env V} (henv : env.Lift P env') :
    Refines Eq (evalColumns db peers i env cs) (evalColumns db peers' i env' cs') := by
  rw [evalColumns_eq_mapM, evalColumns_eq_mapM]
  exact Refines.mapM_eq h fun _ _ hc => Column.eval_refines hc hpeers i henv

theorem evalFirst_refines {cs cs' : List Column}
    (h : List.Forall₂ (fun c c' => c.expr.Matches db P c'.expr) cs cs')
    {env env' : Env V} (henv : env.Lift P env') :
    Refines Eq (evalFirst db env cs) (evalFirst db env' cs') := by
  cases h with
  | nil => exact .none _ _
  | cons hc _ => exact Column.eval_refines hc (.cons henv .nil) 0 henv

theorem evalOrder_refines {os os' : List OrderItem}
    (h : List.Forall₂ (fun o o' => o.expr.Matches db P o'.expr ∧ o'.desc = o.desc) os os')
    {env env' : Env V} (henv : env.Lift P env') :
    Refines Eq (evalOrder db env os) (evalOrder db env' os') := by
  rw [evalOrder_eq_mapM, evalOrder_eq_mapM]
  exact Refines.mapM_eq h fun _ _ ho => ho.1.eval henv

theorem bindSources_refines {ss ss' : List Source}
    (h : List.Forall₂ (Source.Matches db P) ss ss') {env env' : Env V} (henv : env.Lift P env') :
    Refines (List.Forall₂ (Env.Lift P)) (bindSources db env ss) (bindSources db env' ss') := by
  induction h generalizing env env' with
  | nil => exact .some (.cons henv .nil)
  | cons hs _ ih =>
    unfold bindSources
    exact (hs.bind henv).bind fun _ _ henvs => .flatMapM henvs fun _ _ hb => ih hb

theorem rel_map_right {α β : Type} {P : α → β → Prop} {f : α → β} {o : Option α}
    (h : ∀ a ∈ o, P a (f a)) : Option.Rel P o (o.map f) := by
  cases o with
  | none => exact .none
  | some a => exact .some (h a rfl)

theorem forall₂_map_right {α β : Type} {P : α → β → Prop} {f : α → β} {as : List α}
    (h : ∀ a ∈ as, P a (f a)) : List.Forall₂ P as (as.map f) :=
  List.forall₂_map_right_iff.2 (List.forall₂_same.2 h)

theorem rel_isSome {α : Type} {P : α → α → Prop} {o o' : Option α} (h : Option.Rel P o o') :
    o'.isSome = o.isSome := by
  cases h <;> rfl

theorem isEmpty_of_forall₂ {α β : Type} {R : α → β → Prop} {xs : List α} {ys : List β}
    (h : List.Forall₂ R xs ys) : ys.isEmpty = xs.isEmpty := by
  cases h <;> rfl

theorem any_eq_of_forall₂ {α β : Type} {R : α → β → Prop} {p : α → Bool} {p' : β → Bool}
    {xs : List α} {ys : List β} (h : List.Forall₂ R xs ys) (hp : ∀ x y, R x y → p' y = p x) :
    ys.any p' = xs.any p := by
  induction h with
  | nil => rfl
  | cons hxy _ ih => rw [List.any_cons, List.any_cons, hp _ _ hxy, ih]

theorem map_desc_eq {os os' : List OrderItem}
    (h : List.Forall₂ (fun o o' => o'.desc = o.desc) os os') :
    os'.map (·.desc) = os.map (·.desc) := by
  induction h with
  | nil => rfl
  | cons ho _ ih => simp [ho, ih]

namespace Query.ClausesMatch

variable {q q' : Query} (h : Query.ClausesMatch db P q q')

include h

theorem isGrouped : q'.isGrouped = q.isGrouped := by
  have hcolumns := any_eq_of_forall₂ h.columns fun _ _ hc => hc.aggregates
  have horderBy := any_eq_of_forall₂ h.orderBy fun _ _ ho => ho.1.aggregates
  unfold Query.isGrouped
  rw [isEmpty_of_forall₂ h.groupBy, rel_isSome h.having, hcolumns, horderBy]

/-- The clauses of the queries as they are evaluated. -/
theorem scan : (q.scan db).Matches P (q'.scan db) where
  bind henv := by
    rw [scan_eq, scan_eq]
    exact bindSources_refines h.sources henv
  holds henv := by
    rw [scan_eq, scan_eq]
    exact evalCondition_refines h.filter henv
  project henvs henv := by
    rw [scan_eq, scan_eq]
    exact evalColumns_refines h.columns henvs _ henv
  first henv := by
    rw [scan_eq, scan_eq]
    exact evalFirst_refines h.columns henv
  keys henv := by
    rw [scan_eq, scan_eq]
    exact evalOrder_refines h.orderBy henv
  bounds henv := by
    rw [scan_eq, scan_eq]
    exact (evalSkip_refines h.skip henv).bind fun _ _ hs =>
      (evalTake_refines h.take henv).bind fun _ _ ht => hs ▸ ht ▸ .refl _
  descending := by
    rw [scan_eq, scan_eq]
    exact map_desc_eq (h.orderBy.imp fun _ _ ho => ho.2)
  distinct := by
    rw [scan_eq, scan_eq]
    exact h.distinct
  bounded := by
    rw [scan_eq, scan_eq]
    simp [rel_isSome h.skip, rel_isSome h.take]
  grouped := by
    rw [scan_eq, scan_eq]
    exact h.isGrouped
  whole := by
    rw [scan_eq, scan_eq]
    exact isEmpty_of_forall₂ h.groupBy
  groupKeys henv := by
    rw [scan_eq, scan_eq]
    exact evalExprs_refines h.groupBy henv
  keeps henv := by
    rw [scan_eq, scan_eq]
    exact evalCondition_refines h.having henv

theorem toMatches : q.Matches db P q' where
  rows henv := h.scan.rows henv
  single henv := h.scan.single henv
  hasRow henv := h.scan.hasRow henv

end Query.ClausesMatch

/-! Sources. -/

theorem joinSides_matches {js js' : List Join} (h : List.Forall₂ (Join.Matches db P) js js')
    {a a' : Side V} (ha : a.Matches P a') :
    (joinSides db a js).Matches P (joinSides db a' js') := by
  induction h generalizing a a' with
  | nil => exact ha
  | cons hj _ ih =>
    unfold joinSides
    refine ih ?_
    rw [Join.side_eq, Join.side_eq, hj.kind]
    exact ha.join hj.source (evalCondition_refines hj.condition) _

/-- Sources match if they bind the rows of one table to ids that the relation allows for, and their
joins match. -/
theorem Source.Matches.ofTable {s s' : Source} {t t' : Table} (ho : s.origin = .table t)
    (ho' : s'.origin = .table t') (hname : t'.name = t.name)
    (hbind : ∀ {f f'} x, P f f' → P (f.bindSource s.id x) (f'.bindSource s'.id x))
    (hjoins : List.Forall₂ (Join.Matches db P) s.joins s'.joins) : s.Matches db P s' := by
  unfold Source.Matches
  rw [Source.side_eq, Source.side_eq, ho, ho']
  refine joinSides_matches hjoins ⟨fun henv => ?_, fun henv => henv.rebind (hbind _ henv.frame)⟩
  unfold Origin.side
  rw [hname]
  refine (Refines.refl (db.tables t.name)).map fun rows _ hrows => hrows ▸ ?_
  rw [List.forall₂_map_left_iff, List.forall₂_map_right_iff]
  exact List.forall₂_same.2 fun x _ => henv.rebind (hbind x henv.frame)

/-- Sources match if their derived tables do, which have as many columns and are bound to ids that
the relation allows for, and their joins match. -/
theorem Source.Matches.ofQuery {s s' : Source} {q q' : Query} (ho : s.origin = .query q)
    (ho' : s'.origin = .query q') (hq : q.Matches db P q')
    (hlength : q'.columns.length = q.columns.length)
    (hbind : ∀ {f f'} vs, P f f' → P (f.bindDerived q.id vs) (f'.bindDerived q'.id vs))
    (hjoins : List.Forall₂ (Join.Matches db P) s.joins s'.joins) : s.Matches db P s' := by
  unfold Source.Matches
  rw [Source.side_eq, Source.side_eq, ho, ho']
  refine joinSides_matches hjoins ⟨fun henv => ?_, fun henv => ?_⟩
  · refine (hq.rows henv).map fun rows _ hrows => hrows ▸ ?_
    rw [List.forall₂_map_left_iff, List.forall₂_map_right_iff]
    exact List.forall₂_same.2 fun vs _ => henv.rebind (hbind vs henv.frame)
  · unfold Origin.side
    rw [hlength]
    exact henv.rebind (hbind _ henv.frame)

/-! Expressions. -/

theorem anyAggregates_of_forall₂ {es es' : List Expr}
    (h : List.Forall₂ (Expr.Matches db P) es es') : anyAggregates es' = anyAggregates es := by
  rw [anyAggregates_eq_any, anyAggregates_eq_any]
  exact any_eq_of_forall₂ h fun _ _ he => he.aggregates

namespace Expr.Matches

/-- An expression other than engine text matches if it has the same value. -/
theorem ofEval {e e' : Expr} (hk : e.rowNumberKeys? = none) (hk' : e'.rowNumberKeys? = none)
    (ha : ∀ env, e.evalArgs db env = none) (hg : e'.aggregates = e.aggregates)
    (h : ∀ {env env'}, env.Lift P env' → Refines Eq (e.eval db env) (e'.eval db env')) :
    e.Matches db P e' where
  eval := h
  keys := hk'.trans hk.symm
  args _ := by
    rw [ha]
    exact .none _ _
  aggregates := hg

theorem value (l : Literal) (t : DataType) : (Expr.value l t).Matches db P (.value l t) :=
  ofEval rfl rfl (fun _ => rfl) rfl fun _ => .refl _

theorem parameter (p : Parameter) : (Expr.parameter p).Matches db P (.parameter p) :=
  ofEval rfl rfl (fun _ => rfl) rfl fun _ => .refl _

theorem typeName (t : DataType) : (Expr.typeName t).Matches db P (.typeName t) :=
  ofEval rfl rfl (fun _ => rfl) rfl fun _ => .refl _

theorem field {f f' : FieldRef} (hname : f'.name = f.name)
    (h : ∀ {g g'} x, P g g' → g.source f.source = some x → g'.source f'.source = some x) :
    (Expr.field f).Matches db P (.field f') := by
  refine ofEval rfl rfl (fun _ => rfl) rfl fun {env env'} henv => ?_
  unfold Expr.eval
  rw [hname]
  refine Refines.bind (R := Eq) (fun x hx => ⟨x, h x henv.frame hx, rfl⟩) fun _ _ hx => hx ▸ .refl _

theorem column {c c' : ColumnRef} (hindex : c'.index = c.index)
    (h : ∀ {g g'} vs, P g g' → g.derived c.query = some vs →
      g'.derived c'.query = some vs) :
    (Expr.column c).Matches db P (.column c') := by
  refine ofEval rfl rfl (fun _ => rfl) rfl fun {env env'} henv => ?_
  unfold Expr.eval
  rw [hindex]
  exact Refines.bind (R := Eq) (fun vs hvs => ⟨vs, h vs henv.frame hvs, rfl⟩)
    fun _ _ hvs => hvs ▸ .refl _

theorem call (name : String) (t : DataType) (flags : CallFlags) {args args' : List Expr}
    (h : List.Forall₂ (Expr.Matches db P) args args') :
    (Expr.call name t args flags).Matches db P (.call name t args' flags) := by
  refine ofEval rfl rfl (fun _ => rfl) ?_ fun henv => ?_
  · simp [Expr.aggregates, anyAggregates_of_forall₂ h]
  unfold Expr.eval
  split
  · refine (Refines.of_rel henv.group).bind fun _ _ hmembers => ?_
    refine (Refines.mapM_eq hmembers fun _ _ hf => evalExprs_refines h (.of_frame hf)).bind
      fun _ _ hrows => hrows ▸ .refl _
  · exact (evalExprs_refines h henv).bind fun _ _ hvs => hvs ▸ .refl _

theorem binary (op : Operator) (p : Int) (t : DataType) (n : Bool) {l l' r r' : Expr}
    (hl : l.Matches db P l') (hr : r.Matches db P r') :
    (Expr.binary op l r p t n).Matches db P (.binary op l' r' p t n) := by
  refine ofEval rfl rfl (fun _ => rfl) ?_ fun henv => ?_
  · simp [Expr.aggregates, hl.aggregates, hr.aggregates]
  unfold Expr.eval
  exact (hl.eval henv).bind fun _ _ ha => (hr.eval henv).bind fun _ _ hb => ha ▸ hb ▸ .refl _

theorem raw (format : String) (p : Int) (t : DataType) {args args' : List Expr}
    (h : List.Forall₂ (Expr.Matches db P) args args') :
    (Expr.raw format p args t).Matches db P (.raw format p args' t) where
  eval henv := by
    unfold Expr.eval
    split
    · exact .none _ _
    · exact (evalExprs_refines h henv).bind fun _ _ hvs => hvs ▸ .refl _
  keys := rfl
  args henv := evalExprs_refines h henv
  aggregates := by simp [Expr.aggregates, anyAggregates_of_forall₂ h]

theorem subquery {q q' : Query} (h : q.Matches db P q') :
    (Expr.subquery q).Matches db P (.subquery q') :=
  ofEval rfl rfl (fun _ => rfl) rfl fun henv => by
    unfold Expr.eval
    exact h.single henv

theorem existsRow {q q' : Query} (h : q.Matches db P q') :
    (Expr.existsRow q).Matches db P (.existsRow q') :=
  ofEval rfl rfl (fun _ => rfl) rfl fun henv => by
    unfold Expr.eval
    exact (h.hasRow henv).map fun _ _ hb => hb ▸ rfl

end Expr.Matches

end SqlTree
