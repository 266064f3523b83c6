import SqlTree.Proofs.Invariant
import SqlTree.Proofs.Lowering.Conversion
import SqlTree.Proofs.Lowering.Pipeline

/-! # Bound parameters among arguments

Where the parameters among the arguments of calls are written into the text, no call is left with a
bound one. The conversion for SQL Server Compact Edition comes later and puts operands into calls
that it makes: the left side of a modulo into a conversion to an integer, and a date that is shifted
by an interval into the call that shifts it. These are the only calls with bound parameters after
the lowering.

Main definitions:

* `Expr.Binds`: a call with a bound parameter among its arguments.
* `Expr.Carries`: what one pass keeps of the parameters of an expression.
* `SqlCe.Wraps`: a call that the conversion puts around an operand.

Main statements:

* `Dialect.unbound_inlined`: no call has a bound parameter before the conversion.
* `SqlCe.Converted.carries`: what a conversion does to one expression.
* `Dialect.wraps_of_lower`: the calls with bound parameters after a lowering.
-/

namespace SqlTree

/-- The expression is a call with the bound parameter `x` among its arguments. -/
def Expr.Binds (x : Parameter) : Expr → Prop
  | .call _ _ args _ => x.isBound = true ∧ .parameter x ∈ args
  | _ => False

/-- The expression is not a call with a bound parameter among its arguments. -/
abbrev Expr.Unbound (e : Expr) : Prop := ∀ x, ¬ e.Binds x

/-- The calls that the conversion puts around the parameter `x`, which is an operand of one of the
nodes. -/
inductive SqlCe.Wraps (nodes : List Node) (x : Parameter) : Expr → Prop
  | modulo {r : Expr} {p : Int} {t : DataType} {n : Bool}
      (hmem : .expr (.binary .modulo (.parameter x) r p t n) ∈ nodes)
      (hx : x.dataType.isInteger = false) : Wraps nodes x (.convert .int32 (.parameter x))
  | shift {op : Operator} {l r : Expr} {p : Int} {t : DataType} {n : Bool}
      (hmem : .expr (.binary op l r p t n) ∈ nodes) (hop : op = .add ∨ op = .subtract)
      (hdate : l = .parameter x ∨ r = .parameter x) (hx : x.dataType.isTemporal = true)
      (unit : IntervalUnit) (count : Int64) (nullable : Bool) :
      Wraps nodes x (shift unit count (.parameter x) nullable)

/-! Bound parameters in a pass. -/

/-- If all nodes of the first expression meet `C`, all expressions of the second one meet `P`, and
it is a bound parameter only if the first one is the same. -/
structure Expr.Carries (C : Node → Prop) (P : Expr → Prop) (e e' : Expr) : Prop where
  each : (Node.expr e).All C → e'.EachExpr P
  operand : (Node.expr e).All C → ∀ x : Parameter, x.isBound = true → e' = .parameter x →
    e = .parameter x

abbrev Query.Carries (C : Node → Prop) (P : Expr → Prop) (q q' : Query) : Prop :=
  Node.Leads C (Node.IfExpr P) (.query q) (.query q')

abbrev Source.Carries (C : Node → Prop) (P : Expr → Prop) (s s' : Source) : Prop :=
  Node.Leads C (Node.IfExpr P) (.source s) (.source s')

section Carries

variable {C : Node → Prop} {P : Expr → Prop}

theorem Expr.Aligned.eachExpr {e e' : Expr}
    (h : e.Aligned (Carries C P) (Query.Carries C P) e') (hall : (Node.expr e).All C) :
    ∀ c ∈ (Node.expr e').children, c.All (Node.IfExpr P) :=
  h.leads (fun _ _ h => h.each) (fun _ _ h => h) hall

/-- A transformation that acts on expressions only. -/
theorem Transform.carries {m : Type → Type} [Monad m] [LawfulMonad m] {O : Outcome m}
    {t : Transform m} (hquery : t.query = QueryParts.rebuild)
    (hexpr : ∀ {e e' : Expr}, e.Aligned (Expr.Carries C P) (Query.Carries C P) e' →
      O.Holds (e.Carries C P) (t.expr e')) :
    t.Yields O (Expr.Carries C P) (Query.Carries C P) (Source.Carries C P) where
  expr := hexpr
  query h := by
    rw [hquery]
    refine O.mono h.rebuild fun q' hq' hall => ?_
    exact (Node.all_query (Node.IfExpr.ofTrees P) q').2
      ⟨nofun, hq'.leads (fun _ _ h => h.each) (fun _ _ h => h) hall.clauses⟩
  source h := h.leads (fun _ _ h => h.each) (fun _ _ h => h) (fun _ _ h => h)
    (Node.IfExpr.ofTrees P)

theorem Statement.Aligned.carries {s s' : Statement}
    (h : s.Aligned (Expr.Carries C P) (Query.Carries C P) (Source.Carries C P) s') :
    Node.Leads C (Node.IfExpr P) (.statement s) (.statement s') :=
  h.leads (fun _ _ h => h.each) (fun _ _ h => h) (fun _ _ h => h) (Node.IfExpr.ofTrees P)

theorem Expr.Carries.mem_args {args args' : List Expr} (h : List.Forall₂ (Carries C P) args args')
    (hall : ∀ a ∈ args, (Node.expr a).All C) {x : Parameter} (hx : x.isBound = true)
    (hmem : .parameter x ∈ args') : .parameter x ∈ args := by
  obtain ⟨a, ha, hcarries⟩ := exists_of_forall₂ h hmem
  exact hcarries.operand (hall a ha) x hx rfl ▸ ha

theorem Expr.Carries.of_ne {e e' : Expr} (heach : (Node.expr e).All C → e'.EachExpr P)
    (hne : ∀ x, e' ≠ .parameter x) : e.Carries C P e' :=
  ⟨heach, fun _ x _ he' => absurd he' (hne x)⟩

/-- No call gets a bound parameter, if none had one. -/
theorem Expr.Aligned.unbound (hC : ∀ e : Expr, C (.expr e) → e.Unbound)
    {RQ : Query → Query → Prop} {e e' : Expr} (h : e.Aligned (Carries C P) RQ e')
    (hall : (Node.expr e).All C) : e'.Unbound := by
  intro x
  cases h with
  | call name t flags hargs =>
    rintro ⟨hx, hmem⟩
    exact hC _ hall.self x ⟨hx, Carries.mem_args hargs hall.arg hx hmem⟩
  | _ => exact id

theorem Expr.Aligned.operand {RQ : Query → Query → Prop} {e e' : Expr}
    (h : e.Aligned (Carries C P) RQ e') {x : Parameter} (he' : e' = .parameter x) :
    e = .parameter x := by
  subst he'
  cases h
  rfl

end Carries

/-! The passes that write parameters into the text. -/

/-- No call of the statement has a bound parameter among its arguments. -/
abbrev Statement.Unbound (s : Statement) : Prop :=
  (Node.statement s).All (Node.IfExpr Expr.Unbound)

theorem Expr.eachExpr_unbind {e : Expr} (h : e.EachExpr Unbound) : e.unbind.EachExpr Unbound := by
  cases e with
  | parameter p => exact (eachExpr_iff _).2 ⟨fun _ => id, by simp [unbind, Node.children]⟩
  | _ => exact h

theorem Expr.unbound_unbindArgs (e : Expr) : e.unbindArgs.Unbound := by
  intro x
  cases e with
  | call name t args flags =>
    rintro ⟨hx, hmem⟩
    obtain ⟨a, -, ha⟩ := List.mem_map.1 hmem
    cases a with
    | parameter p =>
      cases ha
      cases hx
    | _ => cases ha
  | _ => exact id

theorem Expr.Aligned.carries_unbindArgs {e e' : Expr}
    (h : e.Aligned (Carries (fun _ => True) Unbound) (Query.Carries (fun _ => True) Unbound) e') :
    e.Carries (fun _ => True) Unbound e'.unbindArgs where
  each hall := by
    have heach := h.eachExpr hall
    refine (eachExpr_iff _).2 ⟨e'.unbound_unbindArgs, ?_⟩
    cases e' with
    | call name t args flags =>
      simp only [Node.children, unbindArgs, List.forall_mem_map] at heach ⊢
      exact fun a ha => eachExpr_unbind (heach a ha)
    | _ => exact heach
  operand _ x _ he' := by
    refine h.operand ?_
    cases e' with
    | call name t args flags => cases he'
    | _ => exact he'

theorem Expr.Aligned.carries_unbind {e e' : Expr}
    (h : e.Aligned (Carries (Node.IfExpr Unbound) Unbound)
      (Query.Carries (Node.IfExpr Unbound) Unbound) e') :
    e.Carries (Node.IfExpr Unbound) Unbound e'.unbind where
  each hall := eachExpr_unbind ((eachExpr_iff e').2
    ⟨h.unbound (fun e he => he e rfl) hall, h.eachExpr hall⟩)
  operand _ x hx he' := by
    refine h.operand ?_
    cases e' with
    | parameter p =>
      cases he'
      cases hx
    | _ => exact he'

namespace Statement

theorem unbound_inlineFunctionParameters (s : Statement) : s.inlineFunctionParameters.Unbound :=
  ((Transform.carries (O := .result) (t := .ofFun Expr.unbindArgs) rfl
    fun h => h.carries_unbindArgs).onStatement s).carries fun _ _ => trivial

theorem Unbound.inlineAllParameters {s : Statement} (h : s.Unbound) :
    s.inlineAllParameters.Unbound :=
  ((Transform.carries (O := .result) (t := .ofFun Expr.unbind) rfl
    fun h => h.carries_unbind).onStatement s).carries h

end Statement

/-- No call has a bound parameter before the conversion. -/
theorem Dialect.unbound_inlined {d : Dialect} {config : Config}
    (h : d.inlinesArguments config = true) (s : Statement) : (d.inlined config s).Unbound := by
  unfold inlined
  simp only [h, if_true]
  split
  · exact (Statement.unbound_inlineFunctionParameters _).inlineAllParameters
  · exact Statement.unbound_inlineFunctionParameters _

/-! The conversion. -/

namespace SqlCe

variable {nodes : List Node}

/-- Parameters that a call binds are operands that the conversion puts into it. -/
abbrev BindsWrapped (nodes : List Node) (e : Expr) : Prop := ∀ x, e.Binds x → Wraps nodes x e

theorem eachExpr_typeName (t : DataType) : (Expr.typeName t).EachExpr (BindsWrapped nodes) :=
  (Expr.eachExpr_iff _).2 ⟨fun _ => False.elim, by simp [Node.children]⟩

theorem eachExpr_value (l : Literal) (t : DataType) :
    (Expr.value l t).EachExpr (BindsWrapped nodes) :=
  (Expr.eachExpr_iff _).2 ⟨fun _ => False.elim, by simp [Node.children]⟩

/-- The left side of a modulo in a conversion. -/
theorem eachExpr_convert {l l' r : Expr} {p : Int} {t : DataType} {n : Bool}
    (hall : (Node.expr (.binary .modulo l r p t n)).All (· ∈ nodes))
    (hl : l.Carries (· ∈ nodes) (BindsWrapped nodes) l')
    (hinteger : l'.dataType.isInteger = false) :
    (Expr.convert .int32 l').EachExpr (BindsWrapped nodes) := by
  refine Expr.eachExpr_call.2 ⟨?_, by simpa using ⟨eachExpr_typeName _, hl.each hall.left⟩⟩
  rintro x ⟨hx, hmem⟩
  obtain rfl : l' = .parameter x := by simpa [eq_comm] using hmem
  cases hl.operand hall.left x hx rfl
  exact .modulo hall.self hinteger

/-- An operand of a sum or a difference in the call that shifts it. -/
theorem eachExpr_shift {op : Operator} {l l' r r' date : Expr} {p : Int} {t : DataType} {n : Bool}
    (hall : (Node.expr (.binary op l r p t n)).All (· ∈ nodes))
    (hl : l.Carries (· ∈ nodes) (BindsWrapped nodes) l')
    (hr : r.Carries (· ∈ nodes) (BindsWrapped nodes) r') (hop : op = .add ∨ op = .subtract)
    (hdate : date = l' ∨ date = r') (htemporal : date.dataType.isTemporal = true)
    (unit : IntervalUnit) (count : Int64) (nullable : Bool) :
    (shift unit count date nullable).EachExpr (BindsWrapped nodes) := by
  obtain ⟨heach, hoperand⟩ : date.EachExpr (BindsWrapped nodes) ∧
      ∀ x : Parameter, x.isBound = true → date = .parameter x →
        l = .parameter x ∨ r = .parameter x := by
    rcases hdate with rfl | rfl
    · exact ⟨hl.each hall.left, fun x hx he => .inl (hl.operand hall.left x hx he)⟩
    · exact ⟨hr.each hall.right, fun x hx he => .inr (hr.operand hall.right x hx he)⟩
  have hunit : (Expr.raw unit.name Precedence.primary [] .nVarChar).EachExpr
      (BindsWrapped nodes) := Expr.eachExpr_raw.2 ⟨fun _ => False.elim, by simp⟩
  refine Expr.eachExpr_call.2 ⟨?_, by simpa using ⟨hunit, eachExpr_value _ _, heach⟩⟩
  rintro x ⟨hx, hmem⟩
  obtain rfl : date = .parameter x := by simpa [Expr.long, eq_comm] using hmem
  exact .shift hall.self hop (hoperand x hx rfl) htemporal unit count nullable

/-- A value that is rounded down in its call. -/
theorem eachExpr_floor {name : String} {t : DataType} {target value : Expr} {flags : CallFlags}
    (hunbound : (Expr.call name t [target, value] flags).Unbound)
    (htarget : target.EachExpr (BindsWrapped nodes))
    (hvalue : value.EachExpr (BindsWrapped nodes)) :
    (Expr.call name t [target, .function "Floor" value.dataType [value]] flags).EachExpr
      (BindsWrapped nodes) := by
  have hfloor : (Expr.function "Floor" value.dataType [value]).EachExpr (BindsWrapped nodes) := by
    refine Expr.eachExpr_call.2 ⟨?_, by simpa using hvalue⟩
    rintro x ⟨hx, hmem⟩
    exact absurd ⟨hx, List.mem_cons_of_mem target hmem⟩ (hunbound x)
  refine Expr.eachExpr_call.2 ⟨?_, by simpa using ⟨htarget, hfloor⟩⟩
  rintro x ⟨hx, hmem⟩
  have hmem : .parameter x = target := by simpa [Expr.function] using hmem
  exact absurd ⟨hx, by simp [hmem]⟩ (hunbound x)

/-- What a conversion does to an expression whose parts are converted. -/
theorem Converted.carries (hnodes : ∀ e : Expr, .expr e ∈ nodes → e.Unbound) {e e₁ e₂ : Expr}
    (h : e.Aligned (Expr.Carries (· ∈ nodes) (BindsWrapped nodes))
      (Query.Carries (· ∈ nodes) (BindsWrapped nodes)) e₁) (hconverted : Converted e₁ e₂) :
    e.Carries (· ∈ nodes) (BindsWrapped nodes) e₂ := by
  have hchildren := fun hall => h.eachExpr hall
  cases hconverted with
  | unchanged =>
    refine ⟨fun hall => (Expr.eachExpr_iff _).2 ⟨fun x hx => ?_, hchildren hall⟩,
      fun _ _ _ => h.operand⟩
    exact absurd hx (h.unbound hnodes hall x)
  | modulo hinteger =>
    refine .of_ne (fun hall => ?_) (by simp)
    cases h with
    | binary _ _ _ _ hl hr =>
      exact Expr.eachExpr_binary.2
        ⟨fun _ => False.elim, eachExpr_convert hall hl hinteger, hr.each hall.right⟩
  | shift hop hdate htemporal unit count nullable =>
    refine .of_ne (fun hall => ?_) (by simp [SqlCe.shift])
    cases h with
    | binary _ _ _ _ hl hr =>
      exact eachExpr_shift hall hl hr hop hdate htemporal unit count nullable
  | null t' => exact .of_ne (fun _ => eachExpr_value _ _) (by simp [Expr.null])
  | floor =>
    refine .of_ne (fun hall => ?_) (by simp)
    simp only [Node.children, List.forall_mem_map, List.forall_mem_cons] at hchildren
    obtain ⟨htarget, hvalue, -⟩ := hchildren hall
    exact eachExpr_floor (h.unbound hnodes hall) htarget hvalue
  | text format =>
    refine .of_ne (fun hall => ?_) (by simp)
    simp only [Node.children, List.forall_mem_map, List.forall_mem_cons] at hchildren
    obtain ⟨-, hvalue⟩ := hchildren hall
    exact Expr.eachExpr_raw.2 ⟨fun _ => False.elim, by simpa using hvalue⟩
  | value =>
    simp only [Node.children, List.forall_mem_map, List.forall_mem_cons] at hchildren
    -- The value stood in a call before, so it is no bound parameter.
    exact ⟨fun hall => (hchildren hall).2.1,
      fun hall x hx he' => absurd ⟨hx, by simp [he']⟩ (h.unbound hnodes hall x)⟩

end SqlCe

/-- After a lowering, the calls with bound parameters are those that the conversion puts around
operands. -/
theorem Dialect.wraps_of_lower {d : Dialect} {config : Config} {ctx : Context} {s s' : Statement}
    (hd : d.edits = []) (hconvert : d.convert = SqlCe.dialect.convert)
    (hinlines : d.inlinesArguments config = true) (h : d.lower config ctx s = .ok s') :
    ∃ s₁, d.prepared config s = .ok s₁ ∧
      ∀ e, .expr e ∈ (Node.statement s').preorder → ∀ x, e.Binds x →
        SqlCe.Wraps (Node.statement s₁).preorder x e := by
  obtain ⟨s₂, hprepared, h₂⟩ := d.exists_prepared config ctx hd h
  refine ⟨_, hprepared, ?_⟩
  have hunbound := unbound_inlined hinlines s₂
  generalize d.inlined config s₂ = s₁ at h₂ hunbound
  have hyields := Transform.carries (O := .success Error) (t := d.conversion ctx)
    (C := (· ∈ (Node.statement s₁).preorder))
    (P := SqlCe.BindsWrapped (Node.statement s₁).preorder) rfl ?_
  · intro e he
    exact (hyields.onStatement s₁ s' h₂).carries (fun _ hn => hn) _ he e rfl
  · intro e e' haligned e'' he''
    rw [Dialect.conversion, hconvert] at he''
    obtain ⟨-, rfl⟩ := ((SqlCe.conversion_attempts ctx).expr e').eq_ok_iff.1 he''
    exact (SqlCe.converted ctx e').carries (fun e he => hunbound _ he e rfl) haligned

namespace Sample

/-- The parameter of `remainder`. -/
def dividend : Parameter where
  name := "p"
  value := .float 7.5
  dataType := .double

/-- Selects the remainder of a parameter by 2. -/
def remainder : Statement :=
  .select {
    id := ⟨1⟩
    columns := [{
      expr := .binary .modulo (.parameter dividend) (.int 2) Operator.modulo.precedence .double
        true }] }

/-- The remainder of the parameter as an integer. -/
def integerRemainder : Statement :=
  .select {
    id := ⟨1⟩
    columns := [{
      expr := .binary .modulo (.convert .int32 (.parameter dividend)) (.int 2)
        Operator.modulo.precedence .int32 true }] }

theorem lower_remainder : SqlCe.dialect.lower { inlineFunctionParameters := true } {} remainder =
    .ok integerRemainder := rfl

theorem wraps_of_lower_remainder :
    ∃ s₁, SqlCe.dialect.prepared { inlineFunctionParameters := true } remainder = .ok s₁ ∧
      ∀ e, .expr e ∈ (Node.statement integerRemainder).preorder → ∀ x, e.Binds x →
        SqlCe.Wraps (Node.statement s₁).preorder x e :=
  Dialect.wraps_of_lower rfl rfl rfl lower_remainder

theorem binds_lower_remainder :
    SqlCe.dialect.lower { inlineFunctionParameters := true } {} remainder = .ok integerRemainder ∧
      ∃ e, .expr e ∈ (Node.statement integerRemainder).preorder ∧ e.Binds dividend := by
  refine ⟨lower_remainder, .convert .int32 (.parameter dividend), ?_, rfl, by simp⟩
  exact List.mem_of_getElem? (i := 4) rfl

end Sample

end SqlTree
