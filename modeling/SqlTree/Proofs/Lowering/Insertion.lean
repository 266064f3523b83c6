import SqlTree.Proofs.Lowering.Arguments
import SqlTree.Proofs.Lowering.Conformance
import SqlTree.Proofs.SingleTable.Update

/-! # Bound parameters among inserted values

SQL Server Compact Edition takes no bound parameter as an inserted value. The pass that unbinds such
parameters comes before the conversion, and a conversion of a text to a time of day becomes the text
itself. If that text is a bound parameter, it is an inserted value after the lowering. There is no
other way for a bound parameter to become one.

Main definitions:

* `Statement.inserted`: the values and columns of an insertion.
* `SqlCe.Unwraps`: conversions to a time of day around a parameter.

Main statements:

* `SqlCe.form_eq_iff`: the expressions that become a parameter by the conversion.
* `SqlCe.exists_unwraps_inlined`: what is left by the passes that write parameters into the text.
* `SqlCe.mem_inserted_lower_iff`: the bound parameters among the inserted values after a lowering.
-/

namespace SqlTree

/-- The values that an insertion gives for columns and the columns that its query projects. -/
def Statement.inserted : Statement → List Expr
  | .insert _ items q => items.map (·.expr) ++ q.columns.map (·.expr)
  | _ => []

/-- The expression is a call of the conversion of the value to a time of day. -/
def SqlCe.IsTimeOf (value : Expr) (e : Expr) : Prop :=
  ∃ name t flags, e = .call name t [.typeName .time, value] flags ∧ name.toLower = "convert" ∧
    t ∈ [DataType.date, .dateTime, .time]

/-- The expression is the parameter `x`, or `x` is a text and the expression consists of conversions
to a time of day around it. -/
inductive SqlCe.Unwraps (x : Parameter) : Expr → Prop
  | parameter : Unwraps x (.parameter x)
  | time {value e : Expr} (he : IsTimeOf value e) (hx : x.dataType.isText = true)
      (hvalue : Unwraps x value) : Unwraps x e

/-- The expression is not the parameter itself, but one or more conversions around it. -/
def SqlCe.Conceals (x : Parameter) (e : Expr) : Prop := e ≠ .parameter x ∧ Unwraps x e

namespace SqlCe

variable {ctx : Context} {x : Parameter}

/-! The conversion. -/

/-- An expression that has no children and is no constant. -/
def Leaf (e : Expr) : Prop := (∃ x, e = .parameter x) ∨ ∃ t, e = .typeName t

theorem convertTemporal?_eq_some {target t : DataType} {value e : Expr} (he : Leaf e)
    (h : convertTemporal? target t value = some e) :
    target = .time ∧ value.dataType.isText = true ∧ value = e := by
  rcases he with ⟨x, rfl⟩ | ⟨t, rfl⟩
  all_goals
    unfold convertTemporal? at h
    grind

theorem convertTemporal?_of_isText (t : DataType) {value : Expr}
    (h : value.dataType.isText = true) : convertTemporal? .time t value = some value := by
  have htemporal : value.dataType.isTemporal = false := by
    cases ht : value.dataType <;> simp [ht, DataType.isText, DataType.isTemporal] at h ⊢
  simp [convertTemporal?, h, htemporal]

theorem convertCall_eq {name : String} {t : DataType} {target value e : Expr} {flags : CallFlags}
    (he : Leaf e) (h : convertCall name t target value flags = e) :
    t ∈ [DataType.date, .dateTime, .time] ∧ target = .typeName .time ∧
      value.dataType.isText = true ∧ value = e := by
  have hne : ∀ args, Expr.call name t args flags ≠ e := by
    rcases he with ⟨x, rfl⟩ | ⟨t, rfl⟩ <;> simp
  have htemporal : ∀ type, (convertTemporal? type t value).getD
      (.call name t [target, value] flags) = e →
        type = .time ∧ value.dataType.isText = true ∧ value = e := by
    intro type htype
    cases hvalue : convertTemporal? type t value with
    | none => exact absurd (by simpa [hvalue] using htype) (hne _)
    | some e' =>
      obtain rfl : e' = e := by simpa [hvalue] using htype
      exact convertTemporal?_eq_some he hvalue
  unfold convertCall at h
  dsimp only at h
  split at h <;> grind

/-- A leaf comes out of the conversion if it goes in, or if it is a text and its conversion to a
time of day goes in. -/
theorem form_eq_iff {e e' : Expr} (he' : Leaf e') :
    form ctx e = e' ↔ e = e' ∨ e'.dataType.isText = true ∧ IsTimeOf e' e := by
  constructor
  · intro h
    cases e with
    | binary op l r p t n =>
      have hconverted := @converted_binary ctx op l r p t n
      rw [← form, h] at hconverted
      rcases he' with ⟨x, rfl⟩ | ⟨t, rfl⟩ <;> cases hconverted
    | call name t args flags =>
      unfold form at h
      split at h
      · simp_all
      · rename_i heq
        cases heq
        split at h
        · rename_i hname
          obtain ⟨ht, rfl, htext, rfl⟩ := convertCall_eq he' h
          exact .inr ⟨htext, name, t, flags, rfl, hname, ht⟩
        · exact .inl h
      · exact .inl h
    | _ => exact .inl h
  · rintro (rfl | ⟨htext, name, t, flags, rfl, hname, ht⟩)
    · rcases he' with ⟨x, rfl⟩ | ⟨t, rfl⟩ <;> rfl
    · simp only [List.mem_cons, List.not_mem_nil, or_false] at ht
      rcases ht with rfl | rfl | rfl
      all_goals simp [form, hname, convertCall, convertTemporal?_of_isText _ htext]

/-! Chains of conversions. -/

theorem unwraps_parameter {p : Parameter} : Unwraps x (.parameter p) ↔ p = x := by
  constructor
  · rintro (_ | ⟨⟨_, _, _, he, _⟩, _, _⟩)
    · rfl
    · cases he
  · rintro rfl
    exact .parameter

theorem isTimeOf_call {name : String} {t : DataType} {args : List Expr} {flags : CallFlags}
    {value : Expr} : IsTimeOf value (.call name t args flags) ↔ args = [.typeName .time, value] ∧
      name.toLower = "convert" ∧ t ∈ [DataType.date, .dateTime, .time] := by
  constructor
  · rintro ⟨_, _, _, he, hname, ht⟩
    cases he
    exact ⟨rfl, hname, ht⟩
  · rintro ⟨rfl, hname, ht⟩
    exact ⟨name, t, flags, rfl, hname, ht⟩

theorem unwraps_call {name : String} {t : DataType} {args : List Expr} {flags : CallFlags} :
    Unwraps x (.call name t args flags) ↔ x.dataType.isText = true ∧ name.toLower = "convert" ∧
      t ∈ [DataType.date, .dateTime, .time] ∧
        ∃ value, args = [.typeName .time, value] ∧ Unwraps x value := by
  constructor
  · rintro (_ | ⟨he, hx, hvalue⟩)
    obtain ⟨rfl, hname, ht⟩ := isTimeOf_call.1 he
    exact ⟨hx, hname, ht, _, rfl, hvalue⟩
  · rintro ⟨hx, hname, ht, value, rfl, hvalue⟩
    exact .time (isTimeOf_call.2 ⟨rfl, hname, ht⟩) hx hvalue

/-- A chain is the parameter or a call. -/
theorem Unwraps.eq_or_call {e : Expr} (h : Unwraps x e) :
    e = .parameter x ∨ ∃ name t args flags, e = .call name t args flags := by
  cases h with
  | parameter => exact .inl rfl
  | time he =>
    obtain ⟨name, t, flags, rfl, -⟩ := he
    exact .inr ⟨name, t, _, flags, rfl⟩

theorem not_unwraps {e : Expr} (hparameter : ∀ p, e ≠ .parameter p)
    (hcall : ∀ name t args flags, e ≠ .call name t args flags) : ¬ Unwraps x e := by
  intro h
  rcases h.eq_or_call with rfl | ⟨_, _, _, _, rfl⟩
  · exact hparameter x rfl
  · exact hcall _ _ _ _ rfl

/-- The parameter is one of the nodes of a chain. -/
theorem Unwraps.meets {P : Node → Prop} {e : Expr} (h : Unwraps x e)
    (he : (Node.expr e).All P) : P (.expr (.parameter x)) := by
  induction h with
  | parameter => exact he.self
  | time htime _ _ ih =>
    obtain ⟨name, t, flags, rfl, -⟩ := htime
    exact ih (he.arg _ (by simp))

/-- Where no call has a bound parameter, there is no chain around one. -/
theorem Unwraps.eq_of_unbound {e : Expr} (h : Unwraps x e) (hx : x.isBound = true)
    (he : e.EachExpr Expr.Unbound) : e = .parameter x := by
  induction h with
  | parameter => rfl
  | time htime _ _ ih =>
    obtain ⟨name, t, flags, rfl, -⟩ := htime
    obtain ⟨hself, hargs⟩ := Expr.eachExpr_call.1 he
    have hvalue := ih (hargs _ (by simp))
    exact absurd ⟨hx, by simp [hvalue]⟩ (hself x)

theorem unwraps_unbind {e : Expr} (hx : x.isBound = true) :
    Unwraps x e.unbind ↔ Conceals x e := by
  cases e with
  | parameter p =>
    have hne : p.unbind ≠ x := by
      rintro rfl
      cases hx
    simp [Expr.unbind, Conceals, unwraps_parameter, hne]
  | _ => simp [Expr.unbind, Conceals]

end SqlCe

/-! Inserted values in a pass. -/

theorem exists_mem_iff_of_forall₂ {α β : Type} {R : α → β → Prop} {Q : α → Prop} {Q' : β → Prop}
    {xs : List α} {ys : List β} (h : List.Forall₂ R xs ys)
    (hR : ∀ x y, R x y → (Q' y ↔ Q x)) : (∃ y ∈ ys, Q' y) ↔ ∃ x ∈ xs, Q x := by
  induction h with
  | nil => simp
  | cons hxy _ ih => simp [hR _ _ hxy, ih]

/-- A column of the second query meets `Q'` exactly if one of the first meets `Q`. -/
def Query.Projects (Q Q' : Expr → Prop) (q q' : Query) : Prop :=
  (∃ c ∈ q'.columns, Q' c.expr) ↔ ∃ c ∈ q.columns, Q c.expr

section Inserted

variable {Q Q' : Expr → Prop} {RE : Expr → Expr → Prop} {RS : Source → Source → Prop}

theorem Query.Aligned.projects (hE : ∀ e e', RE e e' → (Q' e' ↔ Q e)) {q q' : Query}
    (h : q.Aligned RE RS q') : q.Projects Q Q' q' :=
  exists_mem_iff_of_forall₂ h.columns fun _ _ hc => hE _ _ hc.1

theorem Query.Projects.append {q q' q'' : Query} (h : q.Projects Q Q' q') {cs : List Column}
    (hcolumns : q''.columns = q'.columns ++ cs) (hcs : ∀ c ∈ cs, ¬ Q' c.expr) :
    q.Projects Q Q' q'' := by
  unfold Query.Projects at h ⊢
  rw [← h, hcolumns]
  grind

theorem Statement.Aligned.exists_inserted (hE : ∀ e e', RE e e' → (Q' e' ↔ Q e)) {s s' : Statement}
    (h : s.Aligned RE (Query.Projects Q Q') RS s') :
    (∃ e ∈ s'.inserted, Q' e) ↔ ∃ e ∈ s.inserted, Q e := by
  cases h with
  | @insert into items items' q q' hitems hq =>
    have hitems : (∃ i ∈ items', Q' i.expr) ↔ ∃ i ∈ items, Q i.expr :=
      exists_mem_iff_of_forall₂ hitems fun _ _ hi => hE _ _ hi.expr
    have hcolumns : (∃ c ∈ q'.columns, Q' c.expr) ↔ ∃ c ∈ q.columns, Q c.expr := hq
    simp only [inserted, List.mem_append, List.mem_map, or_and_right, exists_or,
      exists_exists_and_eq_and]
    rw [hitems, hcolumns]
  | _ => simp [inserted]

end Inserted

theorem Statement.all_inserted {P : Node → Prop} {s : Statement} (h : (Node.statement s).All P) :
    ∀ e ∈ s.inserted, (Node.expr e).All P := by
  cases s with
  | insert into items q =>
    refine List.forall_mem_append.2 ⟨List.forall_mem_map.2 fun i hi => ?_, ?_⟩
    · have hitem : (Node.setItem i).All P := h.child (by simp [Node.children, hi])
      exact hitem.child (by simp [Node.children])
    · have hq : (Node.query q).All P := h.child (by simp [Node.children])
      exact List.forall_mem_map.2 hq.clauses.columns
  | _ => simp [inserted]

namespace SqlCe

variable {x : Parameter}

/-! The passes before the parameters are written into the text. -/

/-- The two expressions are alike as far as conversions around the parameter go. -/
structure Similar (x : Parameter) (e e' : Expr) : Prop where
  parameter : e' = .parameter x ↔ e = .parameter x
  typeName : e' = .typeName .time ↔ e = .typeName .time
  unwraps : Unwraps x e' ↔ Unwraps x e

theorem Similar.conceals {e e' : Expr} (h : Similar x e e') : Conceals x e' ↔ Conceals x e :=
  and_congr h.parameter.not h.unwraps

/-- Arguments of a conversion to a time of day stay such arguments. -/
theorem exists_value_iff {R : Expr → Expr → Prop} {Q Q' : Expr → Prop} {args args' : List Expr}
    (h : List.Forall₂ R args args')
    (htype : ∀ e e', R e e' → (e' = .typeName .time ↔ e = .typeName .time))
    (hQ : ∀ e e', R e e' → (Q' e' ↔ Q e)) :
    (∃ value, args' = [.typeName .time, value] ∧ Q' value) ↔
      ∃ value, args = [.typeName .time, value] ∧ Q value := by
  constructor
  · rintro ⟨value', rfl, hvalue'⟩
    obtain ⟨target, values, htarget, hvalues, rfl⟩ := List.forall₂_cons_right_iff.1 h
    obtain ⟨value, _, hvalue, hnil, rfl⟩ := List.forall₂_cons_right_iff.1 hvalues
    cases hnil
    cases (htype _ _ htarget).1 rfl
    exact ⟨value, rfl, (hQ _ _ hvalue).1 hvalue'⟩
  · rintro ⟨value, rfl, hvalue⟩
    obtain ⟨target', values', htarget, hvalues, rfl⟩ := List.forall₂_cons_left_iff.1 h
    obtain ⟨value', _, hvalue', hnil, rfl⟩ := List.forall₂_cons_left_iff.1 hvalues
    cases hnil
    cases (htype _ _ htarget).2 rfl
    exact ⟨value', rfl, (hQ _ _ hvalue').2 hvalue⟩

theorem similar_of_aligned {RQ : Query → Query → Prop} {e e' : Expr}
    (h : e.Aligned (Similar x) RQ e') : Similar x e e' := by
  cases h with
  | call name t flags hargs =>
    refine ⟨by simp, by simp, ?_⟩
    have hvalue := exists_value_iff hargs (fun _ _ h => h.typeName) fun _ _ h => h.unwraps
    rw [unwraps_call, unwraps_call, hvalue]
  | parameter p => exact ⟨.rfl, .rfl, .rfl⟩
  | _ => constructor <;> simp [not_unwraps]

/-- A column that an expression to order by or a constant makes conceals no parameter. -/
theorem not_conceals_of_reference {e : Expr} (h : (Node.expr e).isColumnReference = true) :
    ¬ Conceals x e := by
  rintro ⟨-, hunwraps⟩
  rcases hunwraps.eq_or_call with rfl | ⟨_, _, _, _, rfl⟩ <;> cases h

theorem similar_correctPagination :
    Transform.correctPagination.Yields (.success Error) (Similar x)
      (Query.Projects (Conceals x) (Conceals x)) (fun _ _ => True) where
  expr h := (Outcome.success Error).pure (similar_of_aligned h)
  query {q p} h := by
    refine (Outcome.success Error).mono (Query.holds_correctPagination h) fun q' hq' => ?_
    cases hq' with
    | rebuilt _ h => exact h.projects fun _ _ he => he.conceals
    | byColumns _ _ h =>
      refine (h.projects fun _ _ he => he.conceals).append rfl (List.forall_mem_map.2 ?_)
      exact fun e he => not_conceals_of_reference (q.reference_of_mem_orderKeys e he)
  source _ := trivial

theorem similar_fixEmptyProjection :
    Transform.fixEmptyProjection.Yields .result (Similar x)
      (Query.Projects (Conceals x) (Conceals x)) (fun _ _ => True) where
  expr h := similar_of_aligned h
  query {q p} h := by
    have hq := Query.holds_fixEmptyProjection h
    change q.Projects _ _ (q.fixEmptyProjection p)
    generalize q.fixEmptyProjection p = q' at hq
    cases hq with
    | rebuilt _ h => exact h.projects fun _ _ he => he.conceals
    | constant _ h =>
      refine (h.projects fun _ _ he => he.conceals).append rfl (List.forall_mem_singleton.2 ?_)
      exact fun h => not_unwraps (by simp [Expr.int]) (by simp [Expr.int]) h.2
  source _ := trivial

theorem inserted_toSingleTable (s : Statement) : s.toSingleTable.inserted = s.inserted := by
  cases s with
  | delete target q =>
    rw [Statement.toSingleTable_delete]
    cases q.target? target <;> rfl
  | update target items q =>
    rw [Statement.toSingleTable_update]
    cases q.target? target <;> rfl
  | _ => rfl

/-- Up to then, inserted values conceal what they did. -/
theorem exists_conceals_iff {s s₁ : Statement} (h : s.correctPagination = .ok s₁) :
    (∃ e ∈ s₁.toSingleTable.fixEmptyProjection.inserted, Conceals x e) ↔
      ∃ e ∈ s.inserted, Conceals x e := by
  have hfixed : Statement.Aligned _ _ _ s₁.toSingleTable s₁.toSingleTable.fixEmptyProjection :=
    (similar_fixEmptyProjection (x := x)).onStatement s₁.toSingleTable
  have hordered := (similar_correctPagination (x := x)).onStatement s s₁ h
  rw [hfixed.exists_inserted fun _ _ he => he.conceals, inserted_toSingleTable,
    hordered.exists_inserted fun _ _ he => he.conceals]

/-! Parameters in the text. -/

theorem inserted_debindInsertParameters (s : Statement) :
    s.debindInsertParameters.inserted = s.inserted.map Expr.unbind := by
  cases s with
  | insert into items q =>
    simp [Statement.debindInsertParameters, Statement.inserted, Query.unbindColumns,
      Function.comp_def]
  | _ => rfl

/-- Arguments of calls are not inserted values. -/
theorem mem_inserted_inlineFunctionParameters (s : Statement) :
    .parameter x ∈ s.inlineFunctionParameters.inserted ↔ .parameter x ∈ s.inserted := by
  have hyields : (Transform.ofFun Expr.unbindArgs).Yields .result
      (fun e e' => e' = .parameter x ↔ e = .parameter x)
      (Query.Projects (· = .parameter x) (· = .parameter x)) (fun _ _ => True) := by
    refine ⟨fun {e e'} h => ?_, fun h => ?_, fun _ => trivial⟩
    · change e'.unbindArgs = .parameter x ↔ _
      cases h <;> simp [Expr.unbindArgs]
    · exact Query.Aligned.projects (fun _ _ he => he) h.rebuild
  have haligned : Statement.Aligned _ _ _ s s.inlineFunctionParameters := hyields.onStatement s
  simpa using haligned.exists_inserted fun _ _ he => he

/-- The passes that write parameters into the text leave those that are concealed, unless all
parameters or all arguments of calls are to be in the text. -/
theorem exists_unwraps_inlined (config : Config) (s : Statement) (hx : x.isBound = true) :
    (∃ e ∈ (dialect.inlined config s).inserted, Unwraps x e) ↔
      config.inlineFunctionParameters = false ∧ config.inlineParameters = false ∧
        ∃ e ∈ s.inserted, Conceals x e := by
  have hdebound : .parameter x ∉ s.debindInsertParameters.inserted := by
    rw [inserted_debindInsertParameters, List.mem_map]
    rintro ⟨e, -, he⟩
    cases e with
    | parameter p =>
      cases he
      cases hx
    | _ => cases he
  have hinlined : dialect.inlined config s =
      let s := s.debindInsertParameters
      let s := if config.inlineFunctionParameters then s.inlineFunctionParameters else s
      if config.inlineParameters then s.inlineAllParameters else s := by
    have hinsert : dialect.capabilities.parametersInInsert = false := rfl
    have hfunctions : dialect.capabilities.parametersInFunctions = true := rfl
    simp [Dialect.inlined, Dialect.inlinesArguments, hinsert, hfunctions]
  rw [hinlined]
  cases hall : config.inlineParameters with
  | true =>
    refine iff_of_false ?_ (by simp)
    rintro ⟨e, he, hunwraps⟩
    have hunbound := Statement.all_inserted (Statement.unbound_inlineAllParameters _) e he
    have hfalse : x.isBound = false := hunwraps.meets hunbound
    rw [hx] at hfalse
    cases hfalse
  | false =>
    cases hargs : config.inlineFunctionParameters with
    | true =>
      refine iff_of_false ?_ (by simp)
      rintro ⟨e, he, hunwraps⟩
      have hunbound := Statement.all_inserted (Statement.unbound_inlineFunctionParameters _) e he
      cases hunwraps.eq_of_unbound hx hunbound
      exact hdebound ((mem_inserted_inlineFunctionParameters _).1 he)
    | false => simp [inserted_debindInsertParameters, unwraps_unbind hx]

/-! The conversion. -/

/-- The second expression is what the conversion makes of the first one, as far as conversions
around the parameter go. -/
structure Unwrapped (x : Parameter) (e e' : Expr) : Prop where
  parameter : e' = .parameter x ↔ Unwraps x e
  typeName : e' = .typeName .time ↔ e = .typeName .time

theorem unwrapped_of_aligned {RQ : Query → Query → Prop} {e e₁ : Expr}
    (h : e.Aligned (Unwrapped x) RQ e₁) (ctx : Context) : Unwrapped x e (form ctx e₁) := by
  constructor
  · rw [form_eq_iff (.inl ⟨x, rfl⟩)]
    cases h with
    | call name t flags hargs =>
      have hvalue := exists_value_iff hargs (fun _ _ h => h.typeName) fun _ _ h => h.parameter
      rw [unwraps_call, ← hvalue, isTimeOf_call]
      grind [Expr.dataType]
    | parameter p => simp [unwraps_parameter, IsTimeOf]
    | _ => simp [IsTimeOf, not_unwraps]
  · have htime : (Expr.typeName .time).dataType.isText = false := rfl
    rw [form_eq_iff (.inr ⟨.time, rfl⟩)]
    cases h <;> simp [htime]

theorem mem_inserted_convert {ctx : Context} {s s' : Statement}
    (h : dialect.convertStatement ctx s = .ok s') :
    .parameter x ∈ s'.inserted ↔ ∃ e ∈ s.inserted, Unwraps x e := by
  have hyields : (dialect.conversion ctx).Yields (.success Error) (Unwrapped x)
      (Query.Projects (Unwraps x) (· = .parameter x)) (fun _ _ => True) := by
    refine ⟨fun {e e₁} h e₂ he₂ => ?_, fun h => ?_, fun _ => trivial⟩
    · obtain ⟨-, rfl⟩ := ((conversion_attempts ctx).expr e₁).eq_ok_iff.1 he₂
      exact unwrapped_of_aligned h ctx
    · exact (Outcome.success Error).mono h.rebuild
        fun q' hq' => hq'.projects fun _ _ he => he.parameter
  simpa using (hyields.onStatement s s' h).exists_inserted fun _ _ he => he.parameter

/-- A bound parameter is an inserted value after a lowering exactly if conversions to a time of day
conceal it in an inserted value before, and neither arguments of calls nor all parameters are to be
in the text. -/
theorem mem_inserted_lower_iff {config : Config} {ctx : Context} {s s' : Statement}
    (h : dialect.lower config ctx s = .ok s') (hx : x.isBound = true) :
    .parameter x ∈ s'.inserted ↔ config.inlineFunctionParameters = false ∧
      config.inlineParameters = false ∧ ∃ e ∈ s.inserted, Conceals x e := by
  obtain ⟨s₁, s₂, h₁, h₂, h₃⟩ := dialect.exists_of_lower config ctx rfl h
  cases h₂
  rw [mem_inserted_convert h₃, exists_unwraps_inlined config _ hx]
  simp only [Dialect.single]
  rw [← exists_conceals_iff h₁]
  rfl

end SqlCe

namespace Sample

/-- The parameter of the insertions. -/
def beginning : Parameter where
  name := "p"
  value := .string "08:30"
  dataType := .nVarChar

/-- Inserts a row with the value `e` for its only column. -/
def addShift (e : Expr) : Statement :=
  .insert { name := "shifts" } [⟨"begins", e⟩] { id := ⟨1⟩ }

/-- The time of day of the parameter. -/
def timeOfBeginning : Expr := .call "Convert" .dateTime [.typeName .time, .parameter beginning] {}

theorem mem_inserted_lower_addShift :
    ∃ s', SqlCe.dialect.lower {} {} (addShift (.parameter beginning)) = .ok s' ∧
      .parameter beginning ∉ s'.inserted := by
  have hlower : SqlCe.dialect.lower {} {} (addShift (.parameter beginning)) =
      .ok (addShift (.parameter beginning.unbind)) := rfl
  refine ⟨_, hlower, ?_⟩
  rw [SqlCe.mem_inserted_lower_iff hlower rfl]
  simp [addShift, Statement.inserted, SqlCe.Conceals]

theorem bound_lower_addShift :
    SqlCe.dialect.lower {} {} (addShift timeOfBeginning) =
        .ok (addShift (.parameter beginning)) ∧
      .parameter beginning ∈ (addShift (.parameter beginning)).inserted ∧
        beginning.isBound = true := by
  have hname : "Convert".toLower = "convert" := by decide +kernel
  have hconvert : SqlCe.form {} timeOfBeginning = .parameter beginning :=
    (SqlCe.form_eq_iff (.inl ⟨_, rfl⟩)).2
      (.inr ⟨rfl, SqlCe.isTimeOf_call.2 ⟨rfl, hname, by simp⟩⟩)
  have hlower : SqlCe.dialect.lower {} {} (addShift timeOfBeginning) =
      .ok (addShift (SqlCe.form {} timeOfBeginning)) := rfl
  refine ⟨?_, List.mem_singleton_self _, rfl⟩
  rw [hlower, hconvert]

end Sample

end SqlTree
