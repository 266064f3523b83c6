import SqlTree.Proofs.Lowering.NormalForm
import SqlTree.Proofs.Resolution
import SqlTree.Proofs.Settled

/-! # The conversion of converted expressions

The conversion for SQL Server Compact Edition finds nothing to do in what it made, apart from floats
that become unsigned integers: they are rounded down once more each time.

Main definitions:

* `SqlCe.Rounds`: a float becomes an unsigned integer.

Main statements:

* `SqlCe.mapUp_form_eq_self_iff`: an expression comes back from the conversion only if the
  conversion acts on nothing in it.
* `SqlCe.convertUp_convertUp_iff`: a converted expression comes back exactly if no float becomes an
  unsigned integer in it.
-/

namespace SqlTree

namespace SqlCe

variable {ctx : Context}

/-- The expression converts a float to an unsigned integer. -/
inductive Rounds : Expr → Prop
  | mk {name : String} {target value : Expr} {flags : CallFlags}
      (hname : name.toLower = "convert") (hvalue : value.dataType.isFloat = true) :
      Rounds (.call name .uint64 [target, value] flags)

/-! Calls that come back. -/

theorem isText_of_convertTemporal? {target t : DataType} {value : Expr}
    (h : convertTemporal? target t value = some value) : value.dataType.isText = true := by
  have hraw : ∀ format, Expr.raw format Precedence.primary [value] t ≠ value := by
    intro format heq
    have hsize := congrArg sizeOf heq
    simp at hsize
    omega
  unfold convertTemporal? at h
  split at h
  · split at h
    · exact absurd (Option.some.inj h) (hraw _)
    · split at h
      · assumption
      · exact absurd (Option.some.inj h) (hraw _)
  · split at h
    · exact absurd (Option.some.inj h) (hraw _)
    · cases h
  · cases h

/-- Only a text comes out of its own conversion, which is one to a date or a time of day. -/
theorem isText_of_form {name : String} {t : DataType} {target value : Expr} {flags : CallFlags}
    (h : form ctx (.call name t [target, value] flags) = value) :
    value.dataType.isText = true ∧ t ∈ [DataType.date, .dateTime, .time] := by
  have hcall : ∀ value', sizeOf value ≤ sizeOf value' →
      Expr.call name t [target, value'] flags ≠ value := by
    intro value' hle heq
    have hsize := congrArg sizeOf heq
    simp at hsize
    omega
  have htemporal : ∀ type, (convertTemporal? type t value).getD
      (.call name t [target, value] flags) = value → value.dataType.isText = true := by
    intro type htype
    cases hvalue : convertTemporal? type t value with
    | none => exact absurd (by simpa [hvalue] using htype) (hcall value (Nat.le_refl _))
    | some e =>
      obtain rfl : e = value := by simpa [hvalue] using htype
      exact isText_of_convertTemporal? hvalue
  have hfloor := hcall (.function "Floor" value.dataType [value]) (by simp [Expr.function]; omega)
  have hself := hcall value (Nat.le_refl _)
  by_cases hname : name.toLower = "convert"
  · simp only [form, hname, if_true] at h
    unfold convertCall at h
    dsimp only at h
    split at h
    · split at h
      · exact absurd h hfloor
      · exact absurd h hself
    -- The three types with a date or a time of day have the same conversions.
    iterate 3
      split at h
      · exact ⟨htemporal _ h, by simp⟩
      · exact absurd h hself
    · exact absurd h hself
  · simp only [form, hname, if_false] at h
    exact absurd h hself

/-- A call that stays one of the same function has its arguments, the last one perhaps rounded
down. -/
theorem args_of_form {name : String} {t : DataType} {args args' : List Expr} {flags : CallFlags}
    (h : form ctx (.call name t args flags) = .call name t args' flags) :
    args' = args ∨ ∃ target value, args = [target, value] ∧
      args' = [target, .function "Floor" value.dataType [value]] := by
  have hconverted := converted ctx (.call name t args flags)
  rw [h] at hconverted
  generalize hargs : Expr.call name t args' flags = e' at hconverted h
  cases hconverted with
  | unchanged => exact .inl (Expr.call.inj hargs).2.2.1
  | floor => exact .inr ⟨_, _, rfl, (Expr.call.inj hargs).2.2.1⟩
  | text => cases hargs
  | value =>
    obtain ⟨htext, ht⟩ := isText_of_form h
    subst hargs
    simp only [List.mem_cons, List.not_mem_nil, or_false] at ht
    rcases ht with rfl | rfl | rfl
    all_goals cases htext

/-- An operation that stays one has its operands, the left one perhaps as an integer. -/
theorem operands_of_form {op : Operator} {l r l' r' : Expr} {p : Int} {t : DataType} {n : Bool}
    (h : form ctx (.binary op l r p t n) = .binary op l' r' p t n) :
    l' = l ∧ r' = r ∨ l.dataType.isInteger = false ∧ l' = .convert .int32 l := by
  have hconverted := converted ctx (.binary op l r p t n)
  rw [h] at hconverted
  generalize he' : Expr.binary op l' r' p t n = e' at hconverted
  cases hconverted with
  | unchanged => exact .inl ⟨(Expr.binary.inj he').2.1, (Expr.binary.inj he').2.2.1⟩
  | modulo hl => exact .inr ⟨hl, (Expr.binary.inj he').2.1⟩
  | shift => simp [shift] at he'
  | null => simp [Expr.null] at he'

/-! Expressions that come back. -/

/-- Nothing is its own conversion rounded down: the operand would have that property again. -/
theorem ne_floor_mapUp (ctx : Context) (t : DataType) (flags : CallFlags) (e : Expr) :
    e ≠ .call "Floor" t [e.mapUp (form ctx)] flags := by
  induction hn : sizeOf e using Nat.strongRecOn generalizing e with
  | ind n ih =>
    subst hn
    intro he
    refine ih (sizeOf (e.mapUp (form ctx))) ?_ (e.mapUp (form ctx)) rfl ?_
    · have hsize := congrArg sizeOf he
      simp at hsize
      omega
    · calc e.mapUp (form ctx)
        _ = (Expr.call "Floor" t [e.mapUp (form ctx)] flags).mapUp (form ctx) := by rw [← he]
        _ = .call "Floor" t [(e.mapUp (form ctx)).mapUp (form ctx)] flags := by
          simp [form]

/-- The conversion acts on nothing in a tree that comes back from it: what it does to a node is not
undone above. -/
theorem fixed_closed (ctx : Context) :
    Tree.Closed
      (fun e => e.mapUp (form ctx) = e → e.EachExpr fun e => form ctx e = e)
      (fun q => q.mapUp (form ctx) = q →
        (Node.query q).All (Node.IfExpr fun e => form ctx e = e))
      (fun s => s.mapUp (form ctx) = s →
        (Node.source s).All (Node.IfExpr fun e => form ctx e = e)) where
  value l t _ := (Expr.eachExpr_iff _).2 ⟨rfl, by simp [Node.children]⟩
  parameter p _ := (Expr.eachExpr_iff _).2 ⟨rfl, by simp [Node.children]⟩
  field f _ := (Expr.eachExpr_iff _).2 ⟨rfl, by simp [Node.children]⟩
  column c _ := (Expr.eachExpr_iff _).2 ⟨rfl, by simp [Node.children]⟩
  call name t args flags ih h := by
    rw [Expr.mapUp_call] at h
    rcases args_of_form h with hargs | ⟨target, value, hargs, hfloor⟩
    · rw [← hargs] at h
      exact Expr.eachExpr_call.2
        ⟨h, fun e he => ih e he (forall_mem_of_map_eq_self hargs.symm e he)⟩
    · rw [hfloor, List.map_cons, List.map_cons, List.map_nil] at hargs
      obtain ⟨-, hvalue⟩ := List.cons_eq_cons.1 hargs
      obtain ⟨hvalue, -⟩ := List.cons_eq_cons.1 hvalue
      -- The value is its own conversion rounded down.
      refine absurd ?_ (ne_floor_mapUp ctx value.dataType
        { nullable := [value].any Expr.canBeNull } (.function "Floor" value.dataType [value]))
      rw [hvalue]
      rfl
  binary op l r p t n hl hr h := by
    rw [Expr.mapUp_binary] at h
    rcases operands_of_form h with ⟨hl', hr'⟩ | ⟨hinteger, hleft⟩
    · rw [← hl', ← hr'] at h
      exact Expr.eachExpr_binary.2 ⟨h, hl hl'.symm, hr hr'.symm⟩
    · -- The operand that is no integer would be the conversion of one that is.
      rw [hleft] at hinteger
      simp [Expr.convert, Expr.function, form, convertCall, Expr.dataType,
        DataType.isInteger] at hinteger
  raw format p args t ih h := by
    rw [Expr.mapUp_raw] at h
    have hargs := (Expr.raw.inj h).2.2.1
    exact Expr.eachExpr_raw.2 ⟨rfl, fun e he => ih e he (forall_mem_of_map_eq_self hargs e he)⟩
  typeName t _ := (Expr.eachExpr_iff _).2 ⟨rfl, by simp [Node.children]⟩
  subquery q ih h :=
    (Expr.eachExpr_iff _).2 ⟨rfl, by simpa [Node.children] using ih (Expr.subquery.inj h)⟩
  existsRow q ih h :=
    (Expr.eachExpr_iff _).2 ⟨rfl, by simpa [Node.children] using ih (Expr.existsRow.inj h)⟩
  query q ih h := (Node.all_query (Node.IfExpr.ofTrees _) q).2
    ⟨nofun, ih.mp (Query.each_of_mapUp_eq_self h)⟩
  source s ih h := (Node.all_source (Node.IfExpr.ofTrees _) s).2
    (ih.mp (Source.each_of_mapUp_eq_self h))

/-- An expression comes back from the conversion exactly if the conversion acts on nothing in it. -/
theorem mapUp_form_eq_self_iff {e : Expr} :
    e.mapUp (form ctx) = e ↔ e.EachExpr fun e => form ctx e = e :=
  ⟨(fixed_closed ctx).onExpr e, fun h => congrArg Id.run
    ((Transform.settled_closed _).onExpr e fun n hn => Transform.settles_ofFun.2 (h n hn))⟩

/-! Converted expressions. -/

/-- A float that becomes an unsigned integer is rounded down, whether it was or not. -/
theorem Rounds.form_ne_self {e : Expr} (h : Rounds e) : form ctx e ≠ e := by
  obtain ⟨hname, hvalue⟩ := h
  intro heq
  simp only [form, hname, convertCall, hvalue, if_true] at heq
  have hsize := congrArg sizeOf heq
  simp [Expr.function] at hsize
  omega

/-- The conversion does not act on the expression, or it rounds a float down, and it goes on. -/
abbrev Stable (ctx : Context) (e : Expr) : Prop :=
  (form ctx e = e ∨ Rounds e) ∧ overflows ctx e = false

theorem stable_call {name : String} {t : DataType} {args : List Expr} {flags : CallFlags}
    (h : ∀ e ∈ args, e.EachExpr (Stable ctx))
    (hcall : t ∉ [DataType.date, .dateTime, .time] ∨ args.length ≠ 2) :
    (Expr.call name t args flags).EachExpr (Stable ctx) := by
  refine Expr.eachExpr_call.2 ⟨⟨?_, rfl⟩, h⟩
  unfold form
  split
  · simp_all
  · rename_i heq
    cases heq
    split
    · unfold convertCall
      dsimp only
      split
      · split
        · exact .inr (.mk ‹_› ‹_›)
        · exact .inl rfl
      all_goals simp_all
    · exact .inl rfl
  · exact .inl rfl

theorem stable_of_children {e : Expr} (h : form ctx e = e) (hself : overflows ctx e = false)
    (hchildren : ∀ c ∈ (Node.expr e).children, c.All (Node.IfExpr (Stable ctx))) :
    e.EachExpr (Stable ctx) :=
  (Expr.eachExpr_iff e).2 ⟨⟨.inl h, hself⟩, hchildren⟩

/-- What the conversion makes of an expression whose children are converted. -/
theorem stable_form {e : Expr} (hself : overflows ctx e = false)
    (h : ∀ c ∈ (Node.expr e).children, c.All (Node.IfExpr (Stable ctx))) :
    (form ctx e).EachExpr (Stable ctx) := by
  have hconverted := converted ctx e
  generalize he' : form ctx e = e' at hconverted
  cases hconverted with
  | unchanged => exact stable_of_children he' hself h
  | @modulo l r p t n =>
    have hl : l.EachExpr (Stable ctx) := h _ (by simp [Node.children])
    have hr : r.EachExpr (Stable ctx) := h _ (by simp [Node.children])
    have htarget : (Expr.typeName .int32).EachExpr (Stable ctx) :=
      stable_of_children rfl rfl (by simp [Node.children])
    have hconvert : (Expr.convert .int32 l).EachExpr (Stable ctx) :=
      stable_call (by simp [htarget, hl]) (.inl (by decide))
    exact Expr.eachExpr_binary.2 ⟨⟨.inl rfl, rfl⟩, hconvert, hr⟩
  | @shift op l r date p t n hop hdate _ unit count nullable =>
    have hdate : date.EachExpr (Stable ctx) := by
      rcases hdate with rfl | rfl
      all_goals exact h _ (by simp [Node.children])
    have hunit : (Expr.raw unit.name Precedence.primary [] .nVarChar).EachExpr (Stable ctx) :=
      stable_of_children rfl rfl (by simp [Node.children])
    have hcount : (Expr.long count).EachExpr (Stable ctx) :=
      stable_of_children rfl rfl (by simp [Node.children, Expr.long])
    exact stable_call (by simp [hunit, hcount, hdate]) (.inr (by simp))
  | null t' => exact stable_of_children rfl rfl (by simp [Node.children, Expr.null])
  | @floor name target value flags =>
    have htarget : target.EachExpr (Stable ctx) := h _ (by simp [Node.children])
    have hvalue : value.EachExpr (Stable ctx) := h _ (by simp [Node.children])
    have hfloor : (Expr.function "Floor" value.dataType [value]).EachExpr (Stable ctx) :=
      stable_call (by simp [hvalue]) (.inr (by simp))
    exact stable_call (by simp [htarget, hfloor]) (.inl (by decide))
  | text format => exact stable_of_children rfl rfl fun c hc => h _ (by simp_all [Node.children])
  | value => exact h _ (by simp [Node.children])

/-- The conversion goes on everywhere in a tree of expressions that it does not act on, if it goes
on at each of them as it stands. -/
theorem convertible_of_fixed {e : Expr} (hfixed : e.EachExpr fun e => form ctx e = e)
    (h : e.EachExpr fun e => overflows ctx e = false) : (Node.expr e).Convertible ctx := by
  rintro n hn x rfl
  cases x with
  | binary op l r p t nullable =>
    obtain ⟨-, hl, hr⟩ := Expr.eachExpr_binary.1 (Node.All.subtrees _ hfixed _ hn)
    rw [Expr.mapBelow, mapUp_form_eq_self_iff.2 hl, mapUp_form_eq_self_iff.2 hr]
    exact h _ hn _ rfl
  | _ => rfl

/-- What comes out of the conversion of an expression, children first, comes back from a second
conversion exactly if no float becomes an unsigned integer in it. The conversion succeeds unless
there is an operation where it cannot go on. -/
theorem convertUp_convertUp_iff (ctx : Context) (e : Expr) :
    (∀ e', dialect.convertUp ctx e = .ok e' → (dialect.convertUp ctx e' = .ok e' ↔
      ∀ x, .expr x ∈ (Node.expr e').preorder → ¬ Rounds x)) ∧
    ((∃ e', dialect.convertUp ctx e = .ok e') ↔ (Node.expr e).Convertible ctx) ∧
    (¬ (Node.expr e).Convertible ctx → dialect.convertUp ctx e = .error .overflow) := by
  have hP := Node.IfExpr.ofTrees (Stable ctx)
  have hyields := Transform.establishes (O := .success Error) (t := dialect.conversion ctx) hP
    (fun e he e' he' => by
      obtain ⟨hself, rfl⟩ := ((conversion_attempts ctx).expr e).eq_ok_iff.1 he'
      exact stable_form hself he) fun {q p} h => by
      refine (Outcome.success Error).mono h.rebuild fun q' hq' => ?_
      exact (Node.all_query hP q').2 ⟨nofun, hq'.each_all⟩
  have hattempts := convertUp_attempts ctx e
  refine ⟨fun e' he' => ?_, by simp [hattempts.eq_ok_iff], hattempts.fails⟩
  have hstable : e'.EachExpr (Stable ctx) := hyields.onExpr e e' he'
  rw [(convertUp_attempts ctx e').eq_ok_iff, eq_comm, mapUp_form_eq_self_iff]
  constructor
  · rintro ⟨-, hfixed⟩ x hx hrounds
    exact hrounds.form_ne_self (hfixed _ hx x rfl)
  · intro hrounds
    have hfixed : e'.EachExpr fun e => form ctx e = e := by
      rintro _ hx x rfl
      exact (hstable _ hx x rfl).1.resolve_right (hrounds x hx)
    refine ⟨convertible_of_fixed hfixed ?_, hfixed⟩
    rintro _ hx x rfl
    exact (hstable _ hx x rfl).2

end SqlCe

namespace Sample

/-- The price of an article. -/
def price : Expr :=
  .field { source := ⟨1⟩, name := "price", dataType := .double, nullable := false }

/-- The price as an unsigned integer, converted for SQL Server Compact Edition. -/
def wholePrice : Expr := .convert .uint64 (.function "Floor" .double [price])

theorem convertUp_wholePrice :
    SqlCe.dialect.convertUp {} (.convert .uint64 price) = .ok wholePrice ∧
      SqlCe.dialect.convertUp {} wholePrice ≠ .ok wholePrice := by
  have hname : "Convert".toLower = "convert" := by decide +kernel
  have hconvertible : (Node.expr (.convert .uint64 price)).Convertible {} := by
    refine Expr.eachExpr_call.2 ⟨rfl, ?_⟩
    simp [price, Expr.eachExpr_iff, Node.children, Expr.mapBelow, SqlCe.overflows]
  rw [(SqlCe.convertUp_attempts _ _).eq_ok_iff, ne_eq, (SqlCe.convertUp_attempts _ _).eq_ok_iff]
  refine ⟨⟨hconvertible, ?_⟩, fun h => absurd h.2 ?_⟩
  all_goals
    simp [wholePrice, price, Expr.convert, Expr.function, SqlCe.form, hname, SqlCe.convertCall,
      Expr.dataType, DataType.isFloat, Expr.canBeNull]

end Sample

end SqlTree
