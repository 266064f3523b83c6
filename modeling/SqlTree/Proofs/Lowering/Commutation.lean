import SqlTree.Proofs.Lowering.DateShift

/-! # Unbound parameters and the conversion

The conversion for SQL Server Compact Edition looks at types, at whether expressions can be NULL and
at their values. None of these depends on whether parameters are bound, and the conversion keeps,
moves and drops parameters as it finds them. So parameters can be unbound before the conversion as
well as after it. Where it cannot go on with bound parameters, it cannot with unbound ones.

Main definitions:

* `Expr.unbindAll`: an expression with all parameters unbound.

Main statements:

* `Expr.dataType_unbindAll`, `Expr.canBeNull_unbindAll`, `Expr.fold?_unbindAll`,
  `Expr.overflows_unbindAll`: what does not depend on whether parameters are bound.
* `SqlCe.convert_unbindAll`: one step of the conversion.
* `SqlCe.convertStatement_inlineAllParameters`: the conversion of statements.
-/

namespace SqlTree

namespace Expr

/-- The expression with all parameters unbound. -/
def unbindAll (e : Expr) : Expr := e.mapUp unbind

@[simp] theorem unbindAll_value (l : Literal) (t : DataType) :
    (value l t).unbindAll = value l t := rfl

@[simp] theorem unbindAll_typeName (t : DataType) : (typeName t).unbindAll = typeName t := rfl

@[simp] theorem unbindAll_call (name : String) (t : DataType) (args : List Expr)
    (flags : CallFlags) :
    (call name t args flags).unbindAll = call name t (args.map unbindAll) flags :=
  mapUp_call ..

@[simp] theorem unbindAll_binary (op : Operator) (l r : Expr) (p : Int) (t : DataType) (n : Bool) :
    (binary op l r p t n).unbindAll = binary op l.unbindAll r.unbindAll p t n := rfl

@[simp] theorem unbindAll_raw (format : String) (p : Int) (args : List Expr) (t : DataType) :
    (raw format p args t).unbindAll = raw format p (args.map unbindAll) t :=
  mapUp_raw ..

theorem dataType_closed :
    Tree.Closed (fun e => e.unbindAll.dataType = e.dataType)
      (fun q => (q.mapUp unbind).firstType = q.firstType) (fun _ => True) where
  value l t := rfl
  parameter p := rfl
  field f := rfl
  column c := rfl
  call name t args flags _ := by simp [dataType]
  binary op l r p t n _ _ := rfl
  raw format p args t _ := by simp [dataType]
  typeName t := rfl
  subquery q ih := ih
  existsRow q _ := rfl
  query q ih := by
    rw [Query.mapUp_eq]
    cases q with
    | mk id columns distinct skip take sources filter groupBy having orderBy =>
      cases columns with
      | nil => rfl
      | cons c cs =>
        cases c
        exact ih.columns _ (.head _)
  source _ _ := trivial

@[simp] theorem dataType_unbindAll (e : Expr) : e.unbindAll.dataType = e.dataType :=
  dataType_closed.onExpr e

@[simp] theorem canBeNull_unbindAll (e : Expr) : e.unbindAll.canBeNull = e.canBeNull := by
  cases e with
  | call name t args flags => simp [canBeNull]
  | raw format p args t => simp [canBeNull]
  | _ => rfl

@[simp] theorem unbindAll_function (name : String) (t : DataType) (args : List Expr) :
    (function name t args).unbindAll = function name t (args.map unbindAll) := by
  simp [function, Function.comp_def]

@[simp] theorem unbindAll_convert (t : DataType) (e : Expr) :
    (convert t e).unbindAll = convert t e.unbindAll := by
  simp [convert]

theorem foldEach?_eq_map (ctx : Context) (es : List Expr) :
    foldEach? ctx es = es.map (fold? ctx) := by
  induction es with
  | nil => rfl
  | cons e es ih => rw [foldEach?, ih, List.map_cons]

theorem foldCall?_unbindAll (name : String) (args : List Expr) (values : List (Option Literal)) :
    foldCall? name (args.map unbindAll) values = foldCall? name args values := by
  unfold foldCall?
  split
  case h_2 =>
    -- A conversion looks at its first argument, which must be the name of a type.
    rcases args with _ | ⟨target, _ | ⟨value, _ | ⟨next, rest⟩⟩⟩
    case cons.cons.nil =>
      cases target with
      | call name t args flags => simp
      | raw format p args t => simp
      | typeName t => rcases values with _ | ⟨_, _ | ⟨_ | _, _ | _⟩⟩ <;> rfl
      | _ => rfl
    all_goals simp
  all_goals rfl

theorem fold?_closed (ctx : Context) :
    Tree.Closed (fun e => e.unbindAll.fold? ctx = e.fold? ctx) (fun _ => True)
      (fun _ => True) where
  value l t := rfl
  parameter p := rfl
  field f := rfl
  column c := rfl
  call name t args flags ih := by
    have hvalues : foldEach? ctx (args.map unbindAll) = foldEach? ctx args := by
      rw [foldEach?_eq_map, foldEach?_eq_map, List.map_map]
      exact List.map_congr_left ih
    rw [unbindAll_call, fold?, fold?, hvalues, foldCall?_unbindAll]
  binary op l r p t n hl hr := by rw [unbindAll_binary, fold?, fold?, hl, hr]
  raw format p args t _ := by rw [unbindAll_raw, fold?, fold?]
  typeName t := rfl
  subquery q _ := rfl
  existsRow q _ := rfl
  query _ _ := trivial
  source _ _ := trivial

@[simp] theorem fold?_unbindAll (ctx : Context) (e : Expr) :
    e.unbindAll.fold? ctx = e.fold? ctx :=
  (fold?_closed ctx).onExpr e

theorem callOverflows_unbindAll (name : String) (args : List Expr)
    (values : List (Bool × Option Literal)) :
    callOverflows name (args.map unbindAll) values = callOverflows name args values := by
  unfold callOverflows
  split
  case h_2 =>
    rcases args with _ | ⟨target, _ | ⟨value, _ | ⟨next, rest⟩⟩⟩
    case cons.cons.nil =>
      cases target with
      | call name t args flags => simp
      | raw format p args t => simp
      | typeName t => rcases values with _ | ⟨_, _ | ⟨_, _ | _⟩⟩ <;> rfl
      | _ => rfl
    all_goals simp
  all_goals rfl

theorem overflows_closed (ctx : Context) :
    Tree.Closed (fun e => e.unbindAll.overflows ctx = e.overflows ctx) (fun _ => True)
      (fun _ => True) where
  value l t := rfl
  parameter p := rfl
  field f := rfl
  column c := rfl
  call name t args flags ih := by
    have hvalues : overflowsEach ctx (args.map unbindAll) = overflowsEach ctx args := by
      rw [overflowsEach_eq_map, overflowsEach_eq_map, List.map_map]
      exact List.map_congr_left fun e he => by simp [ih e he]
    rw [unbindAll_call, overflows, overflows, hvalues, callOverflows_unbindAll]
  binary op l r p t n hl hr := by
    rw [unbindAll_binary, overflows, overflows, hl, hr, fold?_unbindAll, fold?_unbindAll]
  raw format p args t _ := by rw [unbindAll_raw, overflows, overflows]
  typeName t := rfl
  subquery q _ := rfl
  existsRow q _ := rfl
  query _ _ := trivial
  source _ _ := trivial

@[simp] theorem overflows_unbindAll (ctx : Context) (e : Expr) :
    e.unbindAll.overflows ctx = e.overflows ctx :=
  (overflows_closed ctx).onExpr e

end Expr

namespace SqlCe

variable {ctx : Context}

theorem dateAdd?_unbindAll (date interval : Expr) (negate : Bool) :
    dateAdd? ctx date.unbindAll interval.unbindAll negate =
      (dateAdd? ctx date interval negate).map Expr.unbindAll := by
  simp only [dateAdd?, Expr.dataType_unbindAll, Expr.fold?_unbindAll, Expr.canBeNull_unbindAll]
  split
  · rfl
  · cases interval.fold? ctx with
    | none => rfl
    | some l =>
      cases l with
      | interval d =>
        cases hincrement : d.increment? with
        | none => simp [hincrement]
        | some increment =>
          cases negate with
          | false => simp [hincrement, Expr.long]
          | true =>
            cases hcount : Word.signed? (-increment.2.toInt) with
            | none => simp [hincrement, hcount]
            | some count => simp [hincrement, hcount, Expr.long]
      | _ => rfl

theorem convertBinary_unbindAll (op : Operator) (l r : Expr) (p : Int) (t : DataType) (n : Bool) :
    convertBinary ctx op l.unbindAll r.unbindAll p t n =
      (convertBinary ctx op l r p t n).unbindAll := by
  cases op with
  | modulo =>
    simp only [convertBinary, Expr.dataType_unbindAll]
    split
    · simp
    · simp [← Expr.unbindAll_convert]
  | add =>
    simp only [convertBinary, dateAdd?_unbindAll, ← Option.map_or, ← Expr.unbindAll_binary]
    exact Option.getD_map ..
  | subtract =>
    simp only [convertBinary, dateAdd?_unbindAll, ← Expr.unbindAll_binary]
    exact Option.getD_map ..
  | _ => rfl

theorem convertTemporal?_unbindAll (target t : DataType) (value : Expr) :
    convertTemporal? target t value.unbindAll =
      (convertTemporal? target t value).map Expr.unbindAll := by
  unfold convertTemporal?
  simp only [Expr.dataType_unbindAll]
  split
  · split
    · simp
    · split <;> simp
  · split <;> simp
  · rfl

theorem convertCall_unbindAll (name : String) (t : DataType) (target value : Expr)
    (flags : CallFlags) :
    convertCall name t target.unbindAll value.unbindAll flags =
      (convertCall name t target value flags).unbindAll := by
  have htemporal : ∀ type, (convertTemporal? type t value.unbindAll).getD
      (.call name t [.typeName type, value.unbindAll] flags) =
        ((convertTemporal? type t value).getD
          (.call name t [.typeName type, value] flags)).unbindAll := by
    intro type
    have hcall : Expr.call name t [.typeName type, value.unbindAll] flags =
        (Expr.call name t [.typeName type, value] flags).unbindAll := by simp
    rw [convertTemporal?_unbindAll, hcall]
    exact Option.getD_map ..
  unfold convertCall
  dsimp only
  split
  · rw [Expr.dataType_unbindAll]
    split <;> simp
  iterate 3
    cases target with
    | typeName type => exact htemporal type
    | call name t args flags => simp
    | raw format p args t => simp
    | _ => rfl
  · simp

/-- The form of an expression does not depend on whether parameters are bound. -/
theorem form_unbindAll (ctx : Context) (e : Expr) :
    form ctx e.unbindAll = (form ctx e).unbindAll := by
  cases e with
  | binary op l r p t n => exact convertBinary_unbindAll op l r p t n
  | call name t args flags =>
    rcases args with _ | ⟨target, _ | ⟨value, _ | ⟨next, rest⟩⟩⟩
    case cons.cons.nil =>
      simp only [Expr.unbindAll_call, List.map_cons, List.map_nil, form]
      split
      · exact convertCall_unbindAll name t target value flags
      · simp
    all_goals simp [form]
  | raw format p args t => simp [form]
  | _ => rfl

theorem shiftOverflows_unbindAll (date interval : Expr) :
    shiftOverflows ctx date.unbindAll interval.unbindAll = shiftOverflows ctx date interval := by
  simp [shiftOverflows]

theorem overflows_unbindAll (ctx : Context) (e : Expr) :
    overflows ctx e.unbindAll = overflows ctx e := by
  cases e with
  | binary op l r p t n =>
    cases op <;> simp [overflows, shiftOverflows_unbindAll]
  | call name t args flags => simp [overflows]
  | raw format p args t => simp [overflows]
  | _ => rfl

/-- A step of the conversion goes on with unbound parameters as it does with bound ones. -/
theorem convert_unbindAll (ctx : Context) (e : Expr) :
    convert ctx e.unbindAll = Expr.unbindAll <$> convert ctx e := by
  unfold convert
  rw [overflows_unbindAll, form_unbindAll]
  split <;> rfl

end SqlCe

/-! Trees. -/

def Origin.unbindAll : Origin → Origin
  | .table t => .table t
  | .query q => .query (q.mapUp Expr.unbind)

def Join.unbindAll (j : Join) : Join :=
  ⟨j.kind, j.source.mapUp Expr.unbind, j.condition.map Expr.unbindAll⟩

theorem Query.mapUp_unbind (q : Query) :
    q.mapUp Expr.unbind = { q with
      columns := q.columns.map fun c => { c with expr := c.expr.unbindAll }
      skip := q.skip.map Expr.unbindAll
      take := q.take.map Expr.unbindAll
      sources := q.sources.map (Source.mapUp Expr.unbind)
      filter := q.filter.map Expr.unbindAll
      groupBy := q.groupBy.map Expr.unbindAll
      having := q.having.map Expr.unbindAll
      orderBy := q.orderBy.map fun o => { o with expr := o.expr.unbindAll } } :=
  Query.mapUp_eq Expr.unbind q

theorem Source.mapUp_unbind (s : Source) :
    s.mapUp Expr.unbind =
      { s with origin := s.origin.unbindAll, joins := s.joins.map Join.unbindAll } := by
  rw [Source.mapUp_eq]
  cases s with
  | mk id origin aliasName joins => cases origin <;> rfl

section Trees

variable {m : Type → Type} [Monad m] [LawfulMonad m] {t : Transform m}

theorem mapM_map_comm {α β γ : Type} {f : β → m γ} {g : α → β} {k : α → m γ} {h : γ → γ}
    {xs : List α} (hxs : ∀ x ∈ xs, f (g x) = h <$> k x) :
    (xs.map g).mapM f = List.map h <$> xs.mapM k := by
  induction xs with
  | nil => simp
  | cons x xs ih =>
    rw [List.forall_mem_cons] at hxs
    rw [List.map_cons, List.mapM_cons, List.mapM_cons, hxs.1, ih hxs.2]
    simp

theorem transformOptional_unbindAll {o : Option Expr}
    (h : ∀ e ∈ o, e.unbindAll.transform t = Expr.unbindAll <$> e.transform t) :
    transformOptional t (o.map Expr.unbindAll) =
      Option.map Expr.unbindAll <$> transformOptional t o := by
  cases o with
  | none => simp [transformOptional]
  | some e => simp [transformOptional, h e rfl]

theorem transformExprs_unbindAll {es : List Expr}
    (h : ∀ e ∈ es, e.unbindAll.transform t = Expr.unbindAll <$> e.transform t) :
    transformExprs t (es.map Expr.unbindAll) =
      List.map Expr.unbindAll <$> transformExprs t es := by
  rw [transformExprs_eq_mapM, transformExprs_eq_mapM]
  exact mapM_map_comm h

/-- A transformation that commutes with unbinding parameters at each expression, and leaves queries
in their places, commutes with it in a tree. -/
theorem Transform.unbindAll_closed
    (hexpr : ∀ e : Expr, t.expr e.unbindAll = Expr.unbindAll <$> t.expr e)
    (hquery : t.query = QueryParts.rebuild) :
    Tree.Closed (fun e => e.unbindAll.transform t = Expr.unbindAll <$> e.transform t)
      (fun q => (q.mapUp Expr.unbind).transform t = Query.mapUp Expr.unbind <$> q.transform t)
      (fun s => (s.mapUp Expr.unbind).transform t = Source.mapUp Expr.unbind <$> s.transform t)
      where
  value l ty := hexpr (.value l ty)
  parameter p := hexpr (.parameter p)
  field f := hexpr (.field f)
  column c := hexpr (.column c)
  call name ty args flags ih := by
    rw [Expr.unbindAll_call, Expr.transform, Expr.transform, transformExprs_unbindAll ih]
    simp [← hexpr]
  binary op l r p ty n hl hr := by
    rw [Expr.unbindAll_binary, Expr.transform, Expr.transform, hl, hr]
    simp [← hexpr]
  raw format p args ty ih := by
    rw [Expr.unbindAll_raw, Expr.transform, Expr.transform, transformExprs_unbindAll ih]
    simp [← hexpr]
  typeName ty := hexpr (.typeName ty)
  subquery q ih := by
    change (q.mapUp Expr.unbind).transform t >>= (fun q => t.expr (.subquery q)) = _
    rw [Expr.transform, ih]
    simp only [bind_map_left, map_bind, ← hexpr]
    rfl
  existsRow q ih := by
    change (q.mapUp Expr.unbind).transform t >>= (fun q => t.expr (.existsRow q)) = _
    rw [Expr.transform, ih]
    simp only [bind_map_left, map_bind, ← hexpr]
    rfl
  query q ih := by
    have hcolumns : transformColumns t (q.columns.map fun c => { c with expr := c.expr.unbindAll }) =
        List.map (fun c : Column => { c with expr := c.expr.unbindAll }) <$>
          transformColumns t q.columns := by
      rw [transformColumns_eq_mapM, transformColumns_eq_mapM]
      exact mapM_map_comm fun c hc => by simp [ih.columns c hc]
    have hsources : transformSources t (q.sources.map (Source.mapUp Expr.unbind)) =
        List.map (Source.mapUp Expr.unbind) <$> transformSources t q.sources := by
      rw [transformSources_eq_mapM, transformSources_eq_mapM]
      exact mapM_map_comm ih.sources
    have horder : transformOrder t (q.orderBy.map fun o => { o with expr := o.expr.unbindAll }) =
        List.map (fun o : OrderItem => { o with expr := o.expr.unbindAll }) <$>
          transformOrder t q.orderBy := by
      rw [transformOrder_eq_mapM, transformOrder_eq_mapM]
      exact mapM_map_comm fun o ho => by simp [ih.orderBy o ho]
    rw [Query.mapUp_unbind, Query.transform_eq, Query.transform_eq, hquery]
    simp only [QueryParts.rebuild, hcolumns, hsources, horder, transformOptional_unbindAll ih.skip,
      transformOptional_unbindAll ih.take, transformOptional_unbindAll ih.filter,
      transformExprs_unbindAll ih.groupBy, transformOptional_unbindAll ih.having, bind_map_left,
      map_bind, map_pure, Query.mapUp_unbind]
  source s ih := by
    have horigin : s.origin.unbindAll.transform t = Origin.unbindAll <$> s.origin.transform t := by
      cases ho : s.origin with
      | table table => simp [Origin.unbindAll, Origin.transform]
      | query q => simp [Origin.unbindAll, Origin.transform, ih.origin q ho]
    have hjoins : transformJoins t (s.joins.map Join.unbindAll) =
        List.map Join.unbindAll <$> transformJoins t s.joins := by
      rw [transformJoins_eq_mapM, transformJoins_eq_mapM]
      refine mapM_map_comm fun j hj => ?_
      simp [Join.unbindAll, ih.joins j hj, transformOptional_unbindAll (ih.conditions j hj)]
    rw [Source.mapUp_unbind, Source.transform_eq, Source.transform_eq]
    simp only [horigin, hjoins, bind_map_left, map_bind, map_pure, Source.mapUp_unbind]

theorem Statement.transform_inlineAllParameters
    (hexpr : ∀ e : Expr, t.expr e.unbindAll = Expr.unbindAll <$> t.expr e)
    (hquery : t.query = QueryParts.rebuild) (s : Statement) :
    s.inlineAllParameters.transform t = Statement.inlineAllParameters <$> s.transform t := by
  have hclosed := Transform.unbindAll_closed hexpr hquery
  have hexprs : ∀ e : Expr, (e.mapUp Expr.unbind).transform t =
      Expr.mapUp Expr.unbind <$> e.transform t := hclosed.onExpr
  have hoptional : ∀ o, transformOptional t (o.map (Expr.mapUp Expr.unbind)) =
      Option.map (Expr.mapUp Expr.unbind) <$> transformOptional t o :=
    fun o => transformOptional_unbindAll fun e _ => hclosed.onExpr e
  have hitems : ∀ items : List SetItem,
      (items.map (SetItem.mapExpr (Expr.mapUp Expr.unbind))).mapM (SetItem.transform t) =
        List.map (SetItem.mapExpr (Expr.mapUp Expr.unbind)) <$>
          items.mapM (SetItem.transform t) :=
    fun items => mapM_map_comm fun i _ => by simp [SetItem.transform, SetItem.mapExpr, hexprs]
  have hoperations : ∀ operations : List MergeOperation,
      (operations.map (MergeOperation.mapExpr (Expr.mapUp Expr.unbind))).mapM
          (MergeOperation.transform t) =
        List.map (MergeOperation.mapExpr (Expr.mapUp Expr.unbind)) <$>
          operations.mapM (MergeOperation.transform t) :=
    fun operations => mapM_map_comm fun o _ => by
      simp [MergeOperation.transform, MergeOperation.mapExpr, hoptional, hitems]
  have hparts : Statement.inlineAllParameters = Statement.mapParts (Expr.mapUp Expr.unbind)
      (Query.mapUp Expr.unbind) (Source.mapUp Expr.unbind) := funext (Statement.mapUp_eq Expr.unbind)
  rw [hparts]
  cases s <;> simp [Statement.transform, Statement.mapParts, hclosed.onQuery, hclosed.onSource,
    hoptional, hitems, hoperations]

end Trees

/-- The statement with all parameters unbound is converted to what becomes of the converted
statement when they are unbound. Both conversions succeed if no operation of the statement is one
where there is no going on, and otherwise both fail. -/
theorem SqlCe.convertStatement_inlineAllParameters (ctx : Context) (s : Statement) :
    ((Node.statement s).Convertible ctx →
      ∃ s', dialect.convertStatement ctx s = .ok s' ∧
        dialect.convertStatement ctx s.inlineAllParameters = .ok s'.inlineAllParameters) ∧
    (¬ (Node.statement s).Convertible ctx →
      dialect.convertStatement ctx s = .error .overflow ∧
        dialect.convertStatement ctx s.inlineAllParameters = .error .overflow) := by
  have hattempts := convertStatement_attempts ctx s
  have hcomm : dialect.convertStatement ctx s.inlineAllParameters =
      Statement.inlineAllParameters <$> dialect.convertStatement ctx s :=
    Statement.transform_inlineAllParameters (convert_unbindAll ctx) rfl s
  rw [hcomm]
  refine ⟨fun h => ?_, fun h => ?_⟩
  · rw [hattempts.succeeds h]
    exact ⟨_, rfl, rfl⟩
  · rw [hattempts.fails h]
    exact ⟨rfl, rfl⟩

namespace Sample

/-- When the orders are due that are placed for aeons. -/
def dueAfterAeons : Statement :=
  .select { id := ⟨1⟩, columns :=
    [⟨.operation .add placedAt (repeated 1000000000000000 10) .dateTime, none⟩] }

theorem convertStatement_dueAfterAeons :
    SqlCe.dialect.convertStatement {} dueAfterAeons = .error .overflow ∧
      SqlCe.dialect.convertStatement {} dueAfterAeons.inlineAllParameters = .error .overflow := by
  constructor <;> rfl

end Sample

end SqlTree
