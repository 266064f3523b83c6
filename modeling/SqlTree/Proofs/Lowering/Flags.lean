import SqlTree.Proofs.Lowering.Preservation

/-! # Which parameters stay bound

The passes that write parameters into the text keep every node of a statement as it is, up to the
flags of parameters. Whether a parameter stays bound depends on the nodes above it alone.

Main definitions:

* `Node.SameForm`: two nodes that agree in all that is not below them.
* `Node.Rebound`: two trees that agree but for the flags of parameters, with the places where bound
  parameters stay bound.
* `Node.isInserted`, `Node.isArgument`: the places that the passes look for.

Main statements:

* `Node.Follows.of_children`: from the children to the node.
* `Node.Rebound.refl`: a tree agrees with itself where all places keep their parameters.
* `Dialect.rebound_runPass`: the places of each pass.
-/

namespace SqlTree

namespace Node

/-- The nodes are of one kind and agree in all that is not below them. -/
inductive SameForm : Node → Node → Prop
  | refl (n : Node) : SameForm n n
  | statement {RE : Expr → Expr → Prop} {RQ : Query → Query → Prop} {RS : Source → Source → Prop}
      {s s' : Statement} (h : s.Aligned RE RQ RS s') : SameForm (.statement s) (.statement s')
  | query {RE : Expr → Expr → Prop} {RS : Source → Source → Prop} {q q' : Query}
      (h : q.Aligned RE RS q') : SameForm (.query q) (.query q')
  | column {c c' : Column} (h : c'.aliasName = c.aliasName) : SameForm (.column c) (.column c')
  | source {RE : Expr → Expr → Prop} {RQ : Query → Query → Prop} {RS : Source → Source → Prop}
      {s s' : Source} (h : s.Aligned RE RQ RS s') : SameForm (.source s) (.source s')
  | join {RE : Expr → Expr → Prop} {RS : Source → Source → Prop} {j j' : Join}
      (h : j.Aligned RE RS j') : SameForm (.join j) (.join j')
  | order {o o' : OrderItem} (h : o'.desc = o.desc) : SameForm (.order o) (.order o')
  | setItem {i i' : SetItem} (h : i'.column = i.column) : SameForm (.setItem i) (.setItem i')
  | mergeOperation {RE : Expr → Expr → Prop} {o o' : MergeOperation} (h : o.Aligned RE o') :
      SameForm (.mergeOperation o) (.mergeOperation o')
  | expr {RE : Expr → Expr → Prop} {RQ : Query → Query → Prop} {e e' : Expr}
      (h : e.Aligned RE RQ e') : SameForm (.expr e) (.expr e')

/-- The second tree is the first one but for the flags of parameters: a parameter is bound in the
second tree exactly if it is in the first one and `keeps` is true of the nodes above it, the nearest
node first. -/
inductive Rebound (keeps : List Node → Bool) : List Node → Node → Node → Prop
  | parameter (above : List Node) (x : Parameter) :
      Rebound keeps above (.expr (.parameter x))
        (.expr (.parameter { x with isBound := x.isBound && keeps above }))
  | node {above : List Node} {n n' : Node} (hn : n.parameter? = none) (hform : n.SameForm n')
      (hlength : n.children.length = n'.children.length)
      (hchildren : ∀ {c c' : Node}, (c, c') ∈ n.children.zip n'.children →
        Rebound keeps (n :: above) c c') : Rebound keeps above n n'

/-- Whether the node below is a value that an insertion gives for a column or projects itself. -/
def isInserted : List Node → Bool
  | [.setItem _, .statement (.insert ..)] => true
  | [.column _, .query _, .statement (.insert ..)] => true
  | _ => false

/-- Whether the node is a call. -/
def isCall : Node → Bool
  | .expr (.call ..) => true
  | _ => false

/-- Whether the node below is an argument of a call. -/
def isArgument (above : List Node) : Bool := above.head?.any isCall

/-! From the children to the node. -/

/-- Below places that meet `A`, the second tree is the first one but for the flags. -/
def Follows (keeps : List Node → Bool) (A : List Node → Prop) (n n' : Node) : Prop :=
  ∀ above, A above → Rebound keeps above n n'

variable {keeps : List Node → Bool} {A : List Node → Prop}

theorem Rebound.of_children {above : List Node} {n n' : Node} (hn : n.parameter? = none)
    (hform : n.SameForm n')
    (h : List.Forall₂ (Rebound keeps (n :: above)) n.children n'.children) :
    Rebound keeps above n n' := by
  obtain ⟨hlength, hchildren⟩ := List.forall₂_iff_zip.1 h
  exact .node hn hform hlength hchildren

theorem Rebound.of_follows {above : List Node} {n n' : Node} (hn : n.parameter? = none)
    (hform : n.SameForm n') (h : List.Forall₂ (Follows keeps A) n.children n'.children)
    (hA : A (n :: above)) : Rebound keeps above n n' :=
  .of_children hn hform (h.imp fun _ _ hc => hc _ hA)

/-- The places below nodes that are not calls meet `A`. -/
def Spreads (A : List Node → Prop) : Prop :=
  ∀ n above, n.isCall = false → A above → A (n :: above)

theorem Follows.of_children (hA : Spreads A) {n n' : Node} (hn : n.parameter? = none)
    (hcall : n.isCall = false) (hform : n.SameForm n')
    (h : List.Forall₂ (Follows keeps A) n.children n'.children) : Follows keeps A n n' :=
  fun above habove => .of_follows hn hform h (hA n above hcall habove)

theorem Follows.table (t : Table) : Follows keeps A (.table t) (.table t) :=
  fun _ _ => .of_children rfl (.refl _) .nil

end Node

section Follows

open Node

variable {keeps : List Node → Bool} {A : List Node → Prop} {RE : Expr → Expr → Prop}
  {RQ : Query → Query → Prop} {RS : Source → Source → Prop}
  (hE : ∀ e e', RE e e' → Follows keeps A (.expr e) (.expr e'))
  (hQ : ∀ q q', RQ q q' → Follows keeps A (.query q) (.query q'))
  (hS : ∀ s s', RS s s' → Follows keeps A (.source s) (.source s')) (hA : Spreads A)

include hE

theorem Node.forall₂_ofOption {o o' : Option Expr} (h : Option.Rel RE o o') :
    List.Forall₂ (Follows keeps A) (ofOption o) (ofOption o') := by
  cases h with
  | none => exact .nil
  | some h => exact .cons (hE _ _ h) .nil

theorem Expr.Aligned.forall₂_children
    (hQ : ∀ q q', RQ q q' → Follows keeps A (.query q) (.query q')) {e e' : Expr}
    (h : e.Aligned RE RQ e') :
    List.Forall₂ (Follows keeps A) (Node.expr e).children (Node.expr e').children := by
  cases h with
  | call name t flags hargs => simpa [children] using hargs.imp hE
  | binary op p t n hl hr => exact .cons (hE _ _ hl) (.cons (hE _ _ hr) .nil)
  | raw format p t hargs => simpa [children] using hargs.imp hE
  | subquery hq => exact .cons (hQ _ _ hq) .nil
  | existsRow hq => exact .cons (hQ _ _ hq) .nil
  | _ => exact .nil

include hA

theorem SetItem.Aligned.follows {i i' : SetItem} (h : i.Aligned RE i') :
    Follows keeps A (.setItem i) (.setItem i') :=
  .of_children hA rfl rfl (.setItem h.column) (.cons (hE _ _ h.expr) .nil)

theorem SetItem.forall₂_follows {items items' : List SetItem}
    (h : List.Forall₂ (SetItem.Aligned RE) items items') :
    List.Forall₂ (Follows keeps A) (items.map .setItem) (items'.map .setItem) := by
  simpa using h.imp fun _ _ hi => hi.follows hE hA

theorem MergeOperation.Aligned.follows {o o' : MergeOperation} (h : o.Aligned RE o') :
    Follows keeps A (.mergeOperation o) (.mergeOperation o') :=
  .of_children hA rfl rfl (.mergeOperation h)
    (List.rel_append (forall₂_ofOption hE h.condition) (SetItem.forall₂_follows hE hA h.items))

include hS

theorem Query.Aligned.follows {q q' : Query} (h : q.Aligned RE RS q') :
    Follows keeps A (.query q) (.query q') := by
  have hcolumns : List.Forall₂ (Follows keeps A) (q.columns.map .column)
      (q'.columns.map .column) := by
    simp only [List.forall₂_map_left_iff, List.forall₂_map_right_iff]
    exact h.columns.imp fun _ _ hc =>
      .of_children hA rfl rfl (.column hc.2) (.cons (hE _ _ hc.1) .nil)
  have horder : List.Forall₂ (Follows keeps A) (q.orderBy.map .order) (q'.orderBy.map .order) := by
    simp only [List.forall₂_map_left_iff, List.forall₂_map_right_iff]
    exact h.orderBy.imp fun _ _ ho =>
      .of_children hA rfl rfl (.order ho.2) (.cons (hE _ _ ho.1) .nil)
  have hsources : List.Forall₂ (Follows keeps A) (q.sources.map .source)
      (q'.sources.map .source) := by
    simpa using h.sources.imp hS
  have hgroupBy : List.Forall₂ (Follows keeps A) (q.groupBy.map .expr) (q'.groupBy.map .expr) := by
    simpa using h.groupBy.imp hE
  refine .of_children hA rfl rfl (.query h) ?_
  have hbounds := List.rel_append (List.rel_append hcolumns (forall₂_ofOption hE h.skip))
    (forall₂_ofOption hE h.take)
  have hrows := List.rel_append (List.rel_append hbounds hsources) (forall₂_ofOption hE h.filter)
  exact List.rel_append (List.rel_append (List.rel_append hrows hgroupBy)
    (forall₂_ofOption hE h.having)) horder

theorem Join.Aligned.follows {j j' : Join} (h : j.Aligned RE RS j') :
    Follows keeps A (.join j) (.join j') :=
  .of_children hA rfl rfl (.join h) (.cons (hS _ _ h.source) (forall₂_ofOption hE h.condition))

include hQ

theorem Source.Aligned.follows {s s' : Source} (h : s.Aligned RE RQ RS s') :
    Follows keeps A (.source s) (.source s') := by
  have hjoins : List.Forall₂ (Follows keeps A) (s.joins.map .join) (s'.joins.map .join) := by
    simpa using h.joins.imp fun _ _ hj => hj.follows hE hS hA
  refine .of_children hA rfl rfl (.source h) (.cons ?_ hjoins)
  have horigin := h.origin
  generalize s.origin = origin, s'.origin = origin' at horigin
  cases horigin with
  | table t => exact .table t
  | query hq => exact hQ _ _ hq

theorem Statement.Aligned.follows {s s' : Statement} (h : s.Aligned RE RQ RS s') :
    Follows keeps A (.statement s) (.statement s') := by
  refine .of_children hA rfl rfl (.statement h) ?_
  cases h with
  | select hq => exact .cons (hQ _ _ hq) .nil
  | insert into hitems hq =>
    exact .cons (.table into) (List.rel_append (SetItem.forall₂_follows hE hA hitems)
      (.cons (hQ _ _ hq) .nil))
  | update target hitems hq =>
    exact List.rel_append (SetItem.forall₂_follows hE hA hitems) (.cons (hQ _ _ hq) .nil)
  | delete target hq => exact .cons (hQ _ _ hq) .nil
  | merge htarget hq hon hoperations =>
    refine .cons (hS _ _ htarget) (.cons (hQ _ _ hq) (List.rel_append (forall₂_ofOption hE hon) ?_))
    simpa using hoperations.imp fun _ _ ho => ho.follows hE hA
  | createTable t => exact .cons (.table t) .nil
  | dropTable t ifExists => exact .cons (.table t) .nil

end Follows

/-! All parameters, and arguments of calls. -/

section Inlined

open Node

theorem Statement.follows_mapUp {keeps : List Node → Bool} {A : List Node → Prop} {f : Expr → Expr}
    {RE : Expr → Expr → Prop} (hA : Spreads A)
    (hE : ∀ e e', RE e e' → Follows keeps A (.expr e) (.expr e'))
    (hf : ∀ {e e'}, e.Aligned RE (fun q q' => Follows keeps A (.query q) (.query q')) e' →
      RE e (f e')) (s : Statement) : Follows keeps A (.statement s) (.statement (s.mapUp f)) := by
  have hyields : (Transform.ofFun f).Yields .result RE
      (fun q q' => Follows keeps A (.query q) (.query q'))
      (fun s s' => Follows keeps A (.source s) (.source s')) :=
    { expr := fun h => hf h
      query := fun h => h.rebuild.follows hE (fun _ _ hs => hs) hA
      source := fun h => h.follows hE (fun _ _ hq => hq) (fun _ _ hs => hs) hA }
  have haligned : s.Aligned _ _ _ (s.mapUp f) := hyields.onStatement s
  exact haligned.follows hE (fun _ _ hq => hq) (fun _ _ hs => hs) hA

theorem Statement.rebound_inlineAllParameters (s : Statement) :
    Rebound (fun _ => false) [] (.statement s) (.statement s.inlineAllParameters) := by
  refine s.follows_mapUp (A := fun _ => True) (fun _ _ _ _ => trivial) (fun _ _ he => he) ?_ []
    trivial
  intro e e' h above _
  have hform := SameForm.expr h
  have hchildren := h.forall₂_children (fun _ _ he => he) (fun _ _ hq => hq)
  cases h with
  | parameter x =>
    have hx : x.unbind = { x with isBound := x.isBound && false } := by simp [Parameter.unbind]
    rw [Expr.unbind, hx]
    exact .parameter above x
  | _ => exact .of_follows rfl hform hchildren trivial

/-- An expression that is an argument of a call is unbound in the end, and others are not. -/
def Expr.Inlined (e e' : Expr) : Prop :=
  ∀ above, Rebound (fun above => !isArgument above) above (.expr e)
    (.expr (if isArgument above then e'.unbind else e'))

theorem Expr.Inlined.follows {e e' : Expr} (h : e.Inlined e') :
    Follows (fun above => !isArgument above) (fun above => isArgument above = false) (.expr e)
      (.expr e') := by
  intro above habove
  simpa [habove] using h above

theorem Expr.inlined_parameter (x : Parameter) : (Expr.parameter x).Inlined (.parameter x) := by
  intro above
  have hx : (if isArgument above then (Expr.parameter x).unbind else .parameter x) =
      .parameter { x with isBound := x.isBound && !isArgument above } := by
    cases isArgument above <;> simp [unbind, Parameter.unbind]
  rw [hx]
  exact .parameter above x

theorem Expr.inlined_call {name : String} {t : DataType} {flags : CallFlags}
    {args args' : List Expr} (h : List.Forall₂ Inlined args args') :
    (Expr.call name t args flags).Inlined (.call name t (args'.map unbind) flags) := by
  intro above
  have haligned : Expr.Aligned (fun _ _ => True) (fun _ _ => True) (.call name t args flags)
      (.call name t (args'.map unbind) flags) :=
    .call name t flags (by simpa using h.imp fun _ _ _ => trivial)
  have hargs : List.Forall₂ (Rebound (fun above => !isArgument above)
      (.expr (.call name t args flags) :: above)) (args.map .expr)
        ((args'.map unbind).map .expr) := by
    simp only [List.forall₂_map_left_iff, List.forall₂_map_right_iff]
    exact h.imp fun _ _ he => he (.expr (.call name t args flags) :: above)
  simp only [unbind, ite_self]
  exact .of_children rfl (.expr haligned) hargs

theorem Statement.rebound_inlineFunctionParameters (s : Statement) :
    Rebound (fun above => !isArgument above) [] (.statement s)
      (.statement s.inlineFunctionParameters) := by
  refine s.follows_mapUp (fun n above hcall _ => hcall)
    (fun e e' (he : e.Inlined e') => he.follows) ?_ [] rfl
  intro e e' h
  have hform := SameForm.expr h
  have hchildren := h.forall₂_children (fun _ _ he => he.follows) (fun _ _ hq => hq)
  cases h with
  | parameter x => exact Expr.inlined_parameter x
  | call name t flags hargs => exact Expr.inlined_call hargs
  | _ =>
    intro above
    simp only [Expr.unbindArgs, Expr.unbind, ite_self]
    exact .of_follows rfl hform hchildren rfl

end Inlined

/-! Inserted values. -/

namespace Node

/-- A tree agrees with itself where parameters stay bound at its place and at all places below. -/
theorem Rebound.refl {keeps : List Node → Bool} (n : Node) {above : List Node}
    (hself : n.parameter? = none ∨ keeps above = true)
    (hbelow : ∀ below, keeps (below ++ n :: above) = true) : Rebound keeps above n n := by
  induction hw : n.weight using Nat.strongRecOn generalizing n above with
  | ind w ih =>
    cases hn : n.parameter? with
    | some x =>
      obtain rfl : n = .expr (.parameter x) := by
        unfold parameter? at hn
        grind
      have hx : Rebound keeps above (.expr (.parameter x)) _ := .parameter above x
      simpa [show keeps above = true by simpa [hn] using hself] using hx
    | none =>
      refine .of_children hn (.refl n) (List.forall₂_same.2 fun c hc => ?_)
      have hlt := weight_lt_of_mem_children hc
      refine ih c.weight (hw ▸ hlt) c (.inr (hbelow [])) (fun below => ?_) rfl
      simpa using hbelow (below ++ [c])

/-- The expression at a place where parameters do not stay bound. -/
theorem Rebound.unbind {keeps : List Node → Bool} (e : Expr) {above : List Node}
    (hself : keeps above = false) (hbelow : ∀ below, keeps (below ++ .expr e :: above) = true) :
    Rebound keeps above (.expr e) (.expr e.unbind) := by
  cases e with
  | parameter x =>
    have hx : Rebound keeps above (.expr (.parameter x)) _ := .parameter above x
    simpa [hself, Expr.unbind, Parameter.unbind] using hx
  | _ => exact refl _ (.inl rfl) hbelow

/-- Places that do not lead from the statement down to an inserted value. -/
theorem not_isInserted {above : List Node}
    (hitem : ∀ into items q i,
      above.reverse ≠ [.statement (.insert into items q), .setItem i])
    (hcolumn : ∀ into items q q' c,
      above.reverse ≠ [.statement (.insert into items q), .query q', .column c]) :
    (!isInserted above) = true := by
  unfold isInserted
  split
  · exact absurd rfl (hitem _ _ _ _)
  · exact absurd rfl (hcolumn _ _ _ _ _)
  · rfl

end Node

section Inserted

open Node

theorem Query.rebound_unbindColumns (into : Table) (items : List SetItem) (q : Query) :
    Rebound (fun above => !isInserted above) [.statement (.insert into items q)] (.query q)
      (.query q.unbindColumns) := by
  have haligned : q.Aligned (fun _ _ => True) (fun _ _ => True) q.unbindColumns :=
    q.aligned_unbindColumns (fun _ => trivial) (fun _ => trivial) fun _ => trivial
  refine .of_children rfl (.query haligned) ?_
  simp only [children, List.append_assoc, unbindColumns, List.map_map]
  refine List.rel_append ?_ (List.forall₂_same.2 fun n hn => ?_)
  · simp only [List.forall₂_map_left_iff, List.forall₂_map_right_iff, List.forall₂_same]
    intro c _
    refine .of_children rfl (.column rfl) (.cons (.unbind _ rfl fun below => ?_) .nil)
    exact not_isInserted (by simp) (by simp)
  · -- No other clause is a column.
    have hne : ∀ c, n ≠ .column c := by
      rintro c rfl
      simp [ofOption] at hn
    exact .refl n (.inr rfl) fun below => not_isInserted (by simp) (by simp [hne])

theorem Statement.rebound_debindInsertParameters (s : Statement) :
    Rebound (fun above => !isInserted above) [] (.statement s)
      (.statement s.debindInsertParameters) := by
  cases s with
  | insert into items q =>
    have haligned : Statement.Aligned (fun _ _ => True) (fun _ _ => True) (fun _ _ => True) _ _ :=
      Statement.aligned_debindInsertParameters (fun _ => trivial) (fun _ => trivial) into items q
    refine .of_children rfl (.statement haligned) (.cons ?_ (List.rel_append ?_
      (.cons (q.rebound_unbindColumns into items) .nil)))
    · exact .refl _ (.inl rfl) fun below => not_isInserted (by simp) (by simp)
    · simp only [List.forall₂_map_left_iff, List.forall₂_map_right_iff, List.forall₂_same]
      intro i _
      refine .of_children rfl (.setItem rfl) (.cons (.unbind _ rfl fun below => ?_) .nil)
      exact not_isInserted (by simp) (by simp)
  | _ => exact .refl _ (.inl rfl) fun below => not_isInserted (by simp) (by simp)

end Inserted

/-- The passes that write parameters into the text succeed and change flags only. A parameter stays
bound unless it is a value or a column of an insertion itself, unless it is an argument of a call,
or never. -/
theorem Dialect.rebound_runPass (d : Dialect) (ctx : Context) (s : Statement) :
    (∃ s', d.runPass ctx .debindInsertParameters s = .ok s' ∧
      Node.Rebound (fun above => !Node.isInserted above) [] (.statement s) (.statement s')) ∧
    (∃ s', d.runPass ctx .inlineFunctionParameters s = .ok s' ∧
      Node.Rebound (fun above => !Node.isArgument above) [] (.statement s) (.statement s')) ∧
    ∃ s', d.runPass ctx .inlineAllParameters s = .ok s' ∧
      Node.Rebound (fun _ => false) [] (.statement s) (.statement s') :=
  ⟨⟨_, rfl, s.rebound_debindInsertParameters⟩, ⟨_, rfl, s.rebound_inlineFunctionParameters⟩,
    ⟨_, rfl, s.rebound_inlineAllParameters⟩⟩

end SqlTree
