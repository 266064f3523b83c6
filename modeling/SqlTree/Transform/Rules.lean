import SqlTree.Label
import SqlTree.Transform.Hooks

/-! # Rule sets

A rule names a hook and the labels of the nodes it is for, and says what becomes of such a node. A
walk with rules keeps a log of the hooks it calls, also if it fails.

Main definitions:

* `Rule`: what to do at a node.
* `Logged`: a walk with a log.
* `Rules.hooks`: the hooks of a rule set; `Rules.exprUp`, `Rules.exprDown`, `Rules.queryDown`: some
  of them.
* `Rules.runExpr`, `Rules.runQuery`, `Rules.runStatement`: walks deep enough for the tree and the
  rules.
-/

namespace SqlTree

inductive HookPoint where
  | enter
  | leave
deriving DecidableEq, Repr

def HookPoint.name : HookPoint → String
  | .enter => "enter"
  | .leave => "leave"

inductive RuleAction where
  /-- End the walk with an error. -/
  | fail
  /-- Leave the children alone. -/
  | stop
  | descend
deriving DecidableEq, Repr

structure Rule where
  /-- The name of the hook that the rule is for. -/
  hook : String
  pattern : String
  action : RuleAction
  /-- Takes the place of an expression. -/
  expr : Option Expr := none
  /-- Takes the place of a query. -/
  query : Option Query := none

/-- The size of the trees that a rule puts in place. -/
def Rule.weight (r : Rule) : Nat :=
  (r.expr.elim 0 fun e => (Node.expr e).weight) + r.query.elim 0 fun q => (Node.query q).weight

/-- A computation that keeps a log, the last entry first. -/
abbrev Logged := ExceptT Error (StateM (List String))

/-- The result of a walk and its log. -/
def Logged.result {α : Type} (x : Logged α) : Except Error α × List String :=
  let (result, log) := x.run []
  (result, log.reverse)

abbrev Rules := List Rule

namespace Rules

/-- The rule to apply at a node: the first that fits. A call of the hook is logged. -/
def select (rules : Rules) (point : HookPoint) (label : String) : Logged (Option Rule) := do
  let entry := point.name ++ " " ++ label
  modify (entry :: ·)
  let rule := rules.find? fun r => r.hook == point.name && Label.matches r.pattern label
  match rule.map Rule.action with
  | some .fail => throw (.internal entry)
  | _ => return rule

/-- The decision of an optional rule. -/
def step {α : Type} (rule : Option Rule) (node : α) : Step α :=
  match rule.map Rule.action with
  | some .stop => .stop node
  | _ => .descend node

def applyExpr (rules : Rules) (point : HookPoint) (e : Expr) : Logged (Step Expr) := do
  let rule ← rules.select point e.label
  return step rule ((rule.bind Rule.expr).getD e)

def applyQuery (rules : Rules) (point : HookPoint) (q : Query) : Logged (Step Query) := do
  let rule ← rules.select point q.label
  return step rule ((rule.bind Rule.query).getD q)

end Rules

/-- The node that a hook puts in place. -/
def Step.node {α : Type} : Step α → α
  | .descend node => node
  | .stop node => node

namespace Rules

def leaveExpr (rules : Rules) (e : Expr) : Logged Expr := return (← rules.applyExpr .leave e).node

def leaveQuery (rules : Rules) (q : Query) : Logged Query :=
  return (← rules.applyQuery .leave q).node

/-- All hooks. -/
def hooks (rules : Rules) : Hooks Logged where
  enterExpr := rules.applyExpr .enter
  leaveExpr := rules.leaveExpr
  enterQuery := rules.applyQuery .enter
  leaveQuery := rules.leaveQuery

/-- Expressions after their children only. -/
def exprUp (rules : Rules) : Hooks Logged where
  leaveExpr := rules.leaveExpr

/-- Expressions before their children only. -/
def exprDown (rules : Rules) : Hooks Logged where
  enterExpr := rules.applyExpr .enter

/-- Queries before their children, by the rules for queries that are left. -/
def queryDown (rules : Rules) : Hooks Logged where
  enterQuery q := return .descend (← rules.leaveQuery q)

/-- A depth that a walk over a node cannot pass if each rule acts at most once on a path. -/
def limit (rules : Rules) (n : Node) : Nat := rules.foldl (fun total r => total + r.weight) n.weight

def runExpr (rules : Rules) (h : Hooks Logged) (e : Expr) : Logged Expr :=
  h.onExpr (rules.limit (.expr e)) e

def runQuery (rules : Rules) (h : Hooks Logged) (q : Query) : Logged Query :=
  h.onQuery (rules.limit (.query q)) q

def runStatement (rules : Rules) (h : Hooks Logged) (s : Statement) : Logged Statement :=
  h.onStatement (rules.limit (.statement s)) s

end Rules

end SqlTree
