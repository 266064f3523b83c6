import SqlTree.Dialect.Registry
import SqlTree.Lowering.Ordering
import SqlTree.Lowering.Parameters
import SqlTree.Lowering.Projection
import SqlTree.Lowering.RowNumber
import SqlTree.Lowering.SingleTable

/-! # Lowering

Main definitions:

* `Dialect.convertUp`, `Dialect.convertStatement`: the conversion of all expressions, children
  first.
* `Dialect.runPass`: one pass.
* `Dialect.lower`: all passes of a dialect, in order.
-/

namespace SqlTree

namespace Dialect

/-- The transformation by the conversion of the dialect. -/
def conversion (d : Dialect) (ctx : Context) : Transform (Except Error) where
  expr := d.convert ctx

/-- Convert an expression and all below it. -/
def convertUp (d : Dialect) (ctx : Context) (e : Expr) : Except Error Expr :=
  e.transform (d.conversion ctx)

/-- Convert all expressions of a statement. -/
def convertStatement (d : Dialect) (ctx : Context) (s : Statement) : Except Error Statement :=
  s.transform (d.conversion ctx)

/-- The effect of a pass on a statement. -/
def runPass (d : Dialect) (ctx : Context) (p : Pass) (s : Statement) : Except Error Statement :=
  match p with
  | .correctPagination => s.correctPagination
  | .singleTableDml => .ok s.toSingleTable
  | .fixEmptyProjection => .ok s.fixEmptyProjection
  | .emulatePagination => s.emulatePagination
  | .debindInsertParameters => .ok s.debindInsertParameters
  | .inlineFunctionParameters => .ok s.inlineFunctionParameters
  | .inlineAllParameters => .ok s.inlineAllParameters
  | .convertExpressions => d.convertStatement ctx s

/-- Whether the engine needs a pass: statements over several tables are left to an engine that has
them. -/
def needs (d : Dialect) (p : Pass) : Bool := !(p == .singleTableDml && d.capabilities.multiTableDml)

/-- Run the passes that the engine needs, one after another. The first failure ends the run. -/
def runPasses (d : Dialect) (ctx : Context) (l : PassList) (s : Statement) :
    Except Error Statement :=
  l.passes.foldlM (fun s p => if d.needs p then d.runPass ctx p s else .ok s) s

/-- Lower a statement for the engine. -/
def lower (d : Dialect) (config : Config) (ctx : Context) (s : Statement) :
    Except Error Statement :=
  d.runPasses ctx (d.passes config) s

end Dialect

end SqlTree
