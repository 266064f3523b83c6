import SqlTree.Expr
import SqlTree.Pass

/-! # Errors

Main definitions:

* `NodeRef`: the place in a tree that an error is about.
* `Error`: the causes of a failure.
* `Error.message`: the wording.
-/

namespace SqlTree

def QueryId.text (id : QueryId) : String := "query #" ++ Decimal.integer id.val

def SourceId.text (id : SourceId) : String := "source #" ++ Decimal.integer id.val

inductive NodeRef where
  | statement
  | query (id : QueryId)
  | source (id : SourceId)
deriving DecidableEq, Repr

def NodeRef.text : NodeRef → String
  | .statement => "statement"
  | .query id => id.text
  | .source id => id.text

inductive Error where
  /-- A pass met a tree that it cannot lower. -/
  | pass (pass : Pass) (node : NodeRef) (reason : String)
  | unknownDialect (name : String)
  /-- The name of a new dialect belongs to a built-in one. -/
  | builtInName (name : String)
  /-- The name of a new dialect is taken. -/
  | alreadyRegistered (name : String)
  | registration (reason : String)
  | internal (reason : String)
  /-- A number does not fit 64 bits, and there is no going on. -/
  | overflow
deriving DecidableEq, Repr

namespace Error

def message : Error → String
  | .pass p node reason => p.name ++ " failed at " ++ node.text ++ ": " ++ reason
  | .unknownDialect name => "Unknown dialect: " ++ name
  | .builtInName name =>
    "Dialect registration error: Custom dialect name '" ++ name ++
      "' collides with built-in dialect"
  | .alreadyRegistered name =>
    "Dialect registration error: Custom dialect '" ++ name ++ "' is already registered"
  | .registration reason => "Dialect registration error: " ++ reason
  | .internal reason => "Internal error: " ++ reason
  | .overflow => "Arithmetic overflow"

/-- A query skips rows and there is nothing to order them by. -/
def missingOrdering (id : QueryId) : Error :=
  .pass .correctPagination (.query id) "pagination requires ordering"

end Error

end SqlTree
