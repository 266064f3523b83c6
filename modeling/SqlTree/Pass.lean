/-! # Passes and pass lists

A pass is a named step of the lowering. The order of the steps is data: every list starts from the
base passes, and others are put in around them.

Main definitions:

* `Pass`: the steps.
* `PassList`: an ordered list of steps, each at most once.
* `PassList.push`, `PassList.insertBefore`, `PassList.insertAfter`: one more step.
-/

namespace SqlTree

inductive Pass where
  /-- Give every query that skips rows an ordering. -/
  | correctPagination
  /-- Give a deletion or an update over several tables the shape of one over a single table. -/
  | singleTableDml
  /-- Give every grouped query a column. -/
  | fixEmptyProjection
  /-- Express row bounds by row numbers. -/
  | emulatePagination
  /-- Write the parameters among inserted values into the text. -/
  | debindInsertParameters
  /-- Write the parameters among function arguments into the text. -/
  | inlineFunctionParameters
  /-- Write all parameters into the text. -/
  | inlineAllParameters
  /-- Apply the conversions of the dialect to every expression. -/
  | convertExpressions
deriving DecidableEq, Repr

namespace Pass

def all : List Pass :=
  [.correctPagination, .singleTableDml, .fixEmptyProjection, .emulatePagination,
    .debindInsertParameters, .inlineFunctionParameters, .inlineAllParameters, .convertExpressions]

def name : Pass → String
  | .correctPagination => "correct_pagination"
  | .singleTableDml => "rewrite_dml"
  | .fixEmptyProjection => "fix_empty_projection"
  | .emulatePagination => "emulate_pagination"
  | .debindInsertParameters => "debind_insert_parameters"
  | .inlineFunctionParameters => "inline_function_parameters"
  | .inlineAllParameters => "inline_all_parameters"
  | .convertExpressions => "convert_expressions"

/-- The passes that run for every dialect, in order. A grouped query that skips rows gets its
columns from the first of them, so that the last finds a projection. -/
def base : List Pass := [.correctPagination, .singleTableDml, .fixEmptyProjection]

def isBase (p : Pass) : Bool := base.contains p

end Pass

/-- The passes to run, in order. -/
structure PassList where
  passes : List Pass
deriving DecidableEq, Repr

namespace PassList

def base : PassList := ⟨Pass.base⟩

instance : Inhabited PassList := ⟨base⟩

def contains (l : PassList) (p : Pass) : Bool := l.passes.contains p

/-- Add a pass at the end, unless it is there already. -/
def push (l : PassList) (p : Pass) : PassList := if l.contains p then l else ⟨l.passes ++ [p]⟩

/-- The list with `p` right before the first `anchor`, or at the end if there is none. -/
def placeBefore (anchor p : Pass) : List Pass → List Pass
  | [] => [p]
  | q :: qs => if q = anchor then p :: q :: qs else q :: placeBefore anchor p qs

/-- The list with `p` right after the first `anchor`, or at the end if there is none. -/
def placeAfter (anchor p : Pass) : List Pass → List Pass
  | [] => [p]
  | q :: qs => if q = anchor then q :: p :: qs else q :: placeAfter anchor p qs

/-- Add a pass before `anchor`, unless it is there already. -/
def insertBefore (l : PassList) (anchor p : Pass) : PassList :=
  if l.contains p then l else ⟨placeBefore anchor p l.passes⟩

/-- Add a pass after `anchor`, unless it is there already. -/
def insertAfter (l : PassList) (anchor p : Pass) : PassList :=
  if l.contains p then l else ⟨placeAfter anchor p l.passes⟩

end PassList

/-- A change of a pass list. -/
inductive PassEdit where
  | push (pass : Pass)
  | insertBefore (anchor pass : Pass)
  | insertAfter (anchor pass : Pass)
deriving DecidableEq, Repr

namespace PassEdit

def run (l : PassList) : PassEdit → PassList
  | .push p => l.push p
  | .insertBefore anchor p => l.insertBefore anchor p
  | .insertAfter anchor p => l.insertAfter anchor p

/-- Several changes, one after another. -/
def runAll (edits : List PassEdit) (l : PassList) : PassList := edits.foldl run l

end PassEdit

end SqlTree
