import SqlTree.Pass

/-! # Capabilities of an engine

Main definitions:

* `Capabilities`: what an engine can express.
* `Config`: what the application asks for beyond that.
* `defaultPasses`: the passes that follow from both.
-/

namespace SqlTree

/-- What an engine can express. By default it can express everything. -/
structure Capabilities where
  /-- A query can skip rows and bound their number. -/
  offsetFetch : Bool := true
  /-- Parameters can be bound among the arguments of a function. -/
  parametersInFunctions : Bool := true
  /-- Parameters can be bound among inserted values. -/
  parametersInInsert : Bool := true
  /-- Rows can be deleted and updated over joined sources. -/
  multiTableDml : Bool := true
deriving DecidableEq, Repr

/-- Capabilities to set; the others stay as they are. -/
structure CapabilityChange where
  offsetFetch : Option Bool := none
  parametersInFunctions : Option Bool := none
  parametersInInsert : Option Bool := none
  multiTableDml : Option Bool := none
deriving DecidableEq, Repr

def Capabilities.change (c : Capabilities) (d : CapabilityChange) : Capabilities where
  offsetFetch := d.offsetFetch.getD c.offsetFetch
  parametersInFunctions := d.parametersInFunctions.getD c.parametersInFunctions
  parametersInInsert := d.parametersInInsert.getD c.parametersInInsert
  multiTableDml := d.multiTableDml.getD c.multiTableDml

/-- Which parameters to write into the text, whatever the engine can bind. -/
structure Config where
  inlineFunctionParameters : Bool := false
  inlineParameters : Bool := false
deriving DecidableEq, Repr

/-- The list with a pass at the end, if a condition holds. -/
def PassList.pushIf (l : PassList) (condition : Bool) (p : Pass) : PassList :=
  if condition then l.push p else l

/-- The base passes, then those that the engine lacks a capability for or the application asks for,
then the conversion of expressions. -/
def defaultPasses (c : Capabilities) (config : Config) : PassList :=
  PassList.base
    |>.pushIf (!c.offsetFetch) .emulatePagination
    |>.pushIf (!c.parametersInInsert) .debindInsertParameters
    |>.pushIf (config.inlineFunctionParameters || !c.parametersInFunctions)
      .inlineFunctionParameters
    |>.pushIf config.inlineParameters .inlineAllParameters
    |>.push .convertExpressions

end SqlTree
