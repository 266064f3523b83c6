import SqlTree.Codec.Literal
import SqlTree.Dialect.Basic

/-! # JSON form of passes and profiles

Main definitions:

* `Pass.toJson`, `DialectKind.toJson`, `Capabilities.toJson`, `Config.toJson`: writing.
* `Pass.ofJson?`, `DialectKind.ofJson?`, `Capabilities.ofJson?`, `Config.ofJson?`: reading.
* `CapabilityChange.ofJson?`: capabilities set over those of a base.
* `Context.ofJson?`: the values of parameters by name.
-/

namespace SqlTree

def Pass.toJson (p : Pass) : Json := .string p.name

def Pass.ofJson? (j : Json) : Option Pass := j.choice? fun s => all.find? (·.name == s)

def PassList.toJson (l : PassList) : Json := .array (l.passes.map Pass.toJson)

namespace DialectKind

def tag : DialectKind → String
  | .generic => "generic"
  | .sqlCe => "sql_ce"

def toJson (k : DialectKind) : Json := .string k.tag

def ofJson? (j : Json) : Option DialectKind := j.choice? fun s => all.find? (·.tag == s)

end DialectKind

namespace Capabilities

/-- The names of the capabilities. -/
def names : List String :=
  ["supports_offset_fetch", "bound_parameters_in_functions", "bound_parameters_in_insert_columns",
    "supports_multi_table_dml"]

def toJson (c : Capabilities) : Json :=
  .object [("supports_offset_fetch", .bool c.offsetFetch),
    ("bound_parameters_in_functions", .bool c.parametersInFunctions),
    ("bound_parameters_in_insert_columns", .bool c.parametersInInsert),
    ("supports_multi_table_dml", .bool c.multiTableDml)]

def ofJson? (j : Json) : Option Capabilities := do
  let r ← j.record? names
  return {
    offsetFetch := ← Json.defaulted Json.bool? true r "supports_offset_fetch"
    parametersInFunctions := ← Json.defaulted Json.bool? true r "bound_parameters_in_functions"
    parametersInInsert := ← Json.defaulted Json.bool? true r "bound_parameters_in_insert_columns"
    multiTableDml := ← Json.defaulted Json.bool? true r "supports_multi_table_dml" }

end Capabilities

/-- The capabilities to set, each a field that may be absent or `null`. -/
def CapabilityChange.ofJson? (j : Json) : Option CapabilityChange := do
  let r ← j.record? Capabilities.names
  return {
    offsetFetch := ← Json.optional Json.bool? r "supports_offset_fetch"
    parametersInFunctions := ← Json.optional Json.bool? r "bound_parameters_in_functions"
    parametersInInsert := ← Json.optional Json.bool? r "bound_parameters_in_insert_columns"
    multiTableDml := ← Json.optional Json.bool? r "supports_multi_table_dml" }

namespace Config

def toJson (c : Config) : Json :=
  .object [("inline_function_parameters", .bool c.inlineFunctionParameters),
    ("inline_parameters", .bool c.inlineParameters)]

def ofJson? (j : Json) : Option Config := do
  let r ← j.record? ["inline_function_parameters", "inline_parameters"]
  return {
    inlineFunctionParameters :=
      ← Json.defaulted Json.bool? false r "inline_function_parameters"
    inlineParameters := ← Json.defaulted Json.bool? false r "inline_parameters" }

end Config

/-- Values of parameters from an object with a literal for each name. -/
def Context.ofJson? : Json → Option Context
  | .object fields => do
    return ⟨← fields.mapM fun (name, j) => return (name, ← Literal.ofJson? j)⟩
  | _ => none

end SqlTree
