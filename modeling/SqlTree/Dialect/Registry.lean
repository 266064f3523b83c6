import SqlTree.Dialect.SqlCe

/-! # Custom dialects and their registry

A custom dialect is made from a built-in one and registered under a name of its own.

Main definitions:

* `DialectKind.dialect`: the built-in dialects.
* `CustomDialect`: what a custom dialect changes.
* `Registry`: the custom dialects by name.
* `Registry.register`, `Registry.unregister`, `Registry.find?`: its operations.
* `FunctionNames.convert`: a conversion by the names of functions.
-/

namespace SqlTree

/-- The built-in dialect of an engine. -/
def DialectKind.dialect : DialectKind → Dialect
  | .generic => { name := DialectKind.generic.name, kind := .generic }
  | .sqlCe => SqlCe.dialect

/-- What a dialect changes of the built-in one it is based on. -/
structure CustomDialect where
  name : String
  base : DialectKind := .generic
  capabilities : CapabilityChange := {}
  likeEscapes : Option (List String) := none
  /-- Comes after the conversion of the base. -/
  convert : Expr → Except Error Expr := .ok
  edits : List PassEdit := []

def CustomDialect.dialect (c : CustomDialect) : Dialect :=
  let base := c.base.dialect
  { name := c.name
    kind := base.kind
    capabilities := base.capabilities.change c.capabilities
    likeEscapes := c.likeEscapes.getD base.likeEscapes
    edits := c.edits
    convert := fun ctx e => do c.convert (← base.convert ctx e) }

/-- Custom dialects by name, each name once. -/
structure Registry where
  entries : List (String × Dialect) := []

namespace Registry

def contains (r : Registry) (name : String) : Bool := (r.entries.lookup name).isSome

/-- Add a dialect under a name that is free. -/
def register (r : Registry) (c : CustomDialect) : Except Error Registry :=
  if (DialectKind.ofName? c.name).isSome then .error (.builtInName c.name)
  else if r.contains c.name then .error (.alreadyRegistered c.name)
  else .ok ⟨(c.name, c.dialect) :: r.entries⟩

/-- Whether there is a dialect with the name, and the registry without it. -/
def unregister (r : Registry) (name : String) : Bool × Registry :=
  (r.contains name, ⟨r.entries.filter fun e => e.1 != name⟩)

/-- The dialect with a name. The built-in ones come first. -/
def find? (r : Registry) (name : String) : Option Dialect :=
  match DialectKind.ofName? name with
  | some k => some k.dialect
  | none => r.entries.lookup name

/-- The dialect with a name, or the error that there is none. -/
def find (r : Registry) (name : String) : Except Error Dialect :=
  match r.find? name with
  | some d => .ok d
  | none => .error (.unknownDialect name)

end Registry

/-- New names of functions and a function that the engine lacks. Names are found in any case of
ASCII letters. -/
structure FunctionNames where
  unsupported : Option String := none
  renames : List (String × String) := []

namespace FunctionNames

/-- The function under its new name. -/
def convert (names : FunctionNames) : Expr → Except Error Expr
  | .call name t args flags =>
    if names.unsupported.any fun n => n.toLower == name.toLower then
      .error (.internal ("unsupported function " ++ name))
    else
      match names.renames.find? fun r => r.1.toLower == name.toLower with
      | some (_, new) => .ok (.call new t args flags)
      | none => .ok (.call name t args flags)
  | e => .ok e

end FunctionNames

end SqlTree
