import SqlTree.Dialect.Capabilities
import SqlTree.Error
import SqlTree.Fold.Basic
import SqlTree.Text.Quoted

/-! # Dialects

Main definitions:

* `DialectKind`: the engines that are known, and their names.
* `Dialect`: the profile of an engine.
* `Dialect.passes`: the passes of a dialect.
-/

namespace SqlTree

inductive DialectKind where
  /-- An engine that can express everything. -/
  | generic
  /-- SQL Server Compact Edition. -/
  | sqlCe
deriving DecidableEq, Repr

instance : Inhabited DialectKind := ⟨.generic⟩

namespace DialectKind

def all : List DialectKind := [.generic, .sqlCe]

def name : DialectKind → String
  | .generic => "generic"
  | .sqlCe => "sqlce"

/-- The name of the constructor in a description. -/
def title : DialectKind → String
  | .generic => "Generic"
  | .sqlCe => "SqlCe"

/-- The engine with a name, in any case of ASCII letters. -/
def ofName? (name : String) : Option DialectKind :=
  match name.toLower with
  | "generic" => some .generic
  | "sqlce" => some .sqlCe
  | "sql_ce" => some .sqlCe
  | "sqlserverce" => some .sqlCe
  | _ => none

/-- The engine with a name, or the error that there is none. -/
def ofName (name : String) : Except Error DialectKind :=
  match ofName? name with
  | some k => .ok k
  | none => .error (.unknownDialect name)

end DialectKind

/-- The characters with a meaning in the patterns of most engines. -/
def likeCharacters : List String := ["%", "_", "?", "*", "#", "[", "]"]

/-- The profile of an engine: what it can express, and how expressions are written for it. -/
structure Dialect where
  name : String
  kind : DialectKind
  capabilities : Capabilities := {}
  /-- The characters to escape in a pattern. -/
  likeEscapes : List String := likeCharacters
  /-- Changes of the pass list that follows from the capabilities. -/
  edits : List PassEdit := []
  /-- The form of an expression whose children are converted. -/
  convert : Context → Expr → Except Error Expr := fun _ e => .ok e

namespace Dialect

def passes (d : Dialect) (config : Config) : PassList :=
  PassEdit.runAll d.edits (defaultPasses d.capabilities config)

/-- A short description. -/
def describe (d : Dialect) : String :=
  "Dialect \x7b name: " ++ Text.quoted d.name ++ ", dialect_type: " ++ d.kind.title ++ " \x7d"

end Dialect

end SqlTree
