import SqlTree.DataType

/-! # Tables

Physical tables with the fields that are known of them.

Main definitions:

* `Field`, `Table`: the definitions of a field and of a table.
* `Table.keyFields`: the fields that identify a row.
* `Table.ofName`: the table with a dotted name.
-/

namespace SqlTree

/-- A field of a table; `keyOrdinal` is its position in the primary key, if it belongs to it. -/
structure Field where
  name : String
  dataType : DataType
  nullable : Bool := true
  keyOrdinal : Option Nat := none
deriving DecidableEq, Repr

/-- The field as the member of the primary key at `ordinal`, which excludes NULL. -/
def Field.primaryKey (f : Field) (ordinal : Nat) : Field :=
  { f with keyOrdinal := some ordinal, nullable := false }

def Field.notNull (f : Field) : Field := { f with nullable := false }

structure Table where
  name : String
  schema : Option String := none
  database : Option String := none
  server : Option String := none
  temporary : Bool := false
  fields : List Field := []
deriving DecidableEq, Repr

namespace Table

/-- The table with one more field. -/
def withField (t : Table) (f : Field) : Table := { t with fields := t.fields ++ [f] }

def field? (t : Table) (name : String) : Option Field := t.fields.find? (·.name == name)

/-- Comparison of two fields by their position in the key. -/
def keyLe (a b : Field) : Bool := decide (a.keyOrdinal.getD 0 ≤ b.keyOrdinal.getD 0)

/-- The members of the primary key in key order, or all fields if no key is known. -/
def keyFields (t : Table) : List Field :=
  match t.fields.filter (·.keyOrdinal.isSome) with
  | [] => t.fields
  | keys => keys.mergeSort keyLe

/-- The table named `server.database.schema.table`, of which all but the last part may be missing.
Parts further in front do not count. -/
def ofName (name : String) : Table :=
  match (name.splitOn ".").reverse with
  | [] => { name := "" }
  | table :: qualifiers =>
    { name := table
      schema := qualifiers[0]?
      database := qualifiers[1]?
      server := qualifiers[2]? }

end Table

end SqlTree
