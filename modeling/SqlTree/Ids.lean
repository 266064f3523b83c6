import SqlTree.Node

/-! # New ids

Main definitions:

* `Ids`: the next ids to give out.
* `Ids.after`: ids that do not occur in a tree.
* `Ids.drawQuery`, `Ids.drawSource`, `Ids.drawSources`: taking ids.
-/

namespace SqlTree

/-- The ids that come next. All ids from there on are free. -/
structure Ids where
  nextQuery : Nat := 1
  nextSource : Nat := 1
deriving DecidableEq, Repr

namespace Ids

/-- The number after an id, unless the id is the largest. -/
def succ (id : Nat) : Nat := min (id + 1) maxId

/-- The ids past that of one node. -/
def past (ids : Ids) : Node → Ids
  | .query q => { ids with nextQuery := max ids.nextQuery (succ q.id.val) }
  | .source s => { ids with nextSource := max ids.nextSource (succ s.id.val) }
  | _ => ids

/-- The ids past all those at and below a node. -/
def reserve (ids : Ids) (n : Node) : Ids := n.walk.foldl past ids

/-- The first ids that do not occur at or below a node. -/
def after (n : Node) : Ids := ({} : Ids).reserve n

def drawQuery (ids : Ids) : QueryId × Ids :=
  (⟨ids.nextQuery⟩, { ids with nextQuery := ids.nextQuery + 1 })

def drawSource (ids : Ids) : SourceId × Ids :=
  (⟨ids.nextSource⟩, { ids with nextSource := ids.nextSource + 1 })

/-- Take `n` source ids in a row. The result is the first of them. -/
def drawSources (n : Nat) (ids : Ids) : Nat × Ids :=
  (ids.nextSource, { ids with nextSource := ids.nextSource + n })

end Ids

end SqlTree
