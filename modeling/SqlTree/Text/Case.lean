import SqlTree.Text.CaseData
import SqlTree.Text.Ranges

/-! # Letter case of whole texts

Upper and lower case follow the full mappings of Unicode: one letter may become several (`ß` has the
upper case `SS`), and a capital sigma at the end of a word has a lower case of its own.

Main definitions:

* `upper`, `lower`: case mapping of a text.
* `isFinalSigma`: the context in which a capital sigma becomes `ς`.
-/

namespace SqlTree.Text

/-- The mapping of one letter, from the sequences first and the runs after them. -/
def mapLetter (expansions : List (Nat × List Nat)) (runs : List CaseRun) (c : Char) : List Char :=
  match expansions.lookup c.toNat with
  | some image => image.map Char.ofNat
  | none =>
    match runs.findSome? (·.image? c.toNat) with
    | some n => [Char.ofNat n]
    | none => [c]

def upperLetter (c : Char) : List Char := mapLetter upperExpansions upperRuns c

def lowerLetter (c : Char) : List Char := mapLetter lowerExpansions lowerRuns c

def isCased (c : Char) : Bool := inRanges casedRanges c.toNat

def isCaseIgnorable (c : Char) : Bool := inRanges caseIgnorableRanges c.toNat

/-- Whether the first letter that case ignores not is cased. -/
def meetsCased (cs : List Char) : Bool :=
  match cs.dropWhile isCaseIgnorable with
  | [] => false
  | c :: _ => isCased c

/-- A sigma ends a word when a cased letter comes before it and none after it. The letters before it
are given nearest first. -/
def isFinalSigma (before after : List Char) : Bool :=
  meetsCased before && !meetsCased after

/-- Lower case of `rest`, where `before` holds the letters already passed, nearest first. -/
def lowerFrom (before : List Char) : List Char → List Char
  | [] => []
  | c :: rest =>
    let image :=
      if c = 'Σ' then (if isFinalSigma before rest then ['ς'] else ['σ']) else lowerLetter c
    image ++ lowerFrom (c :: before) rest

/-- The text in upper case. -/
def upper (s : String) : String := String.ofList (s.toList.flatMap upperLetter)

/-- The text in lower case. -/
def lower (s : String) : String := String.ofList (lowerFrom [] s.toList)

end SqlTree.Text
