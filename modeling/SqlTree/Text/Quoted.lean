import SqlTree.Text.HiddenData
import SqlTree.Text.Ranges

/-! # Quoted text for descriptions

A description shows every character of a text: those that have no shape of their own, or that would
change the look of the one before them, are written by their code points.

Main definitions:

* `isHidden`, `isExtender`: the two classes of such characters.
* `quoted`: a text in double quotes.
-/

namespace SqlTree.Text

/-- Whether a character shows nothing or nothing fixed. -/
def isHidden (c : Char) : Bool := inRanges hiddenRanges c.toNat

/-- Whether a character joins the one before it. -/
def isExtender (c : Char) : Bool := inRanges extenderRanges c.toNat

/-- A code point in hexadecimal digits. -/
def codePoint (c : Char) : List Char := ['\\', 'u', '\x7b'] ++ Nat.toDigits 16 c.toNat ++ ['\x7d']

/-- A character as it stands inside quotes. -/
def quotedChar (c : Char) : List Char :=
  match c with
  | '"' => ['\\', '"']
  | '\\' => ['\\', '\\']
  | '\n' => ['\\', 'n']
  | '\r' => ['\\', 'r']
  | '\t' => ['\\', 't']
  | _ =>
    if c.toNat = 0 then ['\\', '0']
    else if isHidden c || isExtender c then codePoint c
    else [c]

def quoted (s : String) : String :=
  String.ofList ('"' :: (s.toList.flatMap quotedChar ++ ['"']))

end SqlTree.Text
