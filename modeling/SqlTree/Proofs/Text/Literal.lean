import SqlTree.Literal

/-! # Reading string literals

An engine that meets a quote reads on to the end of the literal: two quotes stand for one, and the
first quote that stands alone ends it. What it reads of the text of a string is the string, and it
stops at the last character of the text, whatever quotes are in the string.

Main definitions:

* `Scanned`: a literal at the front of a text.
* `scanString?`: the reader.

Main statements:

* `scanString?_eq_some`: it accepts the texts of strings and nothing else.
* `Literal.scanString?_text`: the text of a string is read as the string, up to its last character.
-/

namespace SqlTree

/-- A literal at the front of a text: its own text with the quotes, its value, and the text after
it. -/
structure Scanned where
  lexeme : List Char
  value : List Char
  rest : List Char
deriving DecidableEq, Repr

/-- The literal with one more character in front, which is written as `written`. -/
def Scanned.after (written : List Char) (c : Char) (k : Scanned) : Scanned :=
  { k with lexeme := written ++ k.lexeme, value := c :: k.value }

/-- The literal from the character after the opening quote on. -/
def scanBody? : List Char → Option Scanned
  | [] => none
  | '\'' :: '\'' :: cs => (scanBody? cs).map (.after ['\'', '\''] '\'')
  | '\'' :: cs => some { lexeme := ['\''], value := [], rest := cs }
  | c :: cs => (scanBody? cs).map (.after [c] c)

/-- The literal at the front of a text, if the text starts with a quote and the literal ends. -/
def scanString? : List Char → Option Scanned
  | '\'' :: cs => (scanBody? cs).map fun k => { k with lexeme := '\'' :: k.lexeme }
  | _ => none

namespace Literal

variable {cs : List Char}

@[simp] theorem doubleQuotes_quote : doubleQuotes ('\'' :: cs) = '\'' :: '\'' :: doubleQuotes cs :=
  rfl

@[simp] theorem doubleQuotes_cons {c : Char} (h : c ≠ '\'') :
    doubleQuotes (c :: cs) = c :: doubleQuotes cs := by
  rw [doubleQuotes]
  exact h

end Literal

open Literal

section Body

variable {c : Char} {cs r : List Char} {k : Scanned}

theorem scanBody?_quote (h : r.head? ≠ some '\'') :
    scanBody? ('\'' :: r) = some { lexeme := ['\''], value := [], rest := r } := by
  cases r with
  | nil => rfl
  | cons d r =>
    have hd : d ≠ '\'' := by simpa using h
    simp [scanBody?, hd]

theorem scanBody?_cons (h : c ≠ '\'') :
    scanBody? (c :: cs) = (scanBody? cs).map (.after [c] c) := by
  simp [scanBody?, h]

/-- Quotes are read in pairs as long as those of the string last, so that the closing one stands
alone. -/
theorem scanBody?_doubleQuotes (cs : List Char) (hr : r.head? ≠ some '\'') :
    scanBody? (doubleQuotes cs ++ '\'' :: r) =
      some { lexeme := doubleQuotes cs ++ ['\''], value := cs, rest := r } := by
  induction cs with
  | nil => exact scanBody?_quote hr
  | cons c cs ih =>
    by_cases hc : c = '\''
    · subst hc
      simp [scanBody?, ih, Scanned.after]
    · simp [scanBody?_cons, hc, ih, Scanned.after]

theorem eq_of_scanBody? (h : scanBody? cs = some k) :
    k.lexeme = doubleQuotes k.value ++ ['\''] ∧ cs = k.lexeme ++ k.rest ∧
      k.rest.head? ≠ some '\'' := by
  fun_induction scanBody? cs generalizing k with
  | case1 => cases h
  | case2 cs ih =>
    obtain ⟨k', hk', rfl⟩ := Option.map_eq_some_iff.1 h
    obtain ⟨hlexeme, hcs, hrest⟩ := ih hk'
    exact ⟨by simp [Scanned.after, hlexeme], by simp [Scanned.after, ← hcs], hrest⟩
  | case3 cs hcs =>
    cases h
    refine ⟨rfl, rfl, fun hhead => ?_⟩
    obtain ⟨cs', rfl⟩ := List.head?_eq_some_iff.1 hhead
    exact hcs cs' rfl
  | case4 c cs hpair hquote ih =>
    obtain ⟨k', hk', rfl⟩ := Option.map_eq_some_iff.1 h
    obtain ⟨hlexeme, hcs, hrest⟩ := ih hk'
    have hc : c ≠ '\'' := hquote
    exact ⟨by simp [Scanned.after, hlexeme, hc], by simp [Scanned.after, ← hcs], hrest⟩

end Body

/-- A text starts with a literal if it starts with the text of a string, after which no quote
follows. -/
theorem scanString?_eq_some {cs : List Char} {k : Scanned} :
    scanString? cs = some k ↔
      k.lexeme = (quotedText (String.ofList k.value)).toList ∧ cs = k.lexeme ++ k.rest ∧
        k.rest.head? ≠ some '\'' := by
  simp only [quotedText, String.toList_ofList]
  constructor
  · intro h
    unfold scanString? at h
    split at h
    · obtain ⟨k', hk', rfl⟩ := Option.map_eq_some_iff.1 h
      obtain ⟨hlexeme, hcs, hrest⟩ := eq_of_scanBody? hk'
      exact ⟨congrArg _ hlexeme, congrArg _ hcs, hrest⟩
    · cases h
  · rintro ⟨hlexeme, rfl, hrest⟩
    have hbody := scanBody?_doubleQuotes k.value hrest
    rw [hlexeme, List.cons_append, List.append_assoc, List.singleton_append, scanString?, hbody,
      Option.map_some, ← hlexeme]

/-- The text of a string is read as the string, up to its last character, if and only if no quote
follows it, and different strings have different texts. -/
theorem Literal.scanString?_text (s r : String) :
    (scanString? ((string s).text ++ r).toList =
        some { lexeme := (string s).text.toList, value := s.toList, rest := r.toList } ↔
      r.toList.head? ≠ some '\'') ∧
      ∀ s', (string s').text = (string s).text → s' = s := by
  have hscan : ∀ s r : String, scanString? ((string s).text ++ r).toList =
      some { lexeme := (string s).text.toList, value := s.toList, rest := r.toList } ↔
        r.toList.head? ≠ some '\'' := by
    intro s r
    simp [scanString?_eq_some, text]
  refine ⟨hscan s r, fun s' h => ?_⟩
  have hs := (hscan s "").2 (by simp)
  have hs' := (hscan s' "").2 (by simp)
  rw [h, hs] at hs'
  exact String.toList_inj.1 (congrArg Scanned.value (Option.some.inj hs')).symm

end SqlTree
