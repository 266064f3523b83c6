import SqlTree.Json.Text
import SqlTree.Proofs.Number.Digits

/-! # Texts of JSON values

The text of a value is read as the value, provided that no object has two fields of one name: of
these only the last one is read.

Main definitions:

* `Json.chars`: the characters of the text of a value.
* `Json.Distinct`: the names of fields are distinct in all objects.

Main statements:

* `Json.toList_render`: the text has these characters.
* `Json.readNumber?_numberText`, `Json.readString?_escaped`: numbers and strings, whatever follows.
* `Json.parse?_render`: the text of a value is read as the value.
-/

namespace SqlTree.Json

/-! Characters. -/

mutual

/-- The characters of the text of a value. -/
def chars : Json → List Char
  | .null => ['n', 'u', 'l', 'l']
  | .bool true => ['t', 'r', 'u', 'e']
  | .bool false => ['f', 'a', 'l', 's', 'e']
  | .number n => (numberText n).toList
  | .string s => (quoted s).toList
  | .array items => '[' :: (itemsChars items ++ [']'])
  | .object fields => '\x7b' :: (fieldsChars fields ++ ['\x7d'])

def itemsChars : List Json → List Char
  | [] => []
  | j :: js => j.chars ++ laterItemsChars js

/-- The characters of items after the first one. -/
def laterItemsChars : List Json → List Char
  | [] => []
  | j :: js => ',' :: (j.chars ++ laterItemsChars js)

def fieldsChars : Fields → List Char
  | [] => []
  | (name, j) :: fields => (quoted name).toList ++ ':' :: (j.chars ++ laterFieldsChars fields)

/-- The characters of fields after the first one. -/
def laterFieldsChars : Fields → List Char
  | [] => []
  | (name, j) :: fields =>
    ',' :: ((quoted name).toList ++ ':' :: (j.chars ++ laterFieldsChars fields))

end

mutual

theorem toList_renderOnto (out : String) :
    ∀ j, (renderOnto out j).toList = out.toList ++ j.chars
  | .null => by simp [renderOnto, chars]
  | .bool true => by simp [renderOnto, chars]
  | .bool false => by simp [renderOnto, chars]
  | .number n => by simp [renderOnto, chars]
  | .string s => by simp [renderOnto, chars]
  | .array items => by simp [renderOnto, chars, toList_renderItems]
  | .object fields => by simp [renderOnto, chars, toList_renderFields]

theorem toList_renderItems (out : String) :
    ∀ items, (renderItems out true items).toList = out.toList ++ itemsChars items
  | [] => by simp [renderItems, itemsChars]
  | j :: js => by
    simp [renderItems, itemsChars, toList_renderLaterItems _ js, toList_renderOnto _ j]

theorem toList_renderLaterItems (out : String) :
    ∀ items, (renderItems out false items).toList = out.toList ++ laterItemsChars items
  | [] => by simp [renderItems, laterItemsChars]
  | j :: js => by
    simp [renderItems, laterItemsChars, toList_renderLaterItems _ js, toList_renderOnto _ j]

theorem toList_renderFields (out : String) :
    ∀ fields, (renderFields out true fields).toList = out.toList ++ fieldsChars fields
  | [] => by simp [renderFields, fieldsChars]
  | (name, j) :: fields => by
    simp [renderFields, fieldsChars, toList_renderLaterFields _ fields, toList_renderOnto _ j]

theorem toList_renderLaterFields (out : String) :
    ∀ fields, (renderFields out false fields).toList = out.toList ++ laterFieldsChars fields
  | [] => by simp [renderFields, laterFieldsChars]
  | (name, j) :: fields => by
    simp [renderFields, laterFieldsChars, toList_renderLaterFields _ fields, toList_renderOnto _ j]

end

theorem toList_render (j : Json) : j.render.toList = j.chars := by
  simp [render, toList_renderOnto]

/-! Strings. -/

theorem hexDigit?_hexDigit : ∀ d < 16, hexDigit? (hexDigit d) = some d := by decide

/-- Hexadecimal digits are read as the number, if there are enough of them. -/
theorem hex?_hexDigits {width n : Nat} (hn : n < 16 ^ width) : hex? (hexDigits width n) = some n := by
  induction width generalizing n with
  | zero =>
    have hzero : n = 0 := by simpa using hn
    rw [hzero]
    rfl
  | succ width ih =>
    have hhigh : hex? (hexDigits width (n / 16)) = some (n / 16) :=
      ih (Nat.div_lt_of_lt_mul (by rwa [Nat.mul_comm, ← Nat.pow_succ]))
    have hlow := hexDigit?_hexDigit (n % 16) (Nat.mod_lt _ (by decide))
    have htotal : n / 16 * 16 + n % 16 = n := by omega
    unfold hex? at hhigh ⊢
    simp [hexDigits, List.foldlM_append, hhigh, hlow, htotal]

/-- An escaped character is read as the character. -/
theorem readString?_escaped (c : Char) (done cs : List Char) :
    readString? done (escaped c ++ cs) = readString? (c :: done) cs := by
  unfold escaped
  split
  · rename_i hc
    simp [hc, readString?, escape?]
  · split
    · rename_i hc
      simp [hc, readString?, escape?]
    · split
      · rename_i hc
        have hhex : hex? (hexDigits 4 c.toNat) = some c.toNat := hex?_hexDigits (by omega)
        simp only [hexDigits, List.nil_append, List.cons_append] at hhex ⊢
        have hlow : ¬ (0xd800 ≤ c.toNat ∧ c.toNat < 0xdc00) := by omega
        have hhigh : ¬ (0xdc00 ≤ c.toNat ∧ c.toNat < 0xe000) := by omega
        simp only [readString?, hhex, Option.bind_eq_bind, Option.bind_some, hlow, hhigh, if_false,
          Char.ofNat_toNat]
      · rename_i hquote hslash hcontrol
        rw [List.singleton_append, readString?.eq_def]
        split
        case h_5 =>
          rename_i heq
          cases heq
          rw [if_neg hcontrol]
        all_goals simp_all

theorem readString?_quoted (s cs : List Char) (done : List Char) :
    readString? done (s.flatMap escaped ++ '"' :: cs) =
      some (String.ofList (done.reverse ++ s), cs) := by
  induction s generalizing done with
  | nil => simp [readString?]
  | cons c s ih =>
    rw [List.flatMap_cons, List.append_assoc, readString?_escaped, ih]
    simp

/-! Numbers. -/

/-- What a number can go on with. -/
def inNumber (c : Char) : Bool := c.isDigit || c == '.' || c == 'e' || c == 'E'

theorem readDigits?_append {ds cs : List Char} (hne : ds ≠ []) (hds : ∀ c ∈ ds, c.isDigit = true)
    (hcs : Stops Char.isDigit cs) : readDigits? (ds ++ cs) = some (ds, cs) := by
  unfold readDigits?
  rw [hcs.takeWhile_append hds, hcs.dropWhile_append hds]
  cases ds with
  | nil => exact absurd rfl hne
  | cons d ds => rfl

theorem readDigits?_digits (n : Nat) {cs : List Char} (hcs : Stops Char.isDigit cs) :
    readDigits? (Decimal.digits n ++ cs) = some (Decimal.digits n, cs) :=
  readDigits?_append (Decimal.digits_ne_nil n) (fun _ => Decimal.isDigit_of_mem_digits) hcs

theorem readFraction?_of_stops {cs : List Char} (hcs : Stops (· == '.') cs) :
    readFraction? cs = some (none, cs) := by
  unfold readFraction?
  split
  · cases hcs '.' rfl
  · rfl

theorem readExponent?_of_stops {cs : List Char} (hcs : Stops (fun c => c == 'e' || c == 'E') cs) :
    readExponent? cs = some (none, cs) := by
  cases cs with
  | nil => rfl
  | cons c cs =>
    have hc := hcs c rfl
    simp only [Bool.or_eq_false_iff, beq_eq_false_iff_ne] at hc
    simp [readExponent?, hc]

/-- The sign in front of a number. -/
def sign (negative : Bool) : List Char := if negative then ['-'] else []

/-- A number from its whole part and what follows. -/
theorem readNumber?_sign (negative : Bool) (m : Nat) {cs cs' : List Char} {power : Option Int}
    (hdigit : Stops Char.isDigit cs) (hpoint : Stops (· == '.') cs)
    (hpower : readExponent? cs = some (power, cs')) :
    readNumber? (sign negative ++ (Decimal.digits m ++ cs)) =
      some (if power.isNone ∧ ¬ (negative ∧ m = 0) then
          (.integer (if negative then -(m : Int) else m), cs')
        else (.decimal negative m (power.getD 0), cs')) := by
  have hdigits := readDigits?_digits m hdigit
  have hfraction := readFraction?_of_stops hpoint
  have hzero : ¬ ((Decimal.digits m).head? = some '0' ∧ 1 < (Decimal.digits m).length) := by
    rintro ⟨hhead, hlength⟩
    rw [Decimal.eq_zero_of_head?_digits hhead] at hlength
    exact absurd hlength (by decide)
  cases negative with
  | true =>
    simp only [sign, if_true, List.singleton_append, readNumber?, hdigits]
    simp [hzero, hfraction, hpower]
    split <;> rfl
  | false =>
    obtain ⟨d, ds, hds, hd⟩ := Decimal.exists_digits m
    have hminus : d ≠ '-' := by
      rintro rfl
      cases hd
    have hcons : Decimal.digits m ++ cs = d :: (ds ++ cs) := by rw [hds, List.cons_append]
    rw [hcons] at hdigits ⊢
    simp [sign, readNumber?, hminus, hdigits, hzero, hfraction, hpower]
    split <;> rfl

theorem toList_integer_eq (n : Int) :
    (Decimal.integer n).toList = sign (n < 0) ++ Decimal.digits n.natAbs := by
  by_cases hn : n < 0 <;> simp [Decimal.integer, sign, hn]

theorem splitSign_sign (negative : Bool) (m : Nat) (cs : List Char) :
    Decimal.splitSign (sign negative ++ (Decimal.digits m ++ cs)) =
      (negative, Decimal.digits m ++ cs) := by
  cases negative with
  | true => rfl
  | false =>
    obtain ⟨d, ds, hds, hd⟩ := Decimal.exists_digits m
    rw [hds, sign, if_neg Bool.false_ne_true, List.nil_append, List.cons_append]
    unfold Decimal.splitSign
    split
    · rename_i heq
      cases heq
      cases hd
    · rename_i heq
      cases heq
      cases hd
    · rfl

theorem readExponent?_integer (e : Int) {cs : List Char} (hcs : Stops Char.isDigit cs) :
    readExponent? ('e' :: ((Decimal.integer e).toList ++ cs)) = some (some e, cs) := by
  have hvalue : (if decide (e < 0) = true then -(e.natAbs : Int) else e.natAbs) = e := by
    simp only [decide_eq_true_eq]
    omega
  rw [toList_integer_eq, List.append_assoc]
  simp only [readExponent?, true_or, if_true, splitSign_sign, readDigits?_digits e.natAbs hcs,
    Option.bind_eq_bind, Option.bind_some, Decimal.ofDigitChars_digits, hvalue]
  rfl

/-- The text of a number is read as the number. -/
theorem readNumber?_numberText (n : JsonNumber) {cs : List Char} (hcs : Stops inNumber cs) :
    readNumber? ((numberText n).toList ++ cs) = some (n, cs) := by
  have hstops : ∀ c ∈ cs.head?, c.isDigit = false ∧ c ≠ '.' ∧ c ≠ 'e' ∧ c ≠ 'E' := by
    intro c hc
    simpa [inNumber, and_assoc] using hcs c hc
  have hdigit : Stops Char.isDigit cs := fun c hc => (hstops c hc).1
  cases n with
  | integer n =>
    have hread := readNumber?_sign (n < 0) n.natAbs hdigit
      (fun c hc => by simpa using (hstops c hc).2.1)
      (readExponent?_of_stops fun c hc => by simpa using (hstops c hc).2.2)
    have hzero : ¬ (decide (n < 0) = true ∧ n.natAbs = 0) := by
      simp only [decide_eq_true_eq]
      omega
    have hvalue : (if decide (n < 0) = true then -(n.natAbs : Int) else n.natAbs) = n := by
      simp only [decide_eq_true_eq]
      omega
    rw [numberText, toList_integer_eq, List.append_assoc, hread, if_pos ⟨rfl, hzero⟩, hvalue]
  | decimal negative m e =>
    have hread := readNumber?_sign negative m (Stops.cons rfl) (Stops.cons rfl)
      (readExponent?_integer e hdigit)
    have htext : (numberText (.decimal negative m e)).toList ++ cs =
        sign negative ++ (Decimal.digits m ++ 'e' :: ((Decimal.integer e).toList ++ cs)) := by
      cases negative <;> simp [numberText, sign]
    rw [htext, hread]
    rfl

theorem exists_numberText (n : JsonNumber) :
    ∃ c cs, (numberText n).toList = c :: cs ∧ (c.isDigit = true ∨ c = '-') := by
  have hsign : ∀ negative m cs, ∃ c cs', sign negative ++ (Decimal.digits m ++ cs) = c :: cs' ∧
      (c.isDigit = true ∨ c = '-') := by
    intro negative m cs
    obtain ⟨d, ds, hds, hd⟩ := Decimal.exists_digits m
    cases negative with
    | true => exact ⟨'-', _, rfl, .inr rfl⟩
    | false => exact ⟨d, ds ++ cs, by simp [sign, hds], .inl hd⟩
  cases n with
  | integer n => simpa [numberText, toList_integer_eq] using hsign (n < 0) n.natAbs []
  | decimal negative m e =>
    have htext : (numberText (.decimal negative m e)).toList =
        sign negative ++ (Decimal.digits m ++ 'e' :: (Decimal.integer e).toList) := by
      cases negative <;> simp [numberText, sign]
    rw [htext]
    exact hsign _ _ _

/-! Values. -/

theorem skipSpace_cons {c : Char} (hc : isSpace c = false) (cs : List Char) :
    skipSpace (c :: cs) = c :: cs := by
  simp [skipSpace, hc]

theorem isSpace_of_number {c : Char} (hc : c.isDigit = true ∨ c = '-') : isSpace c = false := by
  refine Bool.eq_false_iff.2 fun hspace => ?_
  simp only [isSpace, Bool.or_eq_true, beq_iff_eq] at hspace
  rcases hspace with ((rfl | rfl) | rfl) | rfl
  all_goals simp at hc

theorem readValue?_of_number {c : Char} (hc : c.isDigit = true ∨ c = '-') (fuel : Nat)
    (cs : List Char) :
    readValue? (fuel + 1) (c :: cs) =
      (readNumber? (c :: cs)).map fun (n, cs) => (.number n, cs) := by
  rw [readValue?, skipSpace_cons (isSpace_of_number hc)]
  split
  case h_7 => rfl
  all_goals
    rename_i heq
    cases heq
    simp at hc

theorem readValue?_array {c : Char} (hspace : isSpace c = false) (hc : c ≠ ']') (fuel : Nat)
    (cs : List Char) : readValue? (fuel + 1) ('[' :: c :: cs) = readItems? fuel [] (c :: cs) := by
  rw [readValue?, skipSpace_cons rfl]
  simp only [skipSpace_cons hspace]
  split
  · rename_i heq
    cases heq
    exact absurd rfl hc
  · rfl

theorem toList_quoted (s : String) :
    (quoted s).toList = '"' :: (s.toList.flatMap escaped ++ ['"']) := by
  simp [quoted]

/-- A value starts with a character that is neither a blank nor the end of an array. -/
theorem exists_chars (j : Json) : ∃ c cs, j.chars = c :: cs ∧ isSpace c = false ∧ c ≠ ']' := by
  cases j with
  | number n =>
    obtain ⟨c, cs, hcs, hc⟩ := exists_numberText n
    refine ⟨c, cs, hcs, isSpace_of_number hc, ?_⟩
    rintro rfl
    simp at hc
  | bool b => cases b <;> exact ⟨_, _, rfl, by decide⟩
  | string s => exact ⟨_, _, toList_quoted s, by decide⟩
  | _ => exact ⟨_, _, rfl, by decide⟩

/-- The text of the value is read as the value, whatever follows. Two steps for each character are
enough. -/
def Reads (j : Json) : Prop :=
  ∀ fuel cs, 2 * j.chars.length ≤ fuel + 1 → Stops inNumber cs →
    readValue? (fuel + 1) (j.chars ++ cs) = some (j, cs)

theorem reads_null : Reads .null := fun _ _ _ _ => rfl

theorem reads_bool (b : Bool) : Reads (.bool b) := by
  cases b <;> exact fun _ _ _ _ => rfl

theorem reads_number (n : JsonNumber) : Reads (.number n) := by
  intro fuel cs _ hcs
  obtain ⟨c, cs', hcs', hc⟩ := exists_numberText n
  have hread := readNumber?_numberText n hcs
  rw [chars, hcs', List.cons_append]
  rw [hcs', List.cons_append] at hread
  rw [readValue?_of_number hc, hread, Option.map_some]

theorem reads_string (s : String) : Reads (.string s) := by
  intro fuel cs _ _
  have hread := readString?_quoted s.toList cs []
  have htext : (Json.string s).chars ++ cs = '"' :: (s.toList.flatMap escaped ++ '"' :: cs) := by
    simp [chars, toList_quoted]
  rw [htext, readValue?, skipSpace_cons rfl]
  simp only [hread, Option.map_some]
  simp

/-- What comes after an item or a field does not continue a number. -/
theorem stops_laterItems (items : List Json) (cs : List Char) :
    Stops inNumber (laterItemsChars items ++ ']' :: cs) := by
  cases items <;> exact Stops.cons rfl

theorem stops_laterFields (fields : Fields) (cs : List Char) :
    Stops inNumber (laterFieldsChars fields ++ '\x7d' :: cs) := by
  rcases fields with _ | ⟨⟨name, j⟩, fields⟩ <;> exact Stops.cons rfl

theorem length_chars_pos (j : Json) : 0 < j.chars.length := by
  obtain ⟨c, cs, hcs, -⟩ := exists_chars j
  simp [hcs]

theorem readItems?_chars {items : List Json} (hne : items ≠ []) (h : ∀ j ∈ items, j.Reads)
    {fuel : Nat} (hfuel : 2 * (itemsChars items).length ≤ fuel) (done : List Json)
    (cs : List Char) :
    readItems? (fuel + 1) done (itemsChars items ++ ']' :: cs) =
      some (.array (done.reverse ++ items), cs) := by
  induction items generalizing fuel done with
  | nil => exact absurd rfl hne
  | cons j js ih =>
    have hpos := j.length_chars_pos
    rw [itemsChars, List.length_append] at hfuel
    obtain ⟨fuel, rfl⟩ : ∃ k, fuel = k + 1 := ⟨fuel - 1, by omega⟩
    have hread := h j (by simp) fuel (laterItemsChars js ++ ']' :: cs) (by omega)
      (stops_laterItems js cs)
    rw [itemsChars, List.append_assoc, readItems?, hread]
    cases js with
    | nil => simp [laterItemsChars, skipSpace_cons (rfl : isSpace ']' = false)]
    | cons k ks =>
      have hlater : laterItemsChars (k :: ks) = ',' :: itemsChars (k :: ks) := rfl
      rw [hlater, List.length_cons] at hfuel
      have hle : 2 * (itemsChars (k :: ks)).length ≤ fuel := by omega
      have hrest := ih (by simp) (fun j hj => h j (by simp [hj])) hle (j :: done)
      simp [hlater, skipSpace_cons (rfl : isSpace ',' = false), hrest]

theorem readFields?_chars {fields : Fields} (hne : fields ≠ []) (h : ∀ f ∈ fields, f.2.Reads)
    {fuel : Nat} (hfuel : 2 * (fieldsChars fields).length ≤ fuel) (done : Fields)
    (hnames : ((done.reverse ++ fields).map Prod.fst).Nodup) (cs : List Char) :
    readFields? (fuel + 1) done (fieldsChars fields ++ '\x7d' :: cs) =
      some (.object (done.reverse ++ fields), cs) := by
  induction fields generalizing fuel done with
  | nil => exact absurd rfl hne
  | cons f fields ih =>
    obtain ⟨name, j⟩ := f
    have hpos := j.length_chars_pos
    simp only [fieldsChars, List.length_append, List.length_cons] at hfuel
    obtain ⟨fuel, rfl⟩ : ∃ k, fuel = k + 1 := ⟨fuel - 1, by omega⟩
    have hvalue := h (name, j) (by simp) fuel (laterFieldsChars fields ++ '\x7d' :: cs)
      (by dsimp only; omega) (stops_laterFields fields cs)
    have hname := readString?_quoted name.toList
      (':' :: (j.chars ++ (laterFieldsChars fields ++ '\x7d' :: cs))) []
    rw [List.reverse_nil, List.nil_append, String.ofList_toList] at hname
    have htext : fieldsChars ((name, j) :: fields) ++ '\x7d' :: cs =
        '"' :: (name.toList.flatMap escaped ++
          '"' :: ':' :: (j.chars ++ (laterFieldsChars fields ++ '\x7d' :: cs))) := by
      simp [fieldsChars, toList_quoted]
    -- The name is new, so no field gives way to this one.
    have hfresh : done.filter (·.1 != name) = done := by
      refine List.filter_eq_self.2 fun f hf => bne_iff_ne.2 ?_
      rintro rfl
      simp only [List.map_append, List.nodup_append] at hnames
      exact hnames.2.2 f.1 (List.mem_map_of_mem (by simpa using hf)) f.1 (by simp) rfl
    rw [htext, readFields?, skipSpace_cons rfl]
    simp only [hname, Option.bind_eq_bind, Option.bind_some,
      skipSpace_cons (rfl : isSpace ':' = false), hvalue, hfresh]
    cases fields with
    | nil => simp [laterFieldsChars, skipSpace_cons (rfl : isSpace '\x7d' = false)]
    | cons g gs =>
      have hlater : laterFieldsChars (g :: gs) = ',' :: fieldsChars (g :: gs) := rfl
      rw [hlater, List.length_cons] at hfuel
      have hle : 2 * (fieldsChars (g :: gs)).length ≤ fuel := by omega
      have hrest := ih (by simp) (fun j hj => h j (by simp [hj])) hle ((name, j) :: done)
        (by simpa using hnames)
      simp [hlater, skipSpace_cons (rfl : isSpace ',' = false), hrest]

theorem reads_array {items : List Json} (h : ∀ j ∈ items, j.Reads) : Reads (.array items) := by
  intro fuel cs hfuel _
  cases items with
  | nil => rfl
  | cons j js =>
    obtain ⟨c, cs', hcs', hspace, hc⟩ := exists_chars j
    simp only [chars, List.length_cons, List.length_append, List.length_nil] at hfuel
    obtain ⟨fuel, rfl⟩ : ∃ k, fuel = k + 1 := ⟨fuel - 1, by omega⟩
    have hle : 2 * (itemsChars (j :: js)).length ≤ fuel := by omega
    have hread := readItems?_chars (by simp) h hle [] cs
    have htext : (Json.array (j :: js)).chars ++ cs =
        '[' :: c :: (cs' ++ laterItemsChars js ++ ']' :: cs) := by
      simp [chars, itemsChars, hcs']
    have hitems : itemsChars (j :: js) ++ ']' :: cs =
        c :: (cs' ++ laterItemsChars js ++ ']' :: cs) := by
      simp [itemsChars, hcs']
    rw [hitems] at hread
    rw [htext, readValue?_array hspace hc, hread, List.reverse_nil, List.nil_append]

theorem reads_object {fields : Fields} (hnames : (fields.map Prod.fst).Nodup)
    (h : ∀ f ∈ fields, f.2.Reads) : Reads (.object fields) := by
  intro fuel cs hfuel _
  cases fields with
  | nil => rfl
  | cons f fields =>
    obtain ⟨name, j⟩ := f
    simp only [chars, List.length_cons, List.length_append, List.length_nil] at hfuel
    obtain ⟨fuel, rfl⟩ : ∃ k, fuel = k + 1 := ⟨fuel - 1, by omega⟩
    have hle : 2 * (fieldsChars ((name, j) :: fields)).length ≤ fuel := by omega
    have hread := readFields?_chars (by simp) h hle [] hnames cs
    have htext : (Json.object ((name, j) :: fields)).chars ++ cs =
        '\x7b' :: (fieldsChars ((name, j) :: fields) ++ '\x7d' :: cs) := by
      simp [chars]
    rw [htext]
    rw [fieldsChars, toList_quoted, List.cons_append, List.cons_append] at hread ⊢
    exact hread

/-! Values with distinct names. -/

mutual

/-- No object in the value has two fields of one name. -/
def Distinct : Json → Prop
  | .array items => DistinctItems items
  | .object fields => (fields.map Prod.fst).Nodup ∧ DistinctFields fields
  | _ => True

def DistinctItems : List Json → Prop
  | [] => True
  | j :: js => j.Distinct ∧ DistinctItems js

def DistinctFields : Fields → Prop
  | [] => True
  | (_, j) :: fields => j.Distinct ∧ DistinctFields fields

end

mutual

theorem Distinct.reads : ∀ {j : Json}, j.Distinct → j.Reads
  | .null, _ => reads_null
  | .bool b, _ => reads_bool b
  | .number n, _ => reads_number n
  | .string s, _ => reads_string s
  | .array _, h => reads_array (DistinctItems.reads h)
  | .object _, h => reads_object h.1 (DistinctFields.reads h.2)

theorem DistinctItems.reads : ∀ {items : List Json}, DistinctItems items → ∀ j ∈ items, j.Reads
  | [], _ => by simp
  | _ :: _, h => List.forall_mem_cons.2 ⟨Distinct.reads h.1, DistinctItems.reads h.2⟩

theorem DistinctFields.reads : ∀ {fields : Fields}, DistinctFields fields →
    ∀ f ∈ fields, f.2.Reads
  | [], _ => by simp
  | (_, _) :: _, h => List.forall_mem_cons.2 ⟨Distinct.reads h.1, DistinctFields.reads h.2⟩

end

/-- The text of a value with distinct names is read as the value. -/
theorem parse?_render {j : Json} (h : j.Distinct) : parse? j.render = some j := by
  have hread : readValue? (2 * j.chars.length + 2) j.chars = some (j, []) := by
    have hread := h.reads (2 * j.chars.length + 1) [] (by omega) Stops.nil
    rwa [List.append_nil] at hread
  rw [parse?, toList_render, hread]
  rfl

end SqlTree.Json
