import Listing.Json.Compact
import Listing.Json.Reader
import Listing.Proofs.LastPerKey

/-!
# Compact text is read back

The compact text of a value without numbers is read as that value, whatever characters stand in its strings, if
no object in it has a key twice and it is not too deep for the reader. A reader of such a text takes exactly the
text and leaves what follows, so the values of an array or an object are read one after the other.
-/

namespace Listing.Json

/-! ### Strings -/

/-- A small number in hexadecimal digits is read back. -/
theorem hexUnit_hexDigits {n : Nat} (h : n < 0x20) (rest : List Char) :
    hexUnit ('0' :: '0' :: hexDigit (n / 16) :: hexDigit n :: rest) = .ok (n, rest) := by
  have hdigits : ∀ n < 0x20,
      ['0', '0', hexDigit (n / 16), hexDigit n].mapM hexValue? = some [0, 0, n / 16, n % 16] := by
    decide
  have hbytes : ∀ n < 0x20, byteCount ['0', '0', hexDigit (n / 16), hexDigit n] = 4 := by decide
  have htake : ('0' :: '0' :: hexDigit (n / 16) :: hexDigit n :: rest).take 4 =
      ['0', '0', hexDigit (n / 16), hexDigit n] := rfl
  rw [hexUnit, htake, hbytes n h, hdigits n h]
  simp
  omega

/-- A character that is written by its number is read back. -/
theorem escape_hexDigits {c : Char} (h : c.toNat < 0x20) (rest : List Char) :
    escape ('u' :: '0' :: '0' :: hexDigit (c.toNat / 16) :: hexDigit c.toNat :: rest) = .ok (c, rest) := by
  have hlow : isLowSurrogate c.toNat = false := by
    simp only [isLowSurrogate, Bool.and_eq_false_iff, decide_eq_false_iff_not]
    omega
  have hhigh : isHighSurrogate c.toNat = false := by
    simp only [isHighSurrogate, Bool.and_eq_false_iff, decide_eq_false_iff_not]
    omega
  simp [escape, hexUnit_hexDigits h, bind, Except.bind, hlow, hhigh, Char.ofNat_toNat]

/-- A control character is written as a backslash with what stands for the character. -/
theorem exists_escape_of_lt {c : Char} (h : c.toNat < 0x20) :
    ∃ code, escapeChar c = '\\' :: code ∧ ∀ rest, escape (code ++ rest) = .ok (c, rest) := by
  have hquote : c ≠ '"' := by
    intro heq
    exact absurd (heq ▸ h) (by decide)
  have hbackslash : c ≠ '\\' := by
    intro heq
    exact absurd (heq ▸ h) (by decide)
  rw [escapeChar, if_neg hquote, if_neg hbackslash, if_neg (Nat.not_le.mpr h)]
  split
  · next heq => exact ⟨['b'], rfl, fun _ => heq ▸ rfl⟩
  split
  · next heq => exact ⟨['t'], rfl, fun _ => heq ▸ rfl⟩
  split
  · next heq => exact ⟨['n'], rfl, fun _ => heq ▸ rfl⟩
  split
  · next heq => exact ⟨['f'], rfl, fun _ => heq ▸ rfl⟩
  split
  · next heq => exact ⟨['r'], rfl, fun _ => heq ▸ rfl⟩
  · exact ⟨_, rfl, escape_hexDigits h⟩

/-- A character inside a string is written as it is, or as a backslash with what stands for the character. -/
theorem escapeChar_cases (c : Char) :
    escapeChar c = [c] ∧ c ≠ '"' ∧ c ≠ '\\' ∧ ¬ c.toNat < 0x20 ∨
      ∃ code, escapeChar c = '\\' :: code ∧ ∀ rest, escape (code ++ rest) = .ok (c, rest) := by
  by_cases hquote : c = '"'
  · subst hquote
    exact .inr ⟨['"'], rfl, fun _ => rfl⟩
  by_cases hbackslash : c = '\\'
  · subst hbackslash
    exact .inr ⟨['\\'], rfl, fun _ => rfl⟩
  by_cases hcontrol : c.toNat < 0x20
  · exact .inr (exists_escape_of_lt hcontrol)
  · refine .inl ⟨?_, hquote, hbackslash, hcontrol⟩
    rw [escapeChar, if_neg hquote, if_neg hbackslash, if_pos (Nat.not_lt.mp hcontrol)]

/-- The characters of a string are read back up to the closing quotation mark. -/
theorem stringBody_flatMap_escapeChar (cs : List Char) {bound : Nat} (h : cs.length < bound) (rest : List Char) :
    stringBody bound (cs.flatMap escapeChar ++ '"' :: rest) = .ok (cs, rest) := by
  induction cs generalizing bound with
  | nil =>
    cases bound with
    | zero => contradiction
    | succ bound => rfl
  | cons c cs ih =>
    cases bound with
    | zero => contradiction
    | succ bound =>
      have hrest := ih (Nat.lt_of_succ_lt_succ h)
      rw [List.flatMap_cons, List.append_assoc]
      rcases escapeChar_cases c with ⟨hself, hquote, hbackslash, hcontrol⟩ | ⟨code, hcode, hescape⟩
      · rw [hself, List.singleton_append, stringBody, if_neg hcontrol, hrest]
        · rfl
        · exact hquote
        · exact hbackslash
      · rw [hcode, List.cons_append, stringBody, hescape]
        simp only [bind, Except.bind, hrest]

/-- No character is left out of the text of a string. -/
theorem length_le_length_flatMap_escapeChar (cs : List Char) : cs.length ≤ (cs.flatMap escapeChar).length := by
  induction cs with
  | nil => exact Nat.le_refl 0
  | cons c cs ih =>
    have hsome : 0 < (escapeChar c).length := by
      rcases escapeChar_cases c with ⟨hself, -⟩ | ⟨code, hcode, -⟩
      · simp [hself]
      · simp [hcode]
    rw [List.flatMap_cons, List.length_append, List.length_cons]
    omega

/-- A string is read back from its quoted form, after the opening quotation mark. -/
theorem string_flatMap_escapeChar (s : String) (rest : List Char) :
    string (s.toList.flatMap escapeChar ++ '"' :: rest) = .ok (s, rest) := by
  have hlength := length_le_length_flatMap_escapeChar s.toList
  have hbound : s.toList.length < (s.toList.flatMap escapeChar ++ '"' :: rest).length + 1 := by
    rw [List.length_append]
    omega
  rw [string, stringBody_flatMap_escapeChar _ hbound]
  simp only [bind, Except.bind, String.ofList_toList]

/-! ### Values one after the other -/

/-- A reader takes the compact text of a value and leaves what follows. -/
def ReadsBack (element : Reader Json) (value : Json) : Prop :=
  ∀ rest, element (chars value ++ rest) = .ok (value, rest)

/-- A text begins with a character that is neither white space nor a closing bracket or brace. -/
def BeginsValue (text : List Char) : Prop :=
  ∃ c rest, text = c :: rest ∧ isSpace c = false ∧ c ≠ ']' ∧ c ≠ '}'

/-- A text begins as its first part does. -/
theorem BeginsValue.append {text : List Char} (h : BeginsValue text) (rest : List Char) :
    BeginsValue (text ++ rest) := by
  obtain ⟨c, cs, rfl, hc⟩ := h
  exact ⟨c, cs ++ rest, rfl, hc⟩

/-- There is no white space to drop before a character that is none. -/
theorem skipSpace_cons {c : Char} (h : isSpace c = false) (rest : List Char) : skipSpace (c :: rest) = c :: rest := by
  rw [skipSpace, List.dropWhile_cons_of_neg (by simp [h])]

/-- Texts that are separated by commas follow each other. -/
theorem commaSeparated_cons_cons (first second : List Char) (more : List (List Char)) :
    commaSeparated (first :: second :: more) = first ++ ',' :: commaSeparated (second :: more) := by
  simp [commaSeparated, List.intercalate, List.intersperse]

/-- A single text has no comma after it. -/
theorem commaSeparated_singleton (text : List Char) : commaSeparated [text] = text := by
  simp [commaSeparated, List.intercalate, List.intersperse]

/-- Separated texts begin as the first of them does. -/
theorem BeginsValue.commaSeparated {text : List Char} (h : BeginsValue text) (more : List (List Char)) :
    BeginsValue (commaSeparated (text :: more)) := by
  cases more with
  | nil => rwa [commaSeparated_singleton]
  | cons second more =>
    rw [commaSeparated_cons_cons]
    exact h.append _

/-- The elements of an array are read back up to the closing bracket. -/
theorem elementsFrom_elementTexts {element : Reader Json} {first : Json} {more : List Json}
    (hread : ∀ value ∈ first :: more, ReadsBack element value)
    (hbegins : ∀ value ∈ first :: more, BeginsValue (chars value)) {bound : Nat} (hbound : more.length < bound)
    (rest : List Char) :
    elementsFrom element bound (commaSeparated (elementTexts (first :: more)) ++ ']' :: rest) =
      .ok (first :: more, rest) := by
  induction more generalizing first bound with
  | nil =>
    obtain ⟨bound, rfl⟩ := Nat.exists_eq_succ_of_ne_zero (Nat.ne_of_gt hbound)
    rw [elementTexts_cons, elementTexts_nil, commaSeparated_singleton, elementsFrom, hread first List.mem_cons_self]
    rfl
  | cons second more ih =>
    obtain ⟨bound, rfl⟩ := Nat.exists_eq_succ_of_ne_zero (Nat.ne_of_gt (Nat.zero_lt_of_lt hbound))
    have hmore := ih (fun value hvalue => hread value (List.mem_cons_of_mem _ hvalue))
      (fun value hvalue => hbegins value (List.mem_cons_of_mem _ hvalue)) (Nat.lt_of_succ_lt_succ hbound)
    have hsecond := hbegins second (List.mem_cons_of_mem _ List.mem_cons_self)
    obtain ⟨c, cs, htext, hspace, hbracket, -⟩ :=
      (hsecond.commaSeparated (elementTexts more)).append (']' :: rest)
    rw [elementTexts_cons] at hmore
    -- The reader looks past the comma, so the rest has to show the character it begins with.
    rw [elementTexts_cons, elementTexts_cons, commaSeparated_cons_cons, List.append_assoc, List.cons_append,
      elementsFrom, hread first List.mem_cons_self]
    rw [htext] at hmore ⊢
    simp [bind, Except.bind, skipSpace_cons (show isSpace ',' = false from rfl), skipSpace_cons hspace, hmore,
      hbracket]

/-- There are at least as many characters in separated texts as commas. -/
theorem length_le_length_commaSeparated (texts : List (List Char)) :
    texts.length ≤ (commaSeparated texts).length + 1 := by
  induction texts with
  | nil => exact Nat.zero_le _
  | cons first texts ih =>
    cases texts with
    | nil => exact Nat.le_add_left _ _
    | cons second more =>
      rw [commaSeparated_cons_cons, List.length_append, List.length_cons, List.length_cons (a := ',')]
      omega

/-- Every element of an array has a text. -/
theorem length_elementTexts (elements : List Json) : (elementTexts elements).length = elements.length := by
  induction elements with
  | nil => rfl
  | cons element rest ih => rw [elementTexts_cons, List.length_cons, List.length_cons, ih]

/-- Every entry of an object has a text. -/
theorem length_fieldTexts (fields : List (String × Json)) : (fieldTexts fields).length = fields.length := by
  induction fields with
  | nil => rfl
  | cons entry rest ih => rw [fieldTexts_cons, List.length_cons, List.length_cons, ih]

/-- The text of an entry begins with the quotation mark of its key. -/
theorem fieldText_append (key : String) (value : Json) (rest : List Char) :
    quote key ++ ':' :: chars value ++ rest =
      '"' :: (key.toList.flatMap escapeChar ++ '"' :: ':' :: (chars value ++ rest)) := by
  simp [quote]

/-- An entry is read back after the quotation mark of its key. -/
theorem entry_flatMap_escapeChar {element : Reader Json} {value : Json} (hread : ReadsBack element value)
    (key : String) (rest : List Char) :
    entry element (key.toList.flatMap escapeChar ++ '"' :: ':' :: (chars value ++ rest)) =
      .ok ((key, value), rest) := by
  rw [entry, string_flatMap_escapeChar]
  simp [bind, Except.bind, skipSpace_cons (show isSpace ':' = false from rfl), hread rest]

/-- The entries of an object are read back up to the closing brace. -/
theorem entriesFrom_fieldTexts {element : Reader Json} {first : String × Json} {more : List (String × Json)}
    (hread : ∀ entry ∈ first :: more, ReadsBack element entry.2) {bound : Nat} (hbound : more.length < bound)
    (rest : List Char) :
    entriesFrom element bound (commaSeparated (fieldTexts (first :: more)) ++ '}' :: rest) =
      .ok (first :: more, rest) := by
  have hfirst := hread first List.mem_cons_self
  induction more generalizing first bound with
  | nil =>
    obtain ⟨bound, rfl⟩ := Nat.exists_eq_succ_of_ne_zero (Nat.ne_of_gt hbound)
    rw [fieldTexts_cons, fieldTexts_nil, commaSeparated_singleton, fieldText_append, entriesFrom,
      entry_flatMap_escapeChar hfirst]
    rfl
  | cons second more ih =>
    obtain ⟨bound, rfl⟩ := Nat.exists_eq_succ_of_ne_zero (Nat.ne_of_gt (Nat.zero_lt_of_lt hbound))
    have hmore := ih (fun entry hentry => hread entry (List.mem_cons_of_mem _ hentry))
      (Nat.lt_of_succ_lt_succ hbound) (hread second (List.mem_cons_of_mem _ List.mem_cons_self))
    have hquote : BeginsValue (quote second.1 ++ ':' :: chars second.2) :=
      ⟨'"', _, rfl, rfl, by decide, by decide⟩
    obtain ⟨c, cs, htext, hspace, -, hbrace⟩ := (hquote.commaSeparated (fieldTexts more)).append ('}' :: rest)
    rw [fieldTexts_cons] at hmore
    rw [fieldTexts_cons, fieldTexts_cons, commaSeparated_cons_cons, List.append_assoc, List.cons_append,
      fieldText_append, entriesFrom, entry_flatMap_escapeChar hfirst]
    rw [htext] at hmore ⊢
    simp [bind, Except.bind, skipSpace_cons (show isSpace ',' = false from rfl), skipSpace_cons hspace, hmore,
      hbrace]

/-! ### Whole texts -/

/-- A value without numbers, with distinct keys in every object and at most the given number of arrays and
objects inside one another. -/
inductive Readable : Nat → Json → Prop where
  | null (levels : Nat) : Readable levels .null
  | bool (levels : Nat) (value : Bool) : Readable levels (.bool value)
  | text (levels : Nat) (value : String) : Readable levels (.text value)
  | array {levels : Nat} {elements : List Json} (helements : ∀ element ∈ elements, Readable levels element) :
      Readable (levels + 1) (.array elements)
  | object {levels : Nat} {fields : List (String × Json)} (hdistinct : (Keyed.keys fields).Nodup)
      (hfields : ∀ entry ∈ fields, Readable levels entry.2) : Readable (levels + 1) (.object fields)

/-- An object with one entry is readable with one level more than the value of the entry. -/
theorem Readable.single {levels : Nat} {value : Json} (h : Readable levels value) (key : String) :
    Readable (levels + 1) (.single key value) :=
  .object (List.nodup_singleton key) (List.forall_mem_singleton.mpr h)

/-- A list is readable with one level more than what it is made of. -/
theorem Readable.array_map {levels : Nat} {element : String → Json} (h : ∀ value, Readable levels (element value))
    (values : List String) : Readable (levels + 1) (.array (values.map element)) :=
  .array (List.forall_mem_map.mpr fun value _ => h value)

/-- The text of such a value begins with no white space and no closing bracket. -/
theorem Readable.beginsValue {levels : Nat} {value : Json} (h : Readable levels value) :
    BeginsValue (chars value) := by
  cases h with
  | null => exact ⟨'n', _, rfl, rfl, by decide, by decide⟩
  | bool levels value =>
    cases value with
    | false => exact ⟨'f', _, rfl, rfl, by decide, by decide⟩
    | true => exact ⟨'t', _, rfl, rfl, by decide, by decide⟩
  | text => exact ⟨'"', _, rfl, rfl, by decide, by decide⟩
  | array => exact ⟨'[', _, chars_array _, rfl, by decide, by decide⟩
  | object => exact ⟨'{', _, chars_object _, rfl, by decide, by decide⟩

/-- An array is read back after its opening bracket when its elements are. -/
theorem arrayAfter_elementTexts {element : Reader Json} {elements : List Json}
    (hread : ∀ value ∈ elements, ReadsBack element value)
    (hbegins : ∀ value ∈ elements, BeginsValue (chars value)) (rest : List Char) :
    arrayAfter element (commaSeparated (elementTexts elements) ++ ']' :: rest) = .ok (.array elements, rest) := by
  cases elements with
  | nil => rfl
  | cons first more =>
    obtain ⟨c, cs, htext, hspace, hbracket, -⟩ :=
      ((hbegins first List.mem_cons_self).commaSeparated (elementTexts more)).append (']' :: rest)
    have hbound : more.length < cs.length + 1 + 1 := by
      have hcommas := length_le_length_commaSeparated (elementTexts (first :: more))
      rw [length_elementTexts, List.length_cons, elementTexts_cons] at hcommas
      rw [← List.length_cons (a := c), ← htext, List.length_append]
      omega
    have helements := elementsFrom_elementTexts hread hbegins hbound rest
    rw [elementTexts_cons, htext] at helements ⊢
    simp [arrayAfter, skipSpace_cons hspace, hbracket, helements, bind, Except.bind]

/-- An object with distinct keys is read back after its opening brace when its values are. -/
theorem objectAfter_fieldTexts {element : Reader Json} {fields : List (String × Json)}
    (hdistinct : (Keyed.keys fields).Nodup) (hread : ∀ entry ∈ fields, ReadsBack element entry.2) (rest : List Char) :
    objectAfter element (commaSeparated (fieldTexts fields) ++ '}' :: rest) = .ok (.object fields, rest) := by
  cases fields with
  | nil => rfl
  | cons first more =>
    have hquote : BeginsValue (quote first.1 ++ ':' :: chars first.2) :=
      ⟨'"', _, rfl, rfl, by decide, by decide⟩
    obtain ⟨c, cs, htext, hspace, -, hbrace⟩ := (hquote.commaSeparated (fieldTexts more)).append ('}' :: rest)
    have hbound : more.length < cs.length + 1 + 1 := by
      have hcommas := length_le_length_commaSeparated (fieldTexts (first :: more))
      rw [length_fieldTexts, List.length_cons, fieldTexts_cons] at hcommas
      rw [← List.length_cons (a := c), ← htext, List.length_append]
      omega
    have hfields := entriesFrom_fieldTexts hread hbound rest
    rw [fieldTexts_cons, htext] at hfields ⊢
    simp [objectAfter, skipSpace_cons hspace, hbrace, hfields, bind, Except.bind, Keyed.ofList_eq_self hdistinct]

/-- A value that begins with a quotation mark is a string. -/
theorem valueAround_quote (inner : Option (Reader Json)) (rest : List Char) :
    valueAround inner ('"' :: rest) = (string rest).map fun read => (.text read.1, read.2) := by
  have hvalue : valueAround inner ('"' :: rest) = string rest >>= fun read => .ok (.text read.1, read.2) := rfl
  rw [hvalue]
  cases string rest <;> rfl

/-- A value that begins with a bracket is an array. -/
theorem valueAround_bracket (element : Reader Json) (rest : List Char) :
    valueAround (some element) ('[' :: rest) = arrayAfter element rest := rfl

/-- A value that begins with a brace is an object. -/
theorem valueAround_brace (element : Reader Json) (rest : List Char) :
    valueAround (some element) ('{' :: rest) = objectAfter element rest := rfl

/-- A reader for as many levels reads the value back. -/
theorem Readable.readsBack {levels : Nat} {value : Json} (h : Readable levels value) :
    ReadsBack (valueWithin levels) value := by
  have hscalar (levels : Nat) : ∃ inner, valueWithin levels = valueAround inner := by
    cases levels <;> exact ⟨_, rfl⟩
  induction h with
  | null levels =>
    obtain ⟨inner, hinner⟩ := hscalar levels
    intro rest
    rw [hinner]
    rfl
  | bool levels value =>
    obtain ⟨inner, hinner⟩ := hscalar levels
    intro rest
    rw [hinner]
    cases value <;> rfl
  | text levels value =>
    obtain ⟨inner, hinner⟩ := hscalar levels
    intro rest
    rw [hinner, chars_text, quote, List.cons_append, List.append_assoc, List.singleton_append, valueAround_quote,
      string_flatMap_escapeChar]
    rfl
  | @array levels elements helements ih =>
    intro rest
    rw [chars_array, List.cons_append, List.append_assoc, List.singleton_append, valueWithin, valueAround_bracket]
    exact arrayAfter_elementTexts ih (fun value hvalue => (helements value hvalue).beginsValue) rest
  | @object levels fields hdistinct hfields ih =>
    intro rest
    rw [chars_object, List.cons_append, List.append_assoc, List.singleton_append, valueWithin, valueAround_brace]
    exact objectAfter_fieldTexts hdistinct ih rest

/-- The compact text of a value without numbers is read as that value. -/
theorem Readable.parse_compact {value : Json} (h : Readable maxLevels value) : parse value.compact = .ok value := by
  have hread := h.readsBack []
  rw [List.append_nil] at hread
  rw [parse, compact, String.toList_ofList, ofChars, hread]
  rfl

end Listing.Json
