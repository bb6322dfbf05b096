import Listing.Proofs.Meaning
import Mathlib.Logic.Function.Basic

/-!
# Literal patterns

A search for a text is written as a pattern with a backslash before every character that means something in a pattern.
Read from left to right, a backslash belongs to the character after it, whatever that is. The pattern of a text then has
one part for every character of the text, and no part is a bare character with a meaning: the pattern stands for the text
and for nothing else.
-/

namespace Listing.Filter

/-- A part of a pattern. -/
inductive PatternPart where
  /-- A character that stands for itself because of the backslash before it. -/
  | escaped (c : Char)
  /-- A character without a backslash. -/
  | bare (c : Char)
  deriving DecidableEq, Repr

namespace PatternPart

/-- The character of a part. -/
def char : PatternPart → Char
  | escaped c => c
  | bare c => c

/-- The part that is written for a character. -/
def ofChar (c : Char) : PatternPart := if isPatternCharacter c then escaped c else bare c

@[simp] theorem char_ofChar (c : Char) : (ofChar c).char = c := by
  rw [ofChar]
  split <;> rfl

end PatternPart

/-- Whether a character without a backslash has a meaning in every pattern. A minus sign and a slash have one at some
places only, and escaping them does no harm. -/
def isMetacharacter (c : Char) : Bool :=
  ['\\', '.', '+', '*', '?', '(', ')', '|', '[', ']', '{', '}', '^', '$'].contains c

/-- The parts of a pattern from left to right; `none` if the pattern ends between a backslash and its character. -/
def parts? : List Char → Option (List PatternPart)
  | [] => some []
  | ['\\'] => none
  | '\\' :: c :: rest => (parts? rest).map (.escaped c :: ·)
  | c :: rest => (parts? rest).map (.bare c :: ·)

/-- A pattern stands for a text when it can be read, none of its bare characters has a meaning, and its characters are
those of the text. -/
def StandsFor (pattern text : String) : Prop :=
  ∃ parts, parts? pattern.toList = some parts ∧ (∀ c, .bare c ∈ parts → isMetacharacter c = false) ∧
    parts.map PatternPart.char = text.toList

theorem parts?_cons_of_ne {c : Char} (h : c ≠ '\\') (rest : List Char) :
    parts? (c :: rest) = (parts? rest).map (.bare c :: ·) := by
  rw [parts?]
  · exact fun heq => absurd heq h
  · exact fun _ _ heq => absurd heq h

/-- Every character with a meaning is escaped. -/
theorem isPatternCharacter_of_isMetacharacter {c : Char} (h : isMetacharacter c = true) : isPatternCharacter c = true := by
  simp only [isMetacharacter, isPatternCharacter, List.contains_iff_mem] at *
  exact List.mem_append_left ['-', '/'] h

/-- The pattern of a text is read as one part for every character, whatever follows it. -/
theorem parts?_escapeChars_append (text rest : List Char) :
    parts? (escapeChars text ++ rest) = (parts? rest).map (text.map PatternPart.ofChar ++ ·) := by
  induction text with
  | nil => simp [escapeChars]
  | cons c text ih =>
    by_cases h : isPatternCharacter c = true
    · rw [escapeChars, if_pos h, List.cons_append, List.cons_append, parts?, ih, Option.map_map, List.map_cons,
        PatternPart.ofChar, if_pos h]
      rfl
    · -- a bare character takes nothing with it, for the backslash is always escaped
      have hne : c ≠ '\\' := fun heq => h (heq ▸ by decide)
      rw [escapeChars, if_neg h, List.cons_append, parts?_cons_of_ne hne, ih, Option.map_map, List.map_cons,
        PatternPart.ofChar, if_neg h]
      rfl

/-- The pattern of a text is read as one part for every character. -/
theorem parts?_escapeChars (text : List Char) : parts? (escapeChars text) = some (text.map PatternPart.ofChar) := by
  simpa [parts?] using parts?_escapeChars_append text []

/-- A character that is written bare has no meaning. -/
theorem not_isMetacharacter_of_bare {text : List Char} {c : Char} (h : .bare c ∈ text.map PatternPart.ofChar) :
    isMetacharacter c = false := by
  obtain ⟨d, -, hd⟩ := List.mem_map.mp h
  rw [PatternPart.ofChar] at hd
  split at hd
  · contradiction
  · next hplain =>
    obtain rfl := PatternPart.bare.inj hd
    exact Bool.eq_false_iff.mpr fun hmeta => hplain (isPatternCharacter_of_isMetacharacter hmeta)

/-- The characters of the parts are those of the text. -/
theorem map_char_map_ofChar (text : List Char) : (text.map PatternPart.ofChar).map PatternPart.char = text := by
  simp [Function.comp_def]

/-- The pattern of a text stands for that text and no other. -/
theorem standsFor_escapePattern_iff {text other : String} : StandsFor (escapePattern text) other ↔ other = text := by
  have hparts : parts? (escapePattern text).toList = some (text.toList.map PatternPart.ofChar) := by
    rw [escapePattern, String.toList_ofList, parts?_escapeChars]
  constructor
  · rintro ⟨parts, hread, -, hchars⟩
    obtain rfl : text.toList.map PatternPart.ofChar = parts := Option.some.inj (hparts.symm.trans hread)
    exact String.toList_inj.mp (hchars.symm.trans (map_char_map_ofChar text.toList))
  · rintro rfl
    exact ⟨_, hparts, fun _ => not_isMetacharacter_of_bare, map_char_map_ofChar _⟩

/-- The characters of the parts of a pattern are what is left of it without its backslashes. -/
theorem unescapeChars_of_parts? {pattern : List Char} {parts : List PatternPart} (h : parts? pattern = some parts) :
    FilterDocument.unescapeChars pattern = parts.map PatternPart.char := by
  induction pattern using parts?.induct generalizing parts with
  | case1 =>
    obtain rfl := Option.some.inj h
    rfl
  | case2 => contradiction
  | case3 c rest ih =>
    rw [parts?] at h
    obtain ⟨others, hrest, rfl⟩ := Option.map_eq_some_iff.mp h
    rw [FilterDocument.unescapeChars, ih hrest]
    rfl
  | case4 c rest hlone hpair ih =>
    rw [parts?.eq_4 c rest hlone hpair] at h
    obtain ⟨others, hrest, rfl⟩ := Option.map_eq_some_iff.mp h
    rw [FilterDocument.unescapeChars.eq_3 c rest hpair, ih hrest]
    rfl

/-- A pattern that stands for a text matches, letter case aside, what contains the text. -/
theorem StandsFor.matchesPattern_eq {pattern text : String} (h : StandsFor pattern text) (value : Json) :
    FilterDocument.matchesPattern true pattern value = containsText text value := by
  obtain ⟨parts, hread, -, hchars⟩ := h
  cases value with
  | text s =>
    rw [FilterDocument.matchesPattern, unescapeChars_of_parts? hread, hchars, if_pos rfl, containsText]
  | _ => rfl

/-- Text after text is escaped part by part. -/
theorem escapeChars_append (text more : List Char) : escapeChars (text ++ more) = escapeChars text ++ escapeChars more := by
  induction text with
  | nil => rfl
  | cons c text ih =>
    by_cases h : isPatternCharacter c = true <;> simp [escapeChars, h, ih]

/-- Escaped texts are literal and can be got back. For every text, the pattern that is written for it can be read to its
end, has no bare character with a meaning, and stands for this text and no other; so different texts have different
patterns. The pattern of two texts one after the other is that of the first one followed by that of the second. The
document of a search asks for the pattern of its needle, which stands for the needle and nothing else, and matches,
letter case aside, the strings that contain the needle. -/
theorem escaped_texts_stand_for_themselves :
    (∀ text other, StandsFor (escapePattern text) other ↔ other = text) ∧
    Function.Injective escapePattern ∧
    (∀ text more, escapePattern (text ++ more) = escapePattern text ++ escapePattern more) ∧
    ∀ path needle, ∃ pattern,
      (contains path needle).document = .single path (.object [("$regex", .text pattern), ("$options", .text "i")]) ∧
      (∀ text, StandsFor pattern text ↔ text = needle) ∧
      ∀ value, FilterDocument.matchesPattern true pattern value = containsText needle value := by
  have hself (text : String) : StandsFor (escapePattern text) text := standsFor_escapePattern_iff.mpr rfl
  refine ⟨fun text other => standsFor_escapePattern_iff, ?_, ?_, ?_⟩
  · intro text other heq
    exact standsFor_escapePattern_iff.mp (heq ▸ hself text)
  · intro text more
    rw [escapePattern, String.toList_append, escapeChars_append, String.ofList_append, escapePattern, escapePattern]
  · intro path needle
    exact ⟨escapePattern needle, rfl, fun text => standsFor_escapePattern_iff, (hself needle).matchesPattern_eq⟩

/-- A backslash before a point and one at the end are escaped on their own. -/
example : escapePattern "a\\.b\\" = "a\\\\\\.b\\\\" := by decide

end Listing.Filter
