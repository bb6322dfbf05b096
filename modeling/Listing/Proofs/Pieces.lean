import Listing.Text.Blank
import Listing.Text.Split
import Mathlib.Data.List.Basic
import Mathlib.Data.List.DropRight

/-!
# Pieces and their trimming

A list of values is written with a separator between them. Texts without separators are read back from the text that is
made of them, and a text that goes on after a separator has the pieces of both parts. Trimming takes the blanks away at
both ends and nothing else, so that a text without blanks at its ends is left alone.
-/

namespace Listing.Text

section

variable {isSeparator : Char → Bool} {separator : Char}

/-- The pieces of a text have characters of the text in them, and no separator. -/
theorem mem_and_eq_false_of_mem_splitOnP {text piece : List Char}
    (h : piece ∈ text.splitOnP isSeparator) : ∀ c ∈ piece, c ∈ text ∧ isSeparator c = false := by
  induction text generalizing piece with
  | nil =>
    rw [List.splitOnP_nil, List.mem_singleton] at h
    exact fun c hc => absurd (h ▸ hc) List.not_mem_nil
  | cons d rest ih =>
    have hrest {piece : List Char} (h : piece ∈ rest.splitOnP isSeparator) :
        ∀ c ∈ piece, c ∈ d :: rest ∧ isSeparator c = false :=
      fun c hc => ⟨List.mem_cons_of_mem _ (ih h c hc).1, (ih h c hc).2⟩
    rw [List.splitOnP_cons_eq_if_modifyHead] at h
    split at h
    · rcases List.mem_cons.mp h with rfl | h
      · exact fun c hc => absurd hc List.not_mem_nil
      · exact hrest h
    · next hd =>
      obtain ⟨first, others, hsplit⟩ := List.exists_cons_of_ne_nil (List.splitOnP_ne_nil isSeparator rest)
      rw [hsplit, List.modifyHead_cons] at h
      rcases List.mem_cons.mp h with rfl | h
      · exact List.forall_mem_cons.mpr
          ⟨⟨List.mem_cons_self, Bool.eq_false_iff.mpr hd⟩, hrest (hsplit ▸ List.mem_cons_self)⟩
      · exact hrest (hsplit ▸ List.mem_cons_of_mem _ h)

/-- Pieces without separators are read back from what is made of them. -/
theorem splitOnP_intercalate (hseparator : isSeparator separator = true) {pieces : List (List Char)} (hsome : pieces ≠ [])
    (hpieces : ∀ piece ∈ pieces, ∀ c ∈ piece, isSeparator c = false) :
    ([separator].intercalate pieces).splitOnP isSeparator = pieces := by
  induction pieces with
  | nil => contradiction
  | cons piece rest ih =>
    obtain ⟨hpiece, hrest⟩ := List.forall_mem_cons.mp hpieces
    cases rest with
    | nil => rw [List.intercalate_singleton, List.splitOnP_eq_singleton hpiece]
    | cons next rest =>
      rw [List.intercalate_cons_cons, List.append_assoc, List.singleton_append,
        List.splitOnP_append_cons_of_forall_mem hpiece separator hseparator, ih (List.cons_ne_nil _ _) hrest]

/-- Strings without separators are the pieces of the string that is made of them. -/
theorem splitBy_intercalate (hseparator : isSeparator separator = true) {pieces : List String} (hsome : pieces ≠ [])
    (hpieces : ∀ piece ∈ pieces, ∀ c ∈ piece.toList, isSeparator c = false) :
    splitBy isSeparator ((String.singleton separator).intercalate pieces) = pieces := by
  have hsplit : ([separator].intercalate (pieces.map String.toList)).splitOnP isSeparator = pieces.map String.toList :=
    splitOnP_intercalate hseparator (by simpa using hsome) (List.forall_mem_map.mpr hpieces)
  rw [splitBy, String.toList_intercalate, String.toList_singleton, hsplit, List.map_map]
  exact (List.map_congr_left fun piece _ => String.ofList_toList).trans (List.map_id _)

/-- What is written after a separator has pieces of its own. -/
theorem splitBy_append (hseparator : isSeparator separator = true) (text more : String) :
    splitBy isSeparator (text ++ String.singleton separator ++ more) =
      splitBy isSeparator text ++ splitBy isSeparator more := by
  rw [splitBy, String.toList_append, String.toList_append, String.toList_singleton, List.append_assoc,
    List.singleton_append, List.splitOnP_append_cons _ _ hseparator, List.map_append, splitBy, splitBy]

/-- No piece has a separator in it. -/
theorem not_isSeparator_of_mem_splitBy {text piece : String} (h : piece ∈ splitBy isSeparator text) :
    ∀ c ∈ piece.toList, isSeparator c = false := by
  obtain ⟨chars, hchars, rfl⟩ := List.mem_map.mp h
  intro c hc
  rw [String.toList_ofList] at hc
  exact (mem_and_eq_false_of_mem_splitOnP hchars c hc).2

end

/-- Strings without a character are the pieces of the string that is made of them with this character in between. -/
theorem split_intercalate (separator : Char) {pieces : List String} (hsome : pieces ≠ [])
    (hpieces : ∀ piece ∈ pieces, separator ∉ piece.toList) :
    split separator ((String.singleton separator).intercalate pieces) = pieces := by
  unfold split
  refine splitBy_intercalate (by simp) hsome fun piece hpiece c hc => ?_
  exact beq_eq_false_iff_ne.mpr fun heq => hpieces piece hpiece (heq ▸ hc)

/-- What is written after a separating character has pieces of its own. -/
theorem split_append (separator : Char) (text more : String) :
    split separator (text ++ String.singleton separator ++ more) = split separator text ++ split separator more := by
  unfold split
  exact splitBy_append (by simp) text more

/-- No piece has the separating character in it. -/
theorem not_mem_of_mem_split {separator : Char} {text piece : String} (h : piece ∈ split separator text) :
    separator ∉ piece.toList := by
  intro hmem
  exact absurd rfl (beq_eq_false_iff_ne.mp (not_isSeparator_of_mem_splitBy h separator hmem))

/-- Whether a text neither begins nor ends with a blank. -/
structure Trimmed (text : List Char) : Prop where
  /-- The first character is no blank. -/
  head : ∀ c ∈ text.head?, isBlank c = false
  /-- The last character is no blank. -/
  last : ∀ c ∈ text.getLast?, isBlank c = false

/-- What is left of a text is a part of it. -/
theorem trimChars_infix (text : List Char) : trimChars text <:+: text :=
  (List.rdropWhile_prefix isBlank _).isInfix.trans (List.dropWhile_suffix isBlank).isInfix

/-- What is left of a text has no blanks at its ends. -/
theorem trimmed_trimChars (text : List Char) : Trimmed (trimChars text) := by
  have hhead : ∀ c ∈ (text.dropWhile isBlank).head?, isBlank c = false := by
    intro c hc
    have hfirst := List.head?_dropWhile_not isBlank text
    rw [Option.mem_def.mp hc] at hfirst
    simpa using hfirst
  constructor
  · intro c hc
    obtain ⟨blanks, htext⟩ := List.rdropWhile_prefix isBlank (text.dropWhile isBlank)
    refine hhead c ?_
    rw [← htext]
    exact List.mem_head?_append_of_mem_head? hc
  · intro c hc
    obtain ⟨hne, rfl⟩ := List.mem_getLast?_eq_getLast hc
    exact Bool.eq_false_iff.mpr (List.rdropWhile_last_not isBlank (text.dropWhile isBlank) hne)

/-- A text without blanks at its ends is left alone, and no other. -/
theorem trimChars_eq_self_iff {text : List Char} : trimChars text = text ↔ Trimmed text := by
  constructor
  · intro h
    exact h ▸ trimmed_trimChars text
  · intro h
    have hdrop : text.dropWhile isBlank = text := by
      cases text with
      | nil => rfl
      | cons c rest => rw [List.dropWhile_cons_of_neg (by simp [h.head c rfl])]
    rw [trimChars, hdrop]
    exact List.rdropWhile_eq_self_iff.mpr fun hne => by simp [h.last _ (List.getLast_mem_getLast? hne)]

/-- Trimming once is enough. -/
theorem trim_trim (text : String) : trim (trim text) = trim text := by
  rw [← String.toList_inj, toList_trim, toList_trim]
  exact trimChars_eq_self_iff.mpr (trimmed_trimChars text.toList)

end Listing.Text
