/-!
# Splitting at separators

Lists inside a parameter value are separated by single characters. Splitting keeps empty pieces,
so a text with `n` separators always has `n + 1` pieces.
-/

namespace Listing.Text

/-- The pieces of a string between the characters that satisfy `isSeparator`. -/
def splitBy (isSeparator : Char → Bool) (text : String) : List String :=
  (text.toList.splitOnP isSeparator).map String.ofList

/-- The pieces of a string between the occurrences of one character. -/
def split (separator : Char) (text : String) : List String := splitBy (· == separator) text

/-- A text without the separator is not split. -/
theorem split_of_not_mem {separator : Char} {text : String} (h : separator ∉ text.toList) :
    split separator text = [text] := by
  have hnone : ∀ c ∈ text.toList, (c == separator) = false := by
    intro c hc
    rw [beq_eq_false_iff_ne]
    intro heq
    exact h (heq ▸ hc)
  unfold split splitBy
  rw [List.splitOnP_eq_singleton hnone, List.map_singleton, String.ofList_toList]

/-- A text always has pieces. -/
theorem split_ne_nil (separator : Char) (text : String) : split separator text ≠ [] := by
  unfold split splitBy
  simp [List.splitOnP_ne_nil]

/-- Cut a text at the first occurrence of a character, which belongs to neither part; `none` if
the character does not occur. -/
def cutAt (separator : Char) : List Char → Option (List Char × List Char)
  | [] => none
  | c :: rest =>
    if c = separator then some ([], rest)
    else (cutAt separator rest).map fun parts => (c :: parts.1, parts.2)

/-- A cut loses nothing but the separator, and cuts at its first occurrence. -/
theorem cutAt_eq_some {separator : Char} {text before after : List Char}
    (h : cutAt separator text = some (before, after)) :
    text = before ++ separator :: after ∧ separator ∉ before := by
  induction text generalizing before with
  | nil => simp [cutAt] at h
  | cons c rest ih =>
    by_cases hc : c = separator
    · simp only [cutAt, if_pos hc, Option.some.injEq, Prod.mk.injEq] at h
      obtain ⟨rfl, rfl⟩ := h
      simp [hc]
    · simp only [cutAt, if_neg hc, Option.map_eq_some_iff, Prod.mk.injEq] at h
      obtain ⟨⟨first, second⟩, hcut, rfl, rfl⟩ := h
      obtain ⟨rfl, hmem⟩ := ih hcut
      exact ⟨rfl, by simp [hmem, Ne.symm hc]⟩

end Listing.Text
