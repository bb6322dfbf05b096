import Listing.Page
import Listing.Proofs.Pieces

/-!
# Pages of a list

A page number written in decimals is read back, also the largest one. Pages of one size follow on one
another: together the pages that are counted make up the whole list, each but the last one is full,
and later ones are empty. Counting the documents to skip only up to the largest count does not move
any page of a list that can be counted.
-/

namespace Listing

namespace Text

/-- No digit is a blank. -/
theorem isBlank_of_isDigit {c : Char} (h : c.isDigit = true) : isBlank c = false := by
  have hrange : 48 ≤ c.toNat ∧ c.toNat ≤ 57 := by
    simp only [Char.isDigit, Bool.and_eq_true, decide_eq_true_eq, ge_iff_le, UInt32.le_iff_toNat_le] at h
    exact h
  simp only [isBlank, inRanges, blankRanges, List.any_cons, List.any_nil, Bool.or_eq_false_iff,
    Bool.and_eq_false_iff, decide_eq_false_iff_not, and_true]
  omega

/-- A text without blanks is not trimmed. -/
theorem trimChars_of_not_blank {text : List Char} (h : ∀ c ∈ text, isBlank c = false) : trimChars text = text :=
  trimChars_eq_self_iff.mpr ⟨fun c hc => h c (List.mem_of_mem_head? hc), fun c hc => h c (List.mem_of_mem_getLast? hc)⟩

/-- The decimals of a number are digits. -/
theorem isDigit_of_mem_toDigits {n : Nat} {c : Char} (h : c ∈ Nat.toDigits 10 n) : c.isDigit = true :=
  Nat.isDigit_of_mem_toDigits (by decide) (by decide) h

/-- The decimals of a number denote it. -/
theorem digitsValue_toDigits (n : Nat) : digitsValue (Nat.toDigits 10 n) = n := by
  rw [digitsValue, ← Nat.ofDigitChars_eq_foldl, Nat.ofDigitChars_ten_toDigits]

/-- The decimals of a number are read back, as far as numbers are counted. -/
theorem count?_toDigits {n : Nat} (hn : n ≤ maxCount) : count? (Nat.toDigits 10 n) = some n := by
  have hplus : dropPlus (Nat.toDigits 10 n) = Nat.toDigits 10 n := by
    rw [dropPlus]
    intro rest heq
    exact absurd (isDigit_of_mem_toDigits (heq ▸ List.mem_cons_self)) (by decide)
  have hall : (Nat.toDigits 10 n).all Char.isDigit := List.all_eq_true.mpr fun _ hc => isDigit_of_mem_toDigits hc
  rw [count?, hplus, digits?, if_pos ⟨Nat.toDigits_ne_nil, hall⟩, digitsValue_toDigits, Option.filter_some,
    if_pos (decide_eq_true hn)]

end Text

namespace Pagination

/-- A number other than zero is read back from its decimals. -/
theorem positive?_toString {n : Nat} (hpos : 0 < n) (hn : n ≤ Text.maxCount) : positive? (toString n) = some n := by
  have hdigit : ∀ c ∈ Nat.toDigits 10 n, Text.isBlank c = false :=
    fun _ hc => Text.isBlank_of_isDigit (Text.isDigit_of_mem_toDigits hc)
  rw [positive?, count?, Nat.toString_eq_repr, Nat.toList_repr, Text.trimChars_of_not_blank hdigit,
    Text.count?_toDigits hn, Option.filter_some, if_pos (decide_eq_true hpos)]

/-- A page of the same size with its own number. -/
def atPage (pagination : Pagination) (number : Nat) : Pagination where
  page := number
  limit := pagination.limit
  skip := min ((number - 1) * pagination.limit) Text.maxCount

/-- Giving a page number and nothing to skip asks for the page of that number. -/
theorem parse_toString {number : Nat} (hpos : 0 < number) (hnumber : number ≤ Text.maxCount) (limit : Option String)
    (settings : Settings) :
    parse (some (toString number)) limit none settings = (parse none limit none settings).atPage number := by
  rw [parse, Option.bind_some, positive?_toString hpos hnumber]
  rfl

/-- No page size is zero. -/
theorem limit_pos (page limit skip : Option String) (settings : Settings) :
    0 < (parse page limit skip settings).limit := by
  rw [parse]
  exact Nat.lt_min.mpr ⟨Nat.le_max_right _ 1, Nat.le_max_right _ 1⟩

end Pagination

/-- A page, numbered from zero, is counted exactly when the pages before it leave documents over. -/
theorem PageInfo.lt_pagesFor_iff {limit itemCount page : Nat} (hlimit : 0 < limit) :
    page < pagesFor limit itemCount ↔ page * limit < itemCount := by
  rw [pagesFor, Nat.max_eq_left hlimit, ← Nat.succ_le_iff, Nat.le_div_iff_mul_le hlimit, Nat.succ_mul]
  omega

/-- There are no more pages than documents. -/
theorem PageInfo.pagesFor_le {limit itemCount : Nat} (hlimit : 0 < limit) : pagesFor limit itemCount ≤ itemCount := by
  refine Nat.not_lt.mp fun h => ?_
  have hpage : itemCount * limit < itemCount := (lt_pagesFor_iff hlimit).mp h
  exact Nat.not_lt.mpr (Nat.le_mul_of_pos_right itemCount hlimit) hpage

section

variable {α : Type} {documents : List α} {limit : Nat}

/-- Skipping no more than the largest count skips the same documents of a list that can be counted. -/
theorem drop_min_maxCount (hcounted : documents.length ≤ Text.maxCount) (skip : Nat) :
    documents.drop (min skip Text.maxCount) = documents.drop skip := by
  rw [List.drop_eq_drop_iff]
  omega

/-- The first pages together are the beginning of the list. -/
theorem flatMap_pages (documents : List α) (limit count : Nat) :
    ((List.range count).flatMap fun page => (documents.drop (page * limit)).take limit) =
      documents.take (count * limit) := by
  induction count with
  | zero => rw [List.range_zero, List.flatMap_nil, Nat.zero_mul, List.take_zero]
  | succ count ih =>
    rw [List.range_succ, List.flatMap_append, ih, List.flatMap_singleton, Nat.succ_mul, List.take_add]

/-- All the pages that are counted together are the list. -/
theorem flatMap_pagesFor (hlimit : 0 < limit) :
    ((List.range (PageInfo.pagesFor limit documents.length)).flatMap fun page =>
      (documents.drop (page * limit)).take limit) = documents := by
  have hlast : documents.length ≤ PageInfo.pagesFor limit documents.length * limit :=
    Nat.not_lt.mp fun h => Nat.lt_irrefl _ ((PageInfo.lt_pagesFor_iff hlimit).mpr h)
  rw [flatMap_pages, List.take_of_length_le hlast]

/-- A page with a later one is full. -/
theorem length_page_of_lt {page : Nat} (hlimit : 0 < limit)
    (hpage : page + 1 < PageInfo.pagesFor limit documents.length) :
    ((documents.drop (page * limit)).take limit).length = limit := by
  have hnext := (PageInfo.lt_pagesFor_iff hlimit).mp hpage
  rw [Nat.succ_mul] at hnext
  rw [List.length_take, List.length_drop]
  omega

/-- A page has documents exactly when it is one of those that are counted. -/
theorem page_ne_nil_iff {page : Nat} (hlimit : 0 < limit) :
    (documents.drop (page * limit)).take limit ≠ [] ↔ page < PageInfo.pagesFor limit documents.length := by
  rw [PageInfo.lt_pagesFor_iff hlimit, ← List.length_pos_iff, List.length_take, List.length_drop]
  omega

end

end Listing
