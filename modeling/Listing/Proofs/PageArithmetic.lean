import Listing.Proofs.Counts
import Listing.Proofs.PageContent
import Mathlib.Algebra.Group.Nat.Defs

/-!
# Page arithmetic in words

Pages are counted in natural numbers, but a request is answered with words of 64 bits. A word cannot be subtracted
from a smaller one, nothing can be divided by zero, and a bound from above has to be no less than the bound from below.
Here the arithmetic of pages is done in words, and a step that cannot be taken leaves no result. No request and no
limits lead there: every step can be taken, and the words are the natural numbers. So the page count and the flag of a
next page are those of the exact offsets, also where the number of documents to skip is cut at the largest word.
-/

namespace Listing

namespace Word

/-- The largest word counts as far as a count can. -/
theorem toNat_le_maxCount (a : UInt64) : a.toNat ≤ Text.maxCount := Nat.le_of_lt_succ a.toNat_lt

/-- A number that is counted is not cut to 64 bits. -/
theorem mod_of_le_maxCount {n : Nat} (h : n ≤ Text.maxCount) : n % 2 ^ 64 = n := Nat.mod_eq_of_lt (Nat.lt_succ_of_le h)

/-- The sum of two words, if it is one. -/
def add? (a b : UInt64) : Option UInt64 := if a.toNat + b.toNat ≤ Text.maxCount then some (a + b) else none

/-- The difference of two words, if it is not below zero. -/
def sub? (a b : UInt64) : Option UInt64 := if b ≤ a then some (a - b) else none

/-- The product of two words, the largest word if it is no word. -/
def saturatingMul (a b : UInt64) : UInt64 :=
  if a.toNat * b.toNat ≤ Text.maxCount then a * b else .ofNat Text.maxCount

/-- The nearest word between two bounds, if these are in order. -/
def clamp? (value low high : UInt64) : Option UInt64 :=
  if low ≤ high then some (if value < low then low else if high < value then high else value) else none

/-- The quotient of two words, rounded up, if the divisor is not zero. -/
def divCeil? (a b : UInt64) : Option UInt64 :=
  if b = 0 then none else if 0 < a % b then add? (a / b) 1 else some (a / b)

/-- The greater of two words is the greater number. -/
theorem toNat_max (a b : UInt64) : (max a b).toNat = max a.toNat b.toNat := by
  simp only [UInt64.max_def, Nat.max_def, UInt64.le_iff_toNat_le, apply_ite UInt64.toNat]

/-- A sum that is a word is exact. -/
theorem add?_eq_some {a b : UInt64} (h : a.toNat + b.toNat ≤ Text.maxCount) :
    ∃ sum, add? a b = some sum ∧ sum.toNat = a.toNat + b.toNat := by
  refine ⟨a + b, if_pos h, ?_⟩
  rw [UInt64.toNat_add, mod_of_le_maxCount h]

/-- A word can be subtracted from one that is no less. -/
theorem sub?_eq_some {a b : UInt64} (h : b.toNat ≤ a.toNat) :
    ∃ difference, sub? a b = some difference ∧ difference.toNat = a.toNat - b.toNat :=
  have hle : b ≤ a := UInt64.le_iff_toNat_le.mpr h
  ⟨a - b, if_pos hle, UInt64.toNat_sub_of_le a b hle⟩

/-- A product is exact up to the largest word. -/
theorem toNat_saturatingMul (a b : UInt64) : (saturatingMul a b).toNat = min (a.toNat * b.toNat) Text.maxCount := by
  rw [saturatingMul]
  split
  · next h => rw [UInt64.toNat_mul, mod_of_le_maxCount h, Nat.min_eq_left h]
  · next h => exact (Nat.min_eq_right (Nat.le_of_not_le h)).symm

/-- There is a nearest word between bounds that are in order. -/
theorem clamp?_eq_some (value : UInt64) {low high : UInt64} (h : low.toNat ≤ high.toNat) :
    ∃ nearest, clamp? value low high = some nearest ∧ nearest.toNat = min (max value.toNat low.toNat) high.toNat := by
  refine ⟨_, if_pos (UInt64.le_iff_toNat_le.mpr h), ?_⟩
  simp only [UInt64.lt_iff_toNat_lt]
  split
  · omega
  · split <;> omega

/-- A quotient can be rounded up, because a quotient that has to be rounded is not the largest word. -/
theorem divCeil?_eq_some (a : UInt64) {b : UInt64} (hb : 0 < b.toNat) :
    ∃ quotient, divCeil? a b = some quotient ∧ quotient.toNat = (a.toNat + (b.toNat - 1)) / b.toNat := by
  have hne : b ≠ 0 := fun heq => Nat.lt_irrefl 0 (heq ▸ hb : 0 < (0 : UInt64).toNat)
  have hparts : a.toNat / b.toNat * b.toNat + a.toNat % b.toNat = a.toNat := Nat.div_add_mod' _ _
  have hrest : a.toNat % b.toNat < b.toNat := Nat.mod_lt _ hb
  rw [divCeil?, if_neg hne]
  by_cases hexact : 0 < a % b
  · have hround : 0 < a.toNat % b.toNat := UInt64.toNat_mod a b ▸ UInt64.lt_iff_toNat_lt.mp hexact
    have hquotient : a.toNat / b.toNat ≤ a.toNat / b.toNat * b.toNat := Nat.le_mul_of_pos_right _ hb
    have hword : (a / b).toNat + (1 : UInt64).toNat ≤ Text.maxCount := by
      have ha := toNat_le_maxCount a
      rw [UInt64.toNat_div, UInt64.toNat_one]
      omega
    obtain ⟨quotient, hsum, hvalue⟩ := add?_eq_some hword
    refine ⟨quotient, (if_pos hexact).trans hsum, ?_⟩
    rw [hvalue, UInt64.toNat_div, UInt64.toNat_one]
    refine (Nat.div_eq_of_lt_le ?_ ?_).symm
    · rw [Nat.succ_mul]
      omega
    · rw [Nat.succ_mul, Nat.succ_mul]
      omega
  · have hround : a.toNat % b.toNat = 0 := by
      rw [← UInt64.toNat_mod]
      exact Nat.eq_zero_of_not_pos fun hpos => hexact (UInt64.lt_iff_toNat_lt.mpr hpos)
    refine ⟨a / b, if_neg hexact, ?_⟩
    rw [UInt64.toNat_div]
    refine (Nat.div_eq_of_lt_le ?_ ?_).symm
    · omega
    · rw [Nat.succ_mul]
      omega

end Word

namespace Pagination

/-- The part of a listing that is asked for, in words. -/
structure Words where
  /-- The page, from one. -/
  page : UInt64
  /-- The largest number of documents on the page. -/
  limit : UInt64
  /-- How many documents come before the page. -/
  skip : UInt64

/-- The numbers that the words are. -/
def Words.toPagination (words : Words) : Pagination where
  page := words.page.toNat
  limit := words.limit.toNat
  skip := words.skip.toNat

/-- A count in a parameter, as a word. -/
def countWord? (text : String) : Option UInt64 := (count? text).map UInt64.ofNat

/-- A count other than zero in a parameter, as a word. -/
def positiveWord? (text : String) : Option UInt64 := (countWord? text).filter (0 < ·)

/-- Read the parameters of pagination into words, as far as every step has a result. -/
def parseWords? (page limit skip : Option String) (defaultLimit maxLimit : UInt64) : Option Words := do
  let page := (page.bind positiveWord?).getD 1
  let limit ← Word.clamp? ((limit.bind positiveWord?).getD defaultLimit) 1 (max maxLimit 1)
  let skip ←
    match skip.bind countWord? with
    | some skip => some skip
    | none => (Word.sub? page 1).map (Word.saturatingMul · limit)
  return { page, limit, skip }

/-- The count in a parameter is the number that its word is. -/
theorem map_toNat_countWord? (text : String) : (countWord? text).map UInt64.toNat = count? text := by
  have hword : ∀ n, count? text = some n → (UInt64.toNat ∘ UInt64.ofNat) n = id n := fun n hn =>
    UInt64.toNat_ofNat'.trans (Word.mod_of_le_maxCount (Text.le_maxCount_of_count? hn))
  rw [countWord?, Option.map_map, Option.map_congr hword, Option.map_id, id]

/-- The count other than zero in a parameter is the number that its word is. -/
theorem map_toNat_positiveWord? (text : String) : (positiveWord? text).map UInt64.toNat = positive? text := by
  rw [positiveWord?, positive?, ← map_toNat_countWord?, Option.filter_map]
  congr 2

/-- A count in a parameter that may be missing, or the default, is the number that its word is. -/
theorem toNat_getD_positiveWord? (parameter : Option String) (default : UInt64) :
    ((parameter.bind positiveWord?).getD default).toNat = (parameter.bind positive?).getD default.toNat := by
  have hword : Option.map UInt64.toNat ∘ positiveWord? = positive? := funext map_toNat_positiveWord?
  rw [← Option.getD_map UInt64.toNat, Option.map_bind, hword]

/-- No page is numbered zero. -/
theorem page_pos (page limit skip : Option String) (settings : Settings) : 0 < (parse page limit skip settings).page := by
  change 0 < (page.bind positive?).getD 1
  cases hpage : page.bind positive? with
  | none => exact Nat.one_pos
  | some n =>
    obtain ⟨text, -, hn⟩ := Option.bind_eq_some_iff.mp hpage
    exact of_decide_eq_true (Option.filter_eq_some_iff.mp hn).2

/-- Every step of the arithmetic has a result, and the words are the numbers. -/
theorem exists_parseWords?_eq_some (page limit skip : Option String) (settings : Settings)
    (defaultLimit maxLimit : UInt64) :
    ∃ words, parseWords? page limit skip defaultLimit maxLimit = some words ∧
      words.toPagination = parse page limit skip
        { settings with defaultLimit := defaultLimit.toNat, maxLimit := maxLimit.toNat } := by
  have hbounds : (1 : UInt64).toNat ≤ (max maxLimit 1).toNat := by
    rw [Word.toNat_max]
    exact Nat.le_max_right _ _
  obtain ⟨size, hsize, hsizeValue⟩ := Word.clamp?_eq_some ((limit.bind positiveWord?).getD defaultLimit) hbounds
  rw [toNat_getD_positiveWord?, Word.toNat_max] at hsizeValue
  have hpageValue : ((page.bind positiveWord?).getD 1).toNat = (page.bind positive?).getD 1 :=
    toNat_getD_positiveWord? page 1
  have hskipValue : (skip.bind countWord?).map UInt64.toNat = skip.bind count? := by
    have hword : Option.map UInt64.toNat ∘ countWord? = count? := funext map_toNat_countWord?
    rw [Option.map_bind, hword]
  cases hskip : skip.bind countWord? with
  | some given =>
    rw [hskip, Option.map_some] at hskipValue
    refine ⟨⟨(page.bind positiveWord?).getD 1, size, given⟩, ?_, ?_⟩
    · simp only [parseWords?, hsize, hskip]
      rfl
    · rw [Words.toPagination, parse, ← hskipValue, hpageValue, hsizeValue]
      rfl
  | none =>
    rw [hskip, Option.map_none] at hskipValue
    have hpage : (1 : UInt64).toNat ≤ ((page.bind positiveWord?).getD 1).toNat := by
      rw [hpageValue]
      exact page_pos page limit skip settings
    obtain ⟨earlier, hearlier, hearlierValue⟩ := Word.sub?_eq_some hpage
    refine ⟨⟨(page.bind positiveWord?).getD 1, size, Word.saturatingMul earlier size⟩, ?_, ?_⟩
    · simp only [parseWords?, hsize, hskip, hearlier]
      rfl
    · rw [Words.toPagination, parse, ← hskipValue, Word.toNat_saturatingMul, hearlierValue, hpageValue, hsizeValue]
      rfl

end Pagination

namespace PageInfo

/-- The page information for a number of matching documents that is a word, as far as every step has a result. -/
def ofWords? (pagination : Pagination.Words) (itemCount : UInt64) : Option PageInfo :=
  (Word.divCeil? itemCount (max pagination.limit 1)).map fun pageCount =>
    { currentPage := pagination.page.toNat
      perPage := pagination.limit.toNat
      pageCount := pageCount.toNat
      skipCount := pagination.skip.toNat
      itemCount := itemCount.toNat
      hasNextPage := pagination.page < pageCount
      hasPreviousPage := 1 < pagination.page }

/-- Page information can be computed in words, and it is that of the numbers. -/
theorem ofWords?_eq_some (pagination : Pagination.Words) (itemCount : UInt64) :
    ofWords? pagination itemCount = some (of pagination.toPagination itemCount.toNat) := by
  have hlimit : 0 < (max pagination.limit 1).toNat := by
    rw [Word.toNat_max]
    exact Nat.lt_of_lt_of_le Nat.one_pos (Nat.le_max_right _ _)
  obtain ⟨pageCount, hpageCount, hvalue⟩ := Word.divCeil?_eq_some itemCount hlimit
  rw [Word.toNat_max] at hvalue
  have hpages : pageCount.toNat = pagesFor pagination.limit.toNat itemCount.toNat := hvalue
  rw [ofWords?, hpageCount, Option.map_some, of, Pagination.Words.toPagination]
  simp only [UInt64.lt_iff_toNat_lt, hpages, UInt64.toNat_one]

/-- Page information counts the pages of a size exactly: they hold all the documents, the last of them is not empty,
and there is a next page when documents are left after this one. -/
structure Counts (info : PageInfo) (page limit itemCount : Nat) : Prop where
  /-- There are no pages exactly when there are no documents. -/
  pageCount_eq_zero_iff : info.pageCount = 0 ↔ itemCount = 0
  /-- The pages before the last one do not hold all the documents. -/
  lt_itemCount : itemCount ≠ 0 → (info.pageCount - 1) * limit < itemCount
  /-- The pages hold all the documents. -/
  itemCount_le : itemCount ≠ 0 → itemCount ≤ info.pageCount * limit
  /-- There is a next page when the pages up to this one do not hold all the documents. -/
  hasNextPage_iff : info.hasNextPage = true ↔ (page - 1) * limit + limit < itemCount

/-- Page information counts exactly for a positive page and page size. -/
theorem counts_of {pagination : Pagination} (hpage : 0 < pagination.page) (hlimit : 0 < pagination.limit)
    (itemCount : Nat) : (of pagination itemCount).Counts pagination.page pagination.limit itemCount := by
  have hpages (page : Nat) : page < pagesFor pagination.limit itemCount ↔ page * pagination.limit < itemCount :=
    lt_pagesFor_iff hlimit
  have hzero : pagesFor pagination.limit itemCount = 0 ↔ itemCount = 0 := by
    have hfirst := hpages 0
    rw [Nat.zero_mul] at hfirst
    omega
  constructor
  case pageCount_eq_zero_iff => exact hzero
  case lt_itemCount =>
    intro hsome
    exact (hpages _).mp (Nat.sub_lt (Nat.pos_of_ne_zero (mt hzero.mp hsome)) Nat.one_pos)
  case itemCount_le => exact fun _ => Nat.not_lt.mp fun h => Nat.lt_irrefl _ ((hpages _).mpr h)
  case hasNextPage_iff =>
    have hnext : (pagination.page - 1) * pagination.limit + pagination.limit = pagination.page * pagination.limit := by
      rw [← Nat.succ_mul, Nat.succ_eq_add_one, Nat.sub_add_cancel hpage]
    rw [hnext, ← hpages]
    exact decide_eq_true_iff

end PageInfo

namespace Pagination

/-- The arithmetic of pages is safe and exact in words. Whatever the parameters and the limits, every step has a
result, and the words are the numbers of the pagination. The page and the page size are positive, and the page size is
at most the largest one, which counts as one when it is zero. A count to skip is taken as it is given; without one the
documents of the earlier pages are skipped, as far as they can be counted. And for every number of documents that is
a word, the page information is there, and it counts the pages exactly. -/
theorem arithmetic_exact_in_words (page limit skip : Option String) (settings : Settings)
    (defaultLimit maxLimit : UInt64) :
    ∃ words : Words,
      parseWords? page limit skip defaultLimit maxLimit = some words ∧
      words.toPagination = parse page limit skip
        { settings with defaultLimit := defaultLimit.toNat, maxLimit := maxLimit.toNat } ∧
      1 ≤ words.page.toNat ∧ 1 ≤ words.limit.toNat ∧ words.limit.toNat ≤ max 1 maxLimit.toNat ∧
      (∀ n, (∃ text, skip = some text ∧ Gives text n) → words.skip.toNat = n) ∧
      ((∀ n, ¬ ∃ text, skip = some text ∧ Gives text n) →
        words.skip.toNat = min ((words.page.toNat - 1) * words.limit.toNat) (2 ^ 64 - 1)) ∧
      ∀ itemCount : UInt64, ∃ info : PageInfo,
        PageInfo.ofWords? words itemCount = some info ∧
        info = .of words.toPagination itemCount.toNat ∧
        info.Counts words.page.toNat words.limit.toNat itemCount.toNat := by
  obtain ⟨words, hwords, hvalues⟩ := exists_parseWords?_eq_some page limit skip settings defaultLimit maxLimit
  have hpage : 0 < words.toPagination.page := hvalues ▸ page_pos ..
  have hlimit : 0 < words.toPagination.limit := hvalues ▸ limit_pos ..
  have hskip : words.toPagination.skip = (skip.bind count?).getD
      (min ((words.toPagination.page - 1) * words.toPagination.limit) Text.maxCount) := by
    rw [hvalues]
    rfl
  change words.skip.toNat = _ at hskip
  have hgives (n : Nat) : skip.bind count? = some n ↔ ∃ text, skip = some text ∧ Gives text n := by
    simp only [Option.bind_eq_some_iff, count?_eq_some_iff]
  refine ⟨words, hwords, hvalues, hpage, hlimit, ?_, fun n hn => ?_, fun hnone => ?_, fun itemCount => ?_⟩
  · have hle := limit_le page limit skip
      { settings with defaultLimit := defaultLimit.toNat, maxLimit := maxLimit.toNat }
    rw [← hvalues] at hle
    exact hle
  · rw [hskip, (hgives n).mpr hn, Option.getD_some]
  · have hmissing : skip.bind count? = none :=
      Option.eq_none_iff_forall_ne_some.mpr fun n hn => hnone n ((hgives n).mp hn)
    rw [hskip, hmissing, Option.getD_none]
    rfl
  · exact ⟨_, PageInfo.ofWords?_eq_some words itemCount, rfl, PageInfo.counts_of hpage hlimit itemCount.toNat⟩

/-- The largest page that can be named is beyond all documents, although its offset is cut at the largest word. -/
theorem words_of_largest_page :
    ∃ words, parseWords? (some "18446744073709551615") (some " +1000") (some "-1") 0 18446744073709551615 = some words ∧
      words.limit.toNat = 1000 ∧ words.skip.toNat = 2 ^ 64 - 1 ∧
      ∃ info, PageInfo.ofWords? words 18446744073709551615 = some info ∧ info.hasNextPage = false := by
  obtain ⟨words, hwords, hvalues, -, -, -, -, -, hinfo⟩ := arithmetic_exact_in_words (some "18446744073709551615")
    (some " +1000") (some "-1") {} 0 18446744073709551615
  obtain ⟨info, hword, rfl, -⟩ := hinfo 18446744073709551615
  refine ⟨words, hwords, ?_, ?_, _, hword, ?_⟩
  · exact (congrArg limit hvalues).trans (by decide)
  · exact (congrArg skip hvalues).trans (by decide)
  · rw [hvalues]
    decide

end Pagination

end Listing
