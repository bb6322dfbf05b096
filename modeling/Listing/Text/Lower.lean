import Listing.Text.CaseTable
import Listing.Text.Ranges

/-!
# Lower case

The full Unicode lower case of a text, in no particular language. Every character is mapped on
its own, except a capital sigma, whose form depends on whether it ends a word.
-/

namespace Listing.Text

/-- The lower case of one character, apart from the two special cases of `lowerChars`. -/
def lowerChar (c : Char) : Char :=
  if c.toNat < 128 then c.toLower
  else
    match lowerCaseRuns.find? fun run =>
        decide (run.1 ≤ c.toNat) && decide (c.toNat ≤ run.2.1) && (c.toNat - run.1) % run.2.2.1 == 0 with
    | some run => Char.ofNat (c.toNat + run.2.2.2).toNat
    | none => c

/-- Whether the first character that does not ignore case belongs to a cased script. -/
def meetsCased (text : List Char) : Bool :=
  match text.dropWhile (inRanges caseIgnorableRanges) with
  | [] => false
  | c :: _ => inRanges casedRanges c

/-- Lower case of a text that follows `before`, which is held in reverse. A capital sigma at the
end of a word becomes the final form, and a dotted capital `I` keeps its dot as a character of
its own. -/
def lowerFrom (before : List Char) : List Char → List Char
  | [] => []
  | c :: rest =>
    let lowered :=
      if c = 'Σ' then [if meetsCased before && !meetsCased rest then 'ς' else 'σ']
      else if c = 'İ' then ['i', '\u0307']
      else [lowerChar c]
    lowered ++ lowerFrom (c :: before) rest

/-- Lower case of a whole text. -/
def lowerChars (text : List Char) : List Char := lowerFrom [] text

/-- Whether `needle` stands somewhere in `text`. -/
def occursIn (needle : List Char) : List Char → Bool
  | [] => needle.isEmpty
  | c :: rest => needle.isPrefixOf (c :: rest) || occursIn needle rest

/-- Occurring in a text is being one of its infixes. -/
theorem occursIn_eq_true_iff {needle text : List Char} :
    occursIn needle text = true ↔ needle <:+: text := by
  induction text with
  | nil => simp [occursIn]
  | cons c rest ih => simp [occursIn, ih, List.infix_cons_iff]

end Listing.Text
