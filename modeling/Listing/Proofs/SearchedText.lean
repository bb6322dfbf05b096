import Listing.Filter.Holds
import Listing.Filter.Parameters

/-!
# Searching for a part of a text

A search compares lower case with lower case: that of the term with that of each searched text. Lower case is taken
character by character, and only a capital sigma looks at the characters around it, because it has a form of its own
at the end of a word. So the lower case of a part of a text is the piece of the lower case of the text at its place,
unless a capital sigma ends a word in the one and not in the other. Only then can a part of a text be searched for
in vain.
-/

namespace Listing

namespace Text

/-! ### Lower case between other texts -/

/-- Whether a capital sigma between two texts ends a word. The first text is held in reverse. -/
def endsWord (before after : List Char) : Bool := meetsCased before && !meetsCased after

/-- The lower case of a character between two texts, the first of them in reverse. -/
def lowerAt (before after : List Char) (c : Char) : List Char :=
  if c = 'Σ' then [if endsWord before after then 'ς' else 'σ']
  else if c = 'İ' then ['i', '\u0307']
  else [lowerChar c]

/-- The lower case of a text between two others, the first of them in reverse. -/
def lowerBetween (before after : List Char) : List Char → List Char
  | [] => []
  | c :: rest => lowerAt before (rest ++ after) c ++ lowerBetween (c :: before) after rest

/-- Lower case goes on after a character. -/
theorem lowerFrom_cons (before : List Char) (c : Char) (rest : List Char) :
    lowerFrom before (c :: rest) = lowerAt before rest c ++ lowerFrom (c :: before) rest := rfl

/-- The lower case of a text starts with that of its first part, which the rest of the text follows. -/
theorem lowerFrom_append (before part after : List Char) :
    lowerFrom before (part ++ after) = lowerBetween before after part ++ lowerFrom (part.reverse ++ before) after := by
  induction part generalizing before with
  | nil => rfl
  | cons c rest ih =>
    rw [List.cons_append, lowerFrom_cons, ih, lowerBetween, List.append_assoc, List.reverse_cons, List.append_assoc,
      List.singleton_append]

/-- The lower case of a whole text is that of a text with nothing before it and nothing after it. -/
theorem lowerChars_eq_lowerBetween (text : List Char) : lowerChars text = lowerBetween [] [] text := by
  have h := lowerFrom_append [] text []
  rwa [List.append_nil, lowerFrom, List.append_nil] at h

/-- The lower case of a text in three parts is made of those of its parts, each between the others. -/
theorem lowerChars_append_append (before part after : List Char) :
    lowerChars (before ++ part ++ after) =
      lowerBetween [] (part ++ after) before ++ lowerBetween before.reverse after part ++
        lowerBetween (part.reverse ++ before.reverse) [] after := by
  have hlast := lowerFrom_append (part.reverse ++ before.reverse) after []
  rw [List.append_nil, lowerFrom, List.append_nil] at hlast
  rw [lowerChars, List.append_assoc, lowerFrom_append, List.append_nil, lowerFrom_append, hlast, List.append_assoc]

section

variable (before after before' after' : List Char)

/-- The lower case of a character has the same number of characters wherever it stands. -/
theorem length_lowerAt (c : Char) : (lowerAt before after c).length = (lowerAt before' after' c).length := by
  unfold lowerAt
  split
  · rfl
  · rfl

/-- The lower case of a character is the same in two places, unless it is a capital sigma that ends a word in one of
them only. -/
theorem lowerAt_eq_iff (c : Char) :
    lowerAt before after c = lowerAt before' after' c ↔
      (c = 'Σ' → endsWord before after = endsWord before' after') := by
  unfold lowerAt
  split
  · next hsigma =>
    cases endsWord before after <;> cases endsWord before' after' <;> simp [hsigma]
  · next hother => simp [hother]

/-- The lower case of a text is the same in two places exactly when each capital sigma in it ends a word in both of
them or in none. -/
theorem lowerBetween_eq_iff (part : List Char) :
    lowerBetween before after part = lowerBetween before' after' part ↔
      ∀ left right, part = left ++ 'Σ' :: right →
        endsWord (left.reverse ++ before) (right ++ after) = endsWord (left.reverse ++ before') (right ++ after') := by
  induction part generalizing before before' with
  | nil => simp [lowerBetween]
  | cons c rest ih =>
    have hsplit {first second : List Char} :
        lowerAt before (rest ++ after) c ++ first = lowerAt before' (rest ++ after') c ++ second ↔
          lowerAt before (rest ++ after) c = lowerAt before' (rest ++ after') c ∧ first = second := by
      constructor
      · exact fun h => List.append_inj h (length_lowerAt _ _ _ _ c)
      · exact fun h => by rw [h.1, h.2]
    rw [lowerBetween, lowerBetween, hsplit, lowerAt_eq_iff, ih]
    constructor
    · intro h left right heq
      obtain ⟨hhead, hrest⟩ := h
      cases left with
      | nil =>
        obtain ⟨hsigma, rfl⟩ := List.cons.inj heq
        exact hhead hsigma
      | cons d left =>
        obtain ⟨rfl, hright⟩ := List.cons.inj heq
        rw [List.reverse_cons, List.append_assoc, List.append_assoc]
        exact hrest left right hright
    · intro h
      refine ⟨fun hsigma => h [] rest (by rw [hsigma, List.nil_append]), fun left right heq => ?_⟩
      have hright := h (c :: left) right (by rw [heq, List.cons_append])
      rwa [List.reverse_cons, List.append_assoc, List.append_assoc] at hright

end

/-- Whether each capital sigma of a text that stands between two others ends a word there exactly when it ends a word
in the text alone. -/
def KeepsSigmas (before part after : List Char) : Prop :=
  ∀ left right, part = left ++ 'Σ' :: right →
    endsWord left.reverse right = endsWord (left.reverse ++ before.reverse) (right ++ after)

/-- A text without capital sigmas keeps them anywhere. -/
theorem keepsSigmas_of_not_mem {part : List Char} (h : 'Σ' ∉ part) (before after : List Char) :
    KeepsSigmas before part after := by
  rintro left right rfl
  exact absurd (List.mem_append_right left List.mem_cons_self) h

/-- A part of a text has its own lower case there exactly when it keeps its capital sigmas. -/
theorem keepsSigmas_iff_lowerBetween {before part after : List Char} :
    KeepsSigmas before part after ↔ lowerBetween before.reverse after part = lowerChars part := by
  rw [lowerChars_eq_lowerBetween, eq_comm, lowerBetween_eq_iff]
  simp only [List.append_nil]
  rfl

/-- The lower case of a text has that of one of its parts at the place of the part exactly when the part keeps its
capital sigmas. -/
theorem keepsSigmas_iff_lowerChars {before part after : List Char} :
    KeepsSigmas before part after ↔
      lowerChars (before ++ part ++ after) =
        lowerBetween [] (part ++ after) before ++ lowerChars part ++
          lowerBetween (part.reverse ++ before.reverse) [] after := by
  rw [keepsSigmas_iff_lowerBetween, lowerChars_append_append, List.append_left_inj, List.append_right_inj]

end Text

namespace Filter

open Listing.Path Listing.Text

/-- A search for a term that is not too long looks for the whole of it. -/
theorem search_eq_some {term : String} (hterm : term ≠ "") {fields : List String} (hfields : fields ≠ [])
    {maxLength : Nat} (hlength : term.length ≤ maxLength) :
    search term fields maxLength = some (any (fields.map fun field => contains field term)) := by
  have hwhole : term.toList.take maxLength = term.toList :=
    List.take_of_length_le (by rwa [String.length_toList])
  rw [search, if_neg (by simp [hterm, hfields]), hwhole, String.ofList_toList]

/-- A field has a string that contains a term when the lower case of the term is in that of the string. -/
theorem holds_contains_iff {term field : String} {document : Json} :
    (contains field term).holds document = true ↔
      ∃ s, .text s ∈ candidates document field ∧ lowerChars term.toList <:+: lowerChars s.toList := by
  rw [holds, List.any_eq_true]
  constructor
  · intro h
    obtain ⟨value, hvalue, hcontains⟩ := h
    cases value with
    | text s => exact ⟨s, hvalue, occursIn_eq_true_iff.mp hcontains⟩
    | _ => contradiction
  · intro h
    obtain ⟨s, hs, hinfix⟩ := h
    exact ⟨.text s, hs, occursIn_eq_true_iff.mpr hinfix⟩

/-- A search holds of a document when one of the fields contains the term. -/
theorem holds_any_contains_iff {term : String} {fields : List String} {document : Json} :
    (any (fields.map fun field => contains field term)).holds document = true ↔
      ∃ field ∈ fields, ∃ s, .text s ∈ candidates document field ∧
        lowerChars term.toList <:+: lowerChars s.toList := by
  simp only [holds_any, List.mem_map, ← holds_contains_iff]
  constructor
  · intro h
    obtain ⟨_, ⟨field, hfield, rfl⟩, hholds⟩ := h
    exact ⟨field, hfield, hholds⟩
  · intro h
    obtain ⟨field, hfield, hholds⟩ := h
    exact ⟨_, ⟨field, hfield, rfl⟩, hholds⟩

/-- Searching for a part of a text that is not too long finds every document whose searched fields have the text, if
each capital sigma of the part ends a word in the part exactly when it ends one in the text, and so always if there is
none in the part. This is when the lower case of the text has that of the part at its place. Otherwise the search may
still hold because of another text, or of another piece of this one: it holds when the lower case of the part is in
that of any text in the searched fields. -/
theorem search_finds_part_with_its_sigmas {document : Json} {fields : List String} {field : String}
    (hfield : field ∈ fields) {before part after : String}
    (hstored : .text (before ++ part ++ after) ∈ candidates document field) (hpart : part ≠ "") {maxLength : Nat}
    (hlength : part.length ≤ maxLength) :
    ∃ filter, search part fields maxLength = some filter ∧
      (filter.holds document = true ↔ ∃ field ∈ fields, ∃ s, .text s ∈ candidates document field ∧
        lowerChars part.toList <:+: lowerChars s.toList) ∧
      (KeepsSigmas before.toList part.toList after.toList → filter.holds document = true) ∧
      ('Σ' ∉ part.toList → filter.holds document = true) ∧
      (KeepsSigmas before.toList part.toList after.toList ↔
        lowerChars (before ++ part ++ after).toList =
          lowerBetween [] (part ++ after).toList before.toList ++ lowerChars part.toList ++
            lowerBetween (before ++ part).toList.reverse [] after.toList) := by
  have hfound (h : KeepsSigmas before.toList part.toList after.toList) :
      (any (fields.map fun field => contains field part)).holds document = true := by
    refine holds_any_contains_iff.mpr ⟨field, hfield, _, hstored, ?_⟩
    rw [String.toList_append, String.toList_append, keepsSigmas_iff_lowerChars.mp h]
    exact ⟨_, _, rfl⟩
  refine ⟨_, search_eq_some hpart (List.ne_nil_of_mem hfield) hlength, holds_any_contains_iff, hfound,
    fun hnone => hfound (keepsSigmas_of_not_mem hnone _ _), ?_⟩
  rw [keepsSigmas_iff_lowerChars, String.toList_append, String.toList_append, String.toList_append,
    List.reverse_append]

/-- The middle of a name is found, with two sigmas that end no word. -/
theorem middle_of_name_found :
    let names : Json := .array [.text "ΑΙΑΣ", .text ("Ο" ++ "ΔΥΣΣΕ" ++ "ΥΣ")]
    KeepsSigmas "Ο".toList "ΔΥΣΣΕ".toList "ΥΣ".toList ∧
      ∃ filter, search "ΔΥΣΣΕ" ["title", "names"] 5 = some filter ∧ filter.holds (.single "names" names) = true := by
  intro names
  have hkeeps : KeepsSigmas "Ο".toList "ΔΥΣΣΕ".toList "ΥΣ".toList :=
    keepsSigmas_iff_lowerBetween.mpr (by decide +kernel)
  have hcandidates : candidates (.single "names" names) "names" = names :: names.elements := rfl
  have hstored : .text ("Ο" ++ "ΔΥΣΣΕ" ++ "ΥΣ") ∈ candidates (.single "names" names) "names" := by
    rw [hcandidates]
    exact List.mem_cons_of_mem _ (List.mem_cons_of_mem _ List.mem_cons_self)
  have hfield : "names" ∈ ["title", "names"] := by decide
  have hlength : "ΔΥΣΣΕ".length ≤ 5 := by decide
  obtain ⟨filter, hsearch, -, hholds, -⟩ := search_finds_part_with_its_sigmas hfield hstored (by decide) hlength
  exact ⟨hkeeps, filter, hsearch, hholds hkeeps⟩

/-- The beginning of a name is not found when it is cut behind a sigma, which ends a word in the term and not in the
name. -/
theorem beginning_of_name_not_found :
    let document : Json := .single "name" (.text "ΟΔΥΣΣΕΥΣ")
    let filter : Filter := any [contains "name" "ΟΔΥΣ"]
    "ΟΔΥΣΣΕΥΣ" = "" ++ "ΟΔΥΣ" ++ "ΣΕΥΣ" ∧ .text "ΟΔΥΣΣΕΥΣ" ∈ candidates document "name" ∧
      search "ΟΔΥΣ" ["name"] 100 = some filter ∧ filter.holds document = false := by
  intro document filter
  exact ⟨by decide, List.mem_singleton.mpr rfl, rfl, by decide +kernel⟩

end Filter

end Listing
