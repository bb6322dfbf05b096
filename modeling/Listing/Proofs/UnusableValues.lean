import Listing.Proofs.AddedParameters
import Listing.Proofs.Counts
import Listing.Proofs.Keys
import Listing.Proofs.Paths
import Mathlib.Data.List.TakeWhile

/-!
# Values that cannot be used

The parameters of pages, of the sort and of the fields never make a request fail. A value that gives no count, or names
no field, is read as if the parameter was not there: the page is the first one, the page size and the sort are the
default, the documents to skip are those of the earlier pages, and all fields are asked for. So a request may be given
such a pair anywhere, and its answer stays the same.
-/

namespace Listing

namespace Text

/-- Nothing is left of blanks. -/
theorem trim_of_blank {text : String} (h : ∀ c ∈ text.toList, isBlank c = true) : trim text = "" := by
  have hdrop : text.toList.dropWhile isBlank = [] := List.dropWhile_eq_nil_iff.mpr h
  rw [trim, trimChars, hdrop]
  rfl

end Text

/-- A token names no field when it is empty or a lone sign, blanks at its ends aside. -/
theorem SortKey.ofToken?_eq_none_iff {token : String} :
    ofToken? token = none ↔ Text.trim token = "" ∨ Text.trim token = "-" ∨ Text.trim token = "+" := by
  have hforms (chars : List Char) : chars = "".toList ∨ chars = "-".toList ∨ chars = "+".toList ↔
      chars = [] ∨ chars = ['-'] ∨ chars = ['+'] := Iff.rfl
  simp only [← String.toList_inj, Text.toList_trim, hforms, ofToken?]
  generalize Text.trimChars token.toList = chars
  split
  · simp
  · simp
  · next hminus hplus =>
    have hsigns : chars ≠ ['-'] ∧ chars ≠ ['+'] := ⟨hminus [], hplus []⟩
    simp [hsigns]

/-- A text names no sort keys when each of its tokens is empty or a lone sign. -/
theorem SortKeys.parse?_eq_none_iff {text : String} :
    parse? text = none ↔ ∀ token ∈ Text.splitBy isSeparator text,
      Text.trim token = "" ∨ Text.trim token = "-" ∨ Text.trim token = "+" := by
  rw [parse?, ite_eq_left_iff]
  simp only [ofText, List.filterMap_eq_nil_iff, SortKey.ofToken?_eq_none_iff, reduceCtorEq, imp_false, not_not]

/-- A text of commas and blanks names no fields. -/
theorem Projection.parse_of_commas_and_blanks {text : String} (h : ∀ c ∈ text.toList, c = ',' ∨ Text.isBlank c = true) :
    parse text = [] := by
  have hpieces : ∀ piece ∈ Text.split ',' text, Text.trim piece = "" := by
    intro piece hpiece
    obtain ⟨chars, hchars, rfl⟩ := List.mem_map.mp hpiece
    refine Text.trim_of_blank fun c hc => ?_
    rw [String.toList_ofList] at hc
    obtain ⟨hmem, hcomma⟩ := Text.mem_and_eq_false_of_mem_splitOnP hchars c hc
    exact (h c hmem).resolve_left (beq_eq_false_iff_ne.mp hcomma)
  have hnone : ((Text.split ',' text).map Text.trim).filter (· ≠ "") = [] := by
    rw [List.filter_eq_nil_iff, List.forall_mem_map]
    intro piece hpiece
    simp [hpieces piece hpiece]
  rw [parse, hnone, List.eraseDups_nil]

/-- A value that cannot be used for a reserved parameter. -/
inductive Parameter.Unusable : Parameter → String → Prop where
  | page {value : String} (h : ∀ n, 0 < n → ¬ Pagination.Gives value n) : Unusable .page value
  | limit {value : String} (h : ∀ n, 0 < n → ¬ Pagination.Gives value n) : Unusable .limit value
  | skip {value : String} (h : ∀ n, ¬ Pagination.Gives value n) : Unusable .skip value
  | sort {value : String} (h : ∀ token ∈ Text.splitBy SortKeys.isSeparator value,
      Text.trim token = "" ∨ Text.trim token = "-" ∨ Text.trim token = "+") : Unusable .sort value
  | fields {value : String} (h : ∀ c ∈ value.toList, c = ',' ∨ Text.isBlank c = true) : Unusable .fields value

section

variable {parameter : Parameter} {value : String} {before after : List Pair} {endpoint : Endpoint} {settings : Settings}

/-- The filter document can always be used, or the request is refused. -/
theorem Parameter.Unusable.ne_override (hvalue : parameter.Unusable value) : parameter ≠ .override := by
  rintro rfl
  cases hvalue

/-- A parameter with an unusable value is read as one that is absent. -/
theorem Query.assemble_insert_unusable (hvalue : parameter.Unusable value)
    (habsent : ∀ pair ∈ before ++ after, pair.1 ≠ parameter.key) (override : List Clause) :
    assemble (before ++ (parameter.key, value) :: after) settings override =
      assemble (before ++ after) settings override := by
  have hnone : lastValue (before ++ after) parameter = none := lastValue_eq_none habsent
  have hlast (other : Parameter) : lastValue (before ++ (parameter.key, value) :: after) other =
      if other = parameter then some value else lastValue (before ++ after) other :=
    lastValue_insert_parameter (fun pair hpair => habsent pair (List.mem_append_right _ hpair)) other
  rw [assemble_insert_parameter (Destination.ofKey_key parameter)]
  -- what is read from the value is what is read where there is none
  cases hvalue with
  | page h =>
    have hread := Pagination.positive?_eq_none_iff.mpr h
    simp only [hlast, reduceCtorEq, if_true, if_false, assemble, hnone, Pagination.parse, Option.bind_some, hread,
      Option.bind_none]
  | limit h =>
    have hread := Pagination.positive?_eq_none_iff.mpr h
    simp only [hlast, reduceCtorEq, if_true, if_false, assemble, hnone, Pagination.parse, Option.bind_some, hread,
      Option.bind_none]
  | skip h =>
    have hread := Pagination.count?_eq_none_iff.mpr h
    simp only [hlast, reduceCtorEq, if_true, if_false, assemble, hnone, Pagination.parse, Option.bind_some, hread,
      Option.bind_none]
  | sort h =>
    have hread := SortKeys.parse?_eq_none_iff.mpr h
    simp only [hlast, reduceCtorEq, if_true, if_false, assemble, hnone, SortKeys.parseOr, Option.bind_some, hread,
      Option.bind_none]
  | fields h =>
    have hread := Projection.parse_of_commas_and_blanks h
    simp only [hlast, reduceCtorEq, if_true, if_false, assemble, hnone, Option.map_some, hread, Option.getD_some,
      Option.map_none, Option.getD_none]

/-- A request is compiled alike with and without an unusable value. -/
theorem ListRequest.ofPairs_insert_unusable (hvalue : parameter.Unusable value)
    (habsent : ∀ pair ∈ before ++ after, pair.1 ≠ parameter.key) (endpoint : Endpoint) :
    ofPairs (before ++ (parameter.key, value) :: after) endpoint settings =
      ofPairs (before ++ after) endpoint settings := by
  have hparse : Query.parse (before ++ (parameter.key, value) :: after) settings =
      (Query.parse (before ++ after) settings).map id :=
    Query.parse_insert_parameter (Destination.ofKey_key parameter) hvalue.ne_override
      (Query.assemble_insert_unusable hvalue habsent)
  rw [ofPairs, ofPairs, hparse, Except.map_id, id]

/-- An unusable value is the same as none. To a request without one of the parameters of pages, of the sort or of the
fields, a pair of this parameter with a value that cannot be used may be added anywhere: the request is then answered
with the same page or refused for the same cause, and it leaves the same store behind. -/
theorem Store.list_with_unusable_value (store : Store) (name : String) (hvalue : parameter.Unusable value)
    (before after : List Pair) (habsent : ∀ pair ∈ before ++ after, pair.1 ≠ parameter.key) (endpoint : Endpoint)
    (settings : Settings) :
    store.list name (before ++ (parameter.key, value) :: after) endpoint settings =
      store.list name (before ++ after) endpoint settings := by
  rw [list, list, ListRequest.ofPairs_insert_unusable hvalue habsent]

/-- Open notes are listed alike with a page that is too large, a page size of zero, a negative number to skip, a sort of
signs and fields of commas. -/
theorem Store.open_notes_with_unusable_values :
    let note (status : String) : Json := .object [("status", .text status)]
    let store : Store := { ids := fun _ => "", documents := [("notes", [note "open", note "done", note "open"])] }
    let asked (pairs : List Pair) := store.list "notes" pairs {} {}
    asked [("page", "18446744073709551616"), ("status", "open"), ("q", "o")] = asked [("status", "open"), ("q", "o")] ∧
      asked [("status", "open"), ("limit", " +0"), ("q", "o")] = asked [("status", "open"), ("q", "o")] ∧
      asked [("status", "open"), ("skip", "-0"), ("q", "o")] = asked [("status", "open"), ("q", "o")] ∧
      asked [("status", "open"), ("q", "o"), ("sort", "-,\t+ ")] = asked [("status", "open"), ("q", "o")] ∧
      asked [("status", "open"), ("q", "o"), ("fields", ", \t,")] = asked [("status", "open"), ("q", "o")] := by
  intro note store asked
  have habsent (key : String) (hkey : "status" ≠ key ∧ "q" ≠ key) :
      ∀ pair ∈ [("status", "open"), ("q", "o")], pair.1 ≠ key := by
    simpa using hkey
  have hpage : Parameter.page.Unusable "18446744073709551616" := .page (Pagination.positive?_eq_none_iff.mp (by decide))
  have hlimit : Parameter.limit.Unusable " +0" := .limit (Pagination.positive?_eq_none_iff.mp (by decide))
  have hskip : Parameter.skip.Unusable "-0" := .skip (Pagination.count?_eq_none_iff.mp (by decide))
  have hsort : Parameter.sort.Unusable "-,\t+ " := .sort (by decide)
  have hcommas : ", \t,".toList.all (fun c => c = ',' || Text.isBlank c) = true := by decide
  have hfields : Parameter.fields.Unusable ", \t," := .fields (by simpa using hcommas)
  exact ⟨list_with_unusable_value store "notes" hpage [] _ (habsent _ (by decide)) {} {},
    list_with_unusable_value store "notes" hlimit [_] _ (habsent _ (by decide)) {} {},
    list_with_unusable_value store "notes" hskip [_] _ (habsent _ (by decide)) {} {},
    list_with_unusable_value store "notes" hsort [_, _] _ (habsent _ (by decide)) {} {},
    list_with_unusable_value store "notes" hfields [_, _] _ (habsent _ (by decide)) {} {}⟩

end

end Listing
