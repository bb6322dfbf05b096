import Listing.Proofs.Entries
import Listing.Request

/-!
# Reserved parameters put into a request

A pair of a reserved parameter filters on no field and is never refused. Wherever it is put among other pairs, it
gives its own parameter a value, and everything else of the query stays as it is.
-/

namespace Listing

namespace Category

variable {category : Category} {pair : Pair} {parameter : Parameter}

/-- A pair of a reserved parameter is an entry of no category. -/
theorem entryOf?_of_parameter (h : Destination.ofKey pair.1 = .parameter parameter) :
    category.entryOf? pair = none := by
  rw [entryOf?, h]
  rfl

end Category

namespace Query

variable {pairs before after : List Pair} {pair : Pair} {parameter : Parameter} {settings : Settings}

/-- The last value in two parts is that of the second part, or else that of the first. -/
theorem lastValue_append (before after : List Pair) (parameter : Parameter) :
    lastValue (before ++ after) parameter = (lastValue after parameter).or (lastValue before parameter) := by
  simp only [lastValue, List.findRev?_eq_find?_reverse, List.reverse_append, List.find?_append, Option.map_or]

/-- The value in a single pair is that of its own parameter. -/
theorem lastValue_singleton (pair : Pair) (parameter : Parameter) :
    lastValue [pair] parameter = if Destination.ofKey pair.1 = .parameter parameter then some pair.2 else none := by
  rw [lastValue, List.findRev?_eq_find?_reverse, List.reverse_singleton, List.find?_singleton, apply_ite (Option.map _)]
  simp only [decide_eq_true_eq, Option.map_some, Option.map_none]

/-- A parameter whose key is not there has no value. -/
theorem lastValue_eq_none (h : ∀ pair ∈ pairs, pair.1 ≠ parameter.key) : lastValue pairs parameter = none := by
  have hfind : pairs.findRev? (fun pair => Destination.ofKey pair.1 = .parameter parameter) = none := by
    rw [List.findRev?_eq_find?_reverse, List.find?_eq_none]
    intro pair hpair hkey
    exact h pair (List.mem_reverse.mp hpair) (Destination.eq_key_of_ofKey (of_decide_eq_true hkey))
  rw [lastValue, hfind, Option.map_none]

/-- A pair that goes elsewhere leaves a parameter its value. -/
theorem lastValue_insert_of_ne (h : Destination.ofKey pair.1 ≠ .parameter parameter) :
    lastValue (before ++ pair :: after) parameter = lastValue (before ++ after) parameter := by
  rw [← List.singleton_append, lastValue_append, lastValue_append, lastValue_append, lastValue_singleton, if_neg h,
    Option.or_none]

/-- A pair gives its own parameter a value that no later pair changes, and leaves the other parameters theirs. -/
theorem lastValue_insert_parameter {value : String} (habsent : ∀ later ∈ after, later.1 ≠ parameter.key)
    (other : Parameter) :
    lastValue (before ++ (parameter.key, value) :: after) other =
      if other = parameter then some value else lastValue (before ++ after) other := by
  have hkey : Destination.ofKey (parameter.key, value).1 = .parameter parameter := Destination.ofKey_key parameter
  split
  · next heq =>
    rw [heq, ← List.singleton_append, lastValue_append, lastValue_append, lastValue_singleton, if_pos hkey,
      lastValue_eq_none habsent, Option.none_or, Option.some_or]
  · next hne =>
    exact lastValue_insert_of_ne fun h => hne (Destination.parameter.inj (hkey.symm.trans h)).symm

/-- A pair of a reserved parameter changes nothing of a query but what parameters say. -/
theorem assemble_insert_parameter (hkey : Destination.ofKey pair.1 = .parameter parameter) (override : List Clause) :
    assemble (before ++ pair :: after) settings override =
      { assemble (before ++ after) settings override with
        pagination := .parse (lastValue (before ++ pair :: after) .page) (lastValue (before ++ pair :: after) .limit)
          (lastValue (before ++ pair :: after) .skip) settings
        sort := .parseOr (lastValue (before ++ pair :: after) .sort) settings.defaultSort
        searchTerm := (lastValue (before ++ pair :: after) .search).getD ""
        projection := ((lastValue (before ++ pair :: after) .fields).map Projection.parse).getD [] } := by
  have hentries (category : Category) :
      category.entries (before ++ pair :: after) = category.entries (before ++ after) :=
    Category.entries_insert_of_none (Category.entryOf?_of_parameter hkey)
  simp only [assemble, ← Category.entries_list, ← Category.entries_equality, hentries]

/-- A pair of a reserved parameter other than the filter document is read besides the others. -/
theorem parse_insert_parameter {change : Query → Query} (hkey : Destination.ofKey pair.1 = .parameter parameter)
    (hother : parameter ≠ .override)
    (hchange : ∀ override, assemble (before ++ pair :: after) settings override =
      change (assemble (before ++ after) settings override)) :
    parse (before ++ pair :: after) settings = (parse (before ++ after) settings).map change := by
  have hrefusal : (before ++ pair :: after).findSome? refusal? = (before ++ after).findSome? refusal? := by
    have hnone : refusal? pair = none := by
      rw [refusal?, hkey]
      rfl
    rw [List.findSome?_append, List.findSome?_append, List.findSome?_cons, hnone]
  have hoverride : overrideOf (before ++ pair :: after) = overrideOf (before ++ after) := by
    have hne : Destination.ofKey pair.1 ≠ .parameter .override :=
      fun h => hother (Destination.parameter.inj (hkey.symm.trans h))
    rw [overrideOf, overrideOf, lastValue_insert_of_ne hne]
  rw [parse, parse, hrefusal, hoverride]
  cases (before ++ after).findSome? refusal? with
  | some cause => rfl
  | none =>
    cases overrideOf (before ++ after) with
    | error cause => rfl
    | ok override => exact congrArg Except.ok (hchange override)

end Query

end Listing
