import Listing.Proofs.AcceptedDocuments
import Listing.Proofs.Meaning
import Mathlib.Data.List.Permutation

/-!
# The meaning of an accepted filter document

A filter document that a request carries is compiled to clauses, and as the only part of a request
these clauses are satisfied by exactly the documents that satisfy the filter document itself. By the
rules for accepted documents every entry becomes one clause that means the same as the entry, and no
clause replaces another because the keys of an object are distinct.
-/

namespace Listing

namespace Filter

/-- A conjunction that may be left out when it is of one filter holds when all its filters do. -/
theorem holds_conjoin (filters : List Filter) (document : Json) :
    (conjoin filters).holds document = filters.all (·.holds document) := by
  rw [conjoin.eq_def]
  split
  · simp
  · rw [holds, allHold_eq_all]

end Filter

namespace Override

variable {field : String}

/-- An accepted operator means what it means in a filter document. -/
theorem Tests.holds_eq_valuesSatisfy {operator : String} {operand : Json} {filter : Filter}
    (h : Tests field operator operand filter) (ignoreCase : Bool) (document : Json) :
    filter.holds document =
      FilterDocument.valuesSatisfy (Path.candidates document field) ignoreCase operator operand := by
  cases h with
  | eq => rfl
  | compare op => cases op <;> rfl
  | membership kind => cases kind <;> rfl

/-- No accepted operator looks into the elements of an array. -/
theorem Tests.ne_elemMatch {operator : String} {operand : Json} {filter : Filter}
    (h : Tests field operator operand filter) : operator ≠ "$elemMatch" := by
  cases h with
  | eq => decide
  | compare op => cases op <;> decide
  | membership kind => cases kind <;> decide

/-- Accepted operators on a field hold when each of them does. -/
theorem operatorsHold_eq_all {operators : List (String × Json)} {filters : List Filter}
    (h : List.Forall₂ (fun entry filter => Tests field entry.1 entry.2 filter) operators filters)
    (ignoreCase : Bool) (document : Json) :
    FilterDocument.operatorsHold field ignoreCase operators document = filters.all (·.holds document) := by
  induction h with
  | nil => rfl
  | @cons entry filter operators filters htest _ ih =>
    rw [FilterDocument.operatorsHold, if_neg htest.ne_elemMatch, ih, List.all_cons,
      htest.holds_eq_valuesSatisfy ignoreCase]

/-- A field with a scalar is tested for loose equality with it. -/
theorem entryHolds_scalar (hfield : Path.isOperator field = false) {operand : Json}
    (hscalar : operand.isScalar = true) (document : Json) :
    FilterDocument.entryHolds field operand document =
      Filter.someEqual (Path.candidates document field) operand := by
  have hcondition : Filter.equalityCondition operand = operand := by
    cases operand with
    | object fields => contradiction
    | _ => rfl
  rw [← FilterDocument.entryHolds_equalityCondition hfield, hcondition]

/-- An accepted condition on a field means what it means in a filter document. -/
theorem ReadsField.holds_eq_entryHolds (hfield : Path.isOperator field = false) {condition : Json} {filter : Filter}
    (h : ReadsField field condition filter) (document : Json) :
    filter.holds document = FilterDocument.entryHolds field condition document := by
  cases h with
  | scalar hscalar => rw [entryHolds_scalar hfield hscalar, Filter.holds]
  | operators hsome htests =>
    rw [FilterDocument.entryHolds, hfield, Bool.not_false, Bool.true_and, operatorsHold_eq_all htests,
      Filter.holds_conjoin]

/-- An accepted combination of documents means what it means in a filter document, if its parts do. -/
theorem Combines.holds_eq_entryHolds {operator : String} {combine : List Filter → Filter}
    (h : Combines operator combine) {parts : List (List (String × Json) × List Clause)} {document : Json}
    (hparts : ∀ part ∈ parts, (partFilter part.2).holds document = FilterDocument.entriesHold part.1 document) :
    (combine (parts.map fun part => partFilter part.2)).holds document =
      FilterDocument.entryHolds operator (.array (parts.map fun part => .object part.1)) document := by
  have hobjects : (parts.map fun part => Json.object part.1) = (parts.map Prod.fst).map .object :=
    (List.map_map ..).symm
  cases h with
  | all =>
    rw [FilterDocument.entryHolds, if_pos rfl, hobjects, FilterDocument.allHold_objects, Filter.holds,
      Filter.allHold_eq_all, List.all_map, List.all_map, Bool.eq_iff_iff, List.all_eq_true, List.all_eq_true]
    exact forall₂_congr fun part hpart => by rw [Function.comp_apply, hparts part hpart, Function.comp_apply]
  | any =>
    rw [FilterDocument.entryHolds, if_neg (by decide), if_pos rfl, hobjects, FilterDocument.someHolds_objects,
      Filter.holds, Filter.someHolds_eq_any, List.any_map, List.any_map, Bool.eq_iff_iff, List.any_eq_true,
      List.any_eq_true]
    exact exists_congr fun part => and_congr_right fun hpart => by
      rw [Function.comp_apply, hparts part hpart, Function.comp_apply]

/-- The clauses of an accepted document hold when all its entries do. -/
theorem Reads.all_holds_eq_entriesHold {nesting : Nat} {fields : List (String × Json)} {clauses : List Clause}
    (h : Reads nesting fields clauses) (document : Json) :
    clauses.all (·.2.holds document) = FilterDocument.entriesHold fields document := by
  induction h with
  | nil => rfl
  | @combination nesting operator combine parts rest others hcombine _ _ _ _ hparts hrest =>
    have hpart (part : List (String × Json) × List Clause) (hpart : part ∈ parts) :
        (partFilter part.2).holds document = FilterDocument.entriesHold part.1 document := by
      rw [partFilter, Filter.holds_conjoin, List.all_map, ← hparts part hpart]
      rfl
    rw [List.all_cons, FilterDocument.entriesHold, hcombine.holds_eq_entryHolds hpart, hrest]
  | field _ hoperator hfield _ hrest =>
    rw [List.all_cons, FilterDocument.entriesHold, hfield.holds_eq_entryHolds hoperator, hrest]

/-- The clauses of a filter document alone, with distinct keys, make up the conjunction of all of them. -/
theorem filter_override_eq_all {clauses : List Clause} (hnodup : (Keyed.keys clauses).Nodup) :
    Constraints.filter { override := clauses } = .all (clauses.map Prod.snd) := by
  have hclauses : Constraints.clauses { override := clauses } = clauses := by
    simp [Constraints.clauses, Constraints.keyed]
  rw [Constraints.filter, hclauses, Keyed.ofList_eq_self hnodup]
  exact congrArg Filter.all (List.append_nil _)

/-- The clauses of an accepted filter document, as the only part of a request, are satisfied by exactly
the documents that satisfy the filter document as it is read directly. There is one term for every entry
of the document, in the order of the entries, so none is lost to another one with its key. -/
theorem holds_filter_eq_holds_document {text : String} {clauses : List Clause} (h : parse text = .ok clauses) :
    ∃ fields, Json.parse text = .ok (.object fields) ∧
      Keyed.keys clauses = Keyed.keys fields ∧
      Constraints.filter { override := clauses } = .all (clauses.map Prod.snd) ∧
      ∀ document, (Constraints.filter { override := clauses }).holds document =
        FilterDocument.holds (.object fields) document := by
  obtain ⟨fields, hread, hdistinct, hkeys, hreads⟩ := parse_eq_ok h
  have hfilter : Constraints.filter { override := clauses } = .all (clauses.map Prod.snd) :=
    filter_override_eq_all (hkeys ▸ hdistinct)
  refine ⟨fields, hread, hkeys, hfilter, fun document => ?_⟩
  calc (Constraints.filter { override := clauses }).holds document
      = clauses.all (·.2.holds document) := by
        rw [hfilter, Filter.holds, Filter.allHold_eq_all, List.all_map]
        rfl
    _ = FilterDocument.entriesHold fields document := hreads.all_holds_eq_entriesHold document
    _ = FilterDocument.holds (.object fields) document := by rw [FilterDocument.holds]

/-- Two operators on one field are both kept, next to a disjunction with that field in a branch. -/
theorem holds_filter_of_repeated_field :
    let text := "\x7b\"$or\":[\x7b\"size\":\"S\"\x7d,\x7b\x7d],\"size\":\x7b\"$gt\":\"L\",\"$ne\":\"M\"\x7d\x7d"
    ∃ clauses, parse text = .ok clauses ∧
      (Constraints.filter { override := clauses }).holds (.object [("size", .text "S")]) = true := by
  intro text
  have hread : Json.parse "\x7b\"$or\":[\x7b\"size\":\"S\"\x7d,\x7b\x7d],\"size\":\x7b\"$gt\":\"L\",\"$ne\":\"M\"\x7d\x7d" =
      .ok (.object
        [("$or", .array [.object [("size", .text "S")], .object []]),
          ("size", .object [("$gt", .text "L"), ("$ne", .text "M")])]) := by
    cbv
  obtain ⟨clauses, hclauses⟩ : ∃ clauses, parse text = .ok clauses := by
    rw [parse, hread]
    exact ⟨_, rfl⟩
  obtain ⟨fields, hfields, -, -, hholds⟩ := holds_filter_eq_holds_document hclauses
  obtain rfl := Json.object.inj (Except.ok.inj (hread.symm.trans hfields))
  refine ⟨clauses, hclauses, ?_⟩
  rw [hholds]
  decide

end Override

end Listing
