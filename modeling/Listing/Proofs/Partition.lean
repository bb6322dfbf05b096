import Listing.Proofs.AddedClauses
import Listing.Proofs.Keys
import Mathlib.Logic.Basic

/-!
# Parts of a listing

A list for a field says of every document either that it has a value inside or that it has none, whatever the
document holds there. So a request that leaves the field alone is parted in two by the list and its
complement: no document is lost and none is given twice.
-/

namespace Listing

/-- Having no value among some operands is not having one. -/
theorem Filter.holds_notIn (path : String) (operands : List Json) (document : Json) :
    (membership path .notIn operands).holds document = !(membership path .isIn operands).holds document := by
  unfold holds membershipHolds
  rfl

namespace Store

/-- The documents that match one more condition are some of those that match. -/
theorem matching_of_holds_and {store : Store} {name : String} {filter clause narrowed : Filter}
    (h : ∀ document, narrowed.holds document = (filter.holds document && clause.holds document)) :
    store.matching name narrowed = (store.matching name filter).filter clause.holds := by
  unfold matching
  rw [List.filter_filter]
  apply List.filter_congr
  intro document _
  rw [h, Bool.and_comm]

/-- A list and its complement part the documents that match. -/
theorem length_matching_in_add_notIn {store : Store} {name path : String} {operands : List Json}
    {filter inside outside : Filter}
    (hinside : ∀ document, inside.holds document =
      (filter.holds document && (Filter.membership path .isIn operands).holds document))
    (houtside : ∀ document, outside.holds document =
      (filter.holds document && (Filter.membership path .notIn operands).holds document)) :
    (store.matching name inside).length + (store.matching name outside).length =
      (store.matching name filter).length := by
  have hcomplement : (Filter.membership path .notIn operands).holds =
      fun document => !(Filter.membership path .isIn operands).holds document := by
    funext document
    exact Filter.holds_notIn path operands document
  rw [matching_of_holds_and hinside, matching_of_holds_and houtside, hcomplement]
  exact (List.length_eq_length_filter_add _).symm

/-- A request on whose field neither it nor the endpoint puts a clause is parted by a list for that field and
the complement of the list, wherever the two pairs stand among those of the request. Each document that it
matches is matched by exactly one of the two, and these match no others, so their counts make up its count. -/
theorem list_parted_by_list_and_complement (store : Store) (hworking : store.failure = none) (name : String)
    (endpoint : Endpoint) (settings : Settings) {before after : List Pair} {request : ListRequest}
    (hrequest : ListRequest.ofPairs (before ++ after) endpoint settings = .ok request) {field : String}
    (hfield : Bracketable field) (hname : Path.namesOperator field = false)
    (hfree : ¬ Constrains (before ++ after) endpoint field) (list : String) :
    ∃ inside outside,
      ListRequest.ofPairs (before ++ (ListGroup.inList.keyOf field, list) :: after) endpoint settings = .ok inside ∧
      ListRequest.ofPairs (before ++ (ListGroup.notInList.keyOf field, list) :: after) endpoint settings =
        .ok outside ∧
      (∀ document, request.filter.holds document = true →
        Xor (inside.filter.holds document = true) (outside.filter.holds document = true)) ∧
      (∀ document, inside.filter.holds document = true ∨ outside.filter.holds document = true →
        request.filter.holds document = true) ∧
      ∃ page pageInside pageOutside,
        (store.list name (before ++ after) endpoint settings).1 = .ok page ∧
        (store.list name (before ++ (ListGroup.inList.keyOf field, list) :: after) endpoint settings).1 =
          .ok pageInside ∧
        (store.list name (before ++ (ListGroup.notInList.keyOf field, list) :: after) endpoint settings).1 =
          .ok pageOutside ∧
        pageInside.pageInfo.itemCount + pageOutside.pageInfo.itemCount = page.pageInfo.itemCount := by
  have hkey (group : ListGroup) : Destination.ofKey (group.keyOf field) = (Category.list group).destination field :=
    Destination.ofKey_eq_iff.mpr (.group group hfield)
  obtain ⟨inside, hinside, hin⟩ :=
    ListRequest.exists_ofPairs_insert (hkey .inList) hname list rfl hrequest hfree
  obtain ⟨outside, houtside, hout⟩ :=
    ListRequest.exists_ofPairs_insert (hkey .notInList) hname list rfl hrequest hfree
  refine ⟨inside, outside, hinside, houtside, fun document hholds => ?_, fun document hholds => ?_, ?_⟩
  · rw [hin, hout, hholds, Filter.holds_notIn]
    cases (Filter.membership field .isIn (commaOperands list)).holds document <;> simp [Xor]
  · rw [hin, hout, ← Bool.or_eq_true, ← Bool.and_or_distrib_left, Bool.and_eq_true] at hholds
    exact hholds.1
  · refine ⟨_, _, _, congrArg Prod.fst (list_of_working name hworking hrequest),
      congrArg Prod.fst (list_of_working name hworking hinside),
      congrArg Prod.fst (list_of_working name hworking houtside), ?_⟩
    exact length_matching_in_add_notIn hin hout

/-- Open notes with one of two colours and those with none of them add up to the open notes. -/
theorem open_notes_parted_by_colours :
    let note (colour : Json) : Json := .object [("status", .text "open"), ("colour", colour)]
    let store : Store :=
      { ids := fun _ => ""
        documents := [("notes", [note (.text "red"), note .null, note (.array [.text "blue", .text "green"])])] }
    let before : List Pair := [("status", "open")]
    let after : List Pair := [("page", "2")]
    ∃ page pageInside pageOutside,
      (store.list "notes" (before ++ after) {} {}).1 = .ok page ∧
      (store.list "notes" (before ++ ("inList[colour]", "red,green") :: after) {} {}).1 = .ok pageInside ∧
      (store.list "notes" (before ++ ("notInList[colour]", "red,green") :: after) {} {}).1 = .ok pageOutside ∧
      pageInside.pageInfo.itemCount + pageOutside.pageInfo.itemCount = page.pageInfo.itemCount := by
  intro note store before after
  have hquery : Query.parse (before ++ after) {} = .ok (.assemble (before ++ after) {} []) :=
    Query.parse_eq_ok_iff.mpr ⟨by decide, [], rfl, rfl⟩
  have hconstraints : (Query.assemble (before ++ after) {} []).constraints {} {} = .ok _ :=
    Query.constraints_eq_ok_iff.mpr ⟨[], [], rfl, rfl, rfl⟩
  have hrequest : ListRequest.ofPairs (before ++ after) {} {} = .ok ⟨_, _⟩ :=
    ListRequest.ofPairs_eq_ok_iff.mpr ⟨hquery, _, hconstraints, rfl⟩
  have hfree : ¬ Constrains (before ++ after) {} "colour" := by
    rw [constrains_iff hquery hconstraints]
    decide
  obtain ⟨inside, outside, -, -, -, -, hpages⟩ := list_parted_by_list_and_complement store rfl "notes" {} {} hrequest
    ⟨by decide, by decide, by decide⟩ (by decide) hfree "red,green"
  exact hpages

end Store

end Listing
