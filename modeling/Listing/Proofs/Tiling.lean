import Listing.Proofs.Answer
import Listing.Proofs.Compilation
import Listing.Proofs.PageRequest
import Listing.Proofs.SortOrder

/-!
# Pages tile the result

All the documents of a request in the order of its sort are its result, and a page is a piece of it.
The pages from the first to the reported last one make up the result when they are asked for one
after the other. The number of documents to skip stops at the largest count, which no collection
that can be counted exceeds, so the pages beyond that are empty like all those after the last one.
-/

namespace Listing

variable {store : Store} {pairs : List Pair} {endpoint : Endpoint} {settings : Settings} {request : ListRequest}

/-- Every compiled request has a page size. -/
theorem ListRequest.limit_pos (h : ofPairs pairs endpoint settings = .ok request) :
    0 < request.query.pagination.limit := by
  obtain ⟨hquery, -⟩ := ofPairs_eq_ok_iff.mp h
  obtain ⟨-, override, -, hassemble⟩ := Query.parse_eq_ok_iff.mp hquery
  rw [← hassemble]
  exact Pagination.limit_pos _ _ _ settings

namespace Store

/-- All the documents of a request as they are given out, in the order of its sort. -/
def result (store : Store) (name : String) (endpoint : Endpoint) (request : ListRequest) : List Json :=
  (request.query.sort.sort (store.matching name request.filter)).map
    (store.present name (request.selection endpoint))

/-- There are as many documents in the result as match. -/
theorem length_result (store : Store) (name : String) (endpoint : Endpoint) (request : ListRequest) :
    (store.result name endpoint request).length = (store.matching name request.filter).length := by
  rw [result, List.length_map, SortKeys.sort, List.length_mergeSort]

/-- The page of a number that a request is answered with. -/
def pageAt (store : Store) (name : String) (endpoint : Endpoint) (request : ListRequest) (number : Nat) : Page :=
  (request.atPage number).page (store.matching name request.filter).length
    (store.pageDocuments name endpoint (request.atPage number))

/-- The documents of the page of a number are its piece of the result. -/
theorem documents_pageAt {name : String} (hcounted : (store.matching name request.filter).length ≤ Text.maxCount)
    (page : Nat) :
    (store.pageAt name endpoint request (page + 1)).documents =
      ((store.result name endpoint request).drop (page * request.query.pagination.limit)).take
        request.query.pagination.limit := by
  have hskip : ((request.atPage (page + 1)).selection endpoint).skip =
      min (page * request.query.pagination.limit) Text.maxCount := rfl
  rw [← length_result store name endpoint request] at hcounted
  rw [← drop_min_maxCount hcounted, pageAt, ListRequest.page, pageDocuments, slice, List.map_take,
    List.map_drop, hskip]
  rfl

/-- Asking a working store for a page gives it. -/
theorem list_atPage (name : String) (hworking : store.failure = none) (hunpaged : Unpaged pairs)
    (hrequest : ListRequest.ofPairs pairs endpoint settings = .ok request) {number : Nat} (hpos : 0 < number)
    (hnumber : number ≤ Text.maxCount) :
    (store.list name (atPage pairs number) endpoint settings).1 = .ok (store.pageAt name endpoint request number) := by
  have hcompiled : ListRequest.ofPairs (atPage pairs number) endpoint settings = .ok (request.atPage number) := by
    rw [ListRequest.ofPairs_atPage hunpaged hpos hnumber, hrequest]
    rfl
  rw [list_of_working name hworking hcompiled]
  rfl

/-- Asking a working store for the first pages one after the other gives each of them. -/
theorem listEach_atPage (name : String) (hworking : store.failure = none) (hunpaged : Unpaged pairs)
    (hrequest : ListRequest.ofPairs pairs endpoint settings = .ok request) {count : Nat}
    (hcount : count ≤ Text.maxCount) :
    (store.listEach name endpoint settings ((List.range' 1 count).map (atPage pairs))).1 =
      ((List.range' 1 count).map (store.pageAt name endpoint request)).map .ok := by
  rw [listEach_eq_map, List.map_map, List.map_map]
  refine List.map_congr_left fun number hnumber => ?_
  rw [List.mem_range'_1] at hnumber
  exact list_atPage name hworking hunpaged hrequest (by omega) (by omega)

/-- The pages that are counted make up the result. -/
theorem flatMap_pageAt {name : String} (hcounted : (store.matching name request.filter).length ≤ Text.maxCount)
    (hlimit : 0 < request.query.pagination.limit) :
    ((List.range' 1 (PageInfo.pagesFor request.query.pagination.limit (store.result name endpoint request).length)).map
      (store.pageAt name endpoint request)).flatMap Page.documents = store.result name endpoint request := by
  rw [List.range'_eq_map_range, List.map_map, List.flatMap_map]
  refine Eq.trans (List.flatMap_congr fun page _ => ?_) (flatMap_pagesFor hlimit)
  rw [Function.comp_apply, Nat.add_comm]
  exact documents_pageAt hcounted page

/-- The pages of a request tile its result, as long as the number of matching documents is one of the 64
bits that it is reported with. Asking a working store for the reported pages one after the other gives
the stable sort of all matching documents in pieces, full ones before the last; later pages are empty;
and a page says that there is a next one exactly when the page after it has documents. -/
theorem pages_tile_result {name : String} {first : Page} (hworking : store.failure = none)
    (hunpaged : Unpaged pairs) (hfirst : (store.list name pairs endpoint settings).1 = .ok first)
    (hcounted : first.pageInfo.itemCount ≤ Text.maxCount) :
    ∃ request sorted,
      ListRequest.ofPairs pairs endpoint settings = .ok request ∧
      SortKeys.IsStableSort request.query.sort (store.matching name request.filter) sorted ∧
      first.pageInfo.itemCount = sorted.length ∧
      (∃ pages : List Page,
        (store.listEach name endpoint settings
          ((List.range' 1 first.pageInfo.pageCount).map (atPage pairs))).1 = pages.map .ok ∧
        pages.flatMap Page.documents = sorted.map (store.present name (request.selection endpoint))) ∧
      ∀ number, 0 < number → number ≤ Text.maxCount →
        ∃ page, (store.list name (atPage pairs number) endpoint settings).1 = .ok page ∧
          page.pageInfo.itemCount = first.pageInfo.itemCount ∧
          page.pageInfo.pageCount = first.pageInfo.pageCount ∧
          page.pageInfo.perPage = first.pageInfo.perPage ∧
          (number < first.pageInfo.pageCount → page.documents.length = first.pageInfo.perPage) ∧
          (number = first.pageInfo.pageCount →
            1 ≤ page.documents.length ∧ page.documents.length ≤ first.pageInfo.perPage) ∧
          (first.pageInfo.pageCount < number → page.documents = []) ∧
          (number < Text.maxCount →
            ∃ next, (store.list name (atPage pairs (number + 1)) endpoint settings).1 = .ok next ∧
              (page.pageInfo.hasNextPage = true ↔ next.documents ≠ [])) := by
  obtain ⟨request, hrequest, rfl⟩ := list_eq_ok hfirst
  have hlimit : 0 < request.query.pagination.limit := ListRequest.limit_pos hrequest
  have hcount : (request.page (store.matching name request.filter).length
      (store.pageDocuments name endpoint request)).pageInfo.pageCount =
      PageInfo.pagesFor request.query.pagination.limit (store.result name endpoint request).length := by
    rw [length_result]
    rfl
  have hlist (number : Nat) (hpos : 0 < number) (hnumber : number ≤ Text.maxCount) :=
    list_atPage name hworking hunpaged hrequest hpos hnumber
  refine ⟨request, request.query.sort.sort (store.matching name request.filter), hrequest,
    SortKeys.sort_isStableSort _ _, (List.length_mergeSort _).symm, ?_, ?_⟩
  · refine ⟨_, listEach_atPage name hworking hunpaged hrequest ?_, ?_⟩
    · rw [hcount]
      exact Nat.le_trans (PageInfo.pagesFor_le hlimit) (Nat.le_trans (Nat.le_of_eq (length_result ..)) hcounted)
    · rw [hcount]
      exact flatMap_pageAt hcounted hlimit
  · intro number hpos hnumber
    obtain ⟨page, rfl⟩ : ∃ page, number = page + 1 := ⟨number - 1, by omega⟩
    rw [hcount]
    refine ⟨_, hlist _ hpos hnumber, rfl, hcount, rfl, fun hfull => ?_, fun hlast => ?_, fun hbeyond => ?_,
      fun hnext => ⟨_, hlist _ (Nat.succ_pos _) hnext, ?_⟩⟩
    · rw [documents_pageAt hcounted]
      exact length_page_of_lt hlimit hfull
    · rw [documents_pageAt hcounted]
      exact ⟨List.length_pos_iff.mpr ((page_ne_nil_iff hlimit).mpr (by omega)), List.length_take_le _ _⟩
    · rw [documents_pageAt hcounted]
      refine Classical.not_not.mp fun hne => ?_
      have hpage := (page_ne_nil_iff hlimit).mp hne
      omega
    · rw [documents_pageAt hcounted, page_ne_nil_iff hlimit, length_result]
      exact decide_eq_true_iff

/-- Three notes with two on a page fill two pages. -/
theorem pages_of_three_notes :
    let note (colour : String) : Json := .object [("colour", .text colour)]
    let store : Store := { ids := fun _ => "", documents := [("notes", [note "red", note "blue", note "blue"])] }
    let pairs : List Pair := [("limit", "2"), ("sort", "colour")]
    ∃ pages : List Page,
      (store.listEach "notes" {} {} [atPage pairs 1, atPage pairs 2]).1 = pages.map .ok ∧
        (pages.flatMap Page.documents).length = 3 := by
  intro note store pairs
  have hquery : Query.parse pairs {} = .ok (.assemble pairs {} []) :=
    Query.parse_eq_ok_iff.mpr ⟨by decide, [], rfl, rfl⟩
  have hconstraints : (Query.assemble pairs {} []).constraints {} {} = .ok _ :=
    Query.constraints_eq_ok_iff.mpr ⟨[], [], rfl, rfl, rfl⟩
  have hrequest : ListRequest.ofPairs pairs {} {} = .ok ⟨_, _⟩ :=
    ListRequest.ofPairs_eq_ok_iff.mpr ⟨hquery, _, hconstraints, rfl⟩
  obtain ⟨first, hfirst, hpageCount, hitemCount⟩ : ∃ first, (store.list "notes" pairs {} {}).1 = .ok first ∧
      first.pageInfo.pageCount = 2 ∧ first.pageInfo.itemCount = 3 :=
    ⟨_, congrArg Prod.fst (list_of_working "notes" rfl hrequest), by decide, by decide⟩
  have hunpaged : Unpaged pairs := by
    unfold Unpaged
    decide
  have hcounted : first.pageInfo.itemCount ≤ Text.maxCount := by
    rw [hitemCount]
    decide
  obtain ⟨request, sorted, -, -, hlength, ⟨pages, hpages, hdocuments⟩, -⟩ :=
    pages_tile_result rfl hunpaged hfirst hcounted
  rw [hpageCount] at hpages
  refine ⟨pages, hpages, ?_⟩
  rw [hdocuments, List.length_map, ← hlength, hitemCount]

end Store

end Listing
