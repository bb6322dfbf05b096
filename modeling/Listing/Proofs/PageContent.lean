import Listing.Proofs.Answer
import Listing.Proofs.Compilation
import Listing.Proofs.Pages
import Listing.Proofs.SortOrder

/-!
# What a page holds

A request is answered from one list of documents, those that match its filter: they are counted, and
a piece of their stable sort is given out. The piece begins after the documents to skip, whatever page
that number makes up, and it is as long as the page size and the matching documents after it allow.
-/

namespace Listing

variable {store : Store} {pairs : List Pair} {endpoint : Endpoint} {settings : Settings} {request : ListRequest}

/-- No page size is above the largest one, which counts as one when it is zero. -/
theorem Pagination.limit_le (page limit skip : Option String) (settings : Settings) :
    (parse page limit skip settings).limit ≤ max 1 settings.maxLimit := by
  rw [parse, Nat.max_comm 1]
  exact Nat.min_le_right _ _

/-- No compiled request has a page size above the largest one. -/
theorem ListRequest.limit_le (h : ofPairs pairs endpoint settings = .ok request) :
    request.query.pagination.limit ≤ max 1 settings.maxLimit := by
  obtain ⟨hquery, -⟩ := ofPairs_eq_ok_iff.mp h
  obtain ⟨-, override, -, hassemble⟩ := Query.parse_eq_ok_iff.mp hquery
  rw [← hassemble]
  exact Pagination.limit_le _ _ _ settings

namespace Store

/-- A page is filled as far as there are matching documents after the skipped ones. -/
theorem length_pageDocuments (store : Store) (name : String) (endpoint : Endpoint) (request : ListRequest) :
    (store.pageDocuments name endpoint request).length =
      min request.query.pagination.limit
        ((store.matching name request.filter).length - request.query.pagination.skip) := by
  rw [pageDocuments, List.length_map, slice, List.length_take, List.length_drop, SortKeys.sort,
    List.length_mergeSort]
  rfl

/-- The counted documents are the documents of the collection that match the filter of the request, and
the documents on a page are those of their stable sort at the positions from the number of skipped
documents on. There are as many as the page size and the rest of the matching documents allow, never
more than the largest page size. -/
theorem page_eq_piece_of_stable_sort {name : String} {page : Page}
    (h : (store.list name pairs endpoint settings).1 = .ok page) :
    ∃ request sorted,
      ListRequest.ofPairs pairs endpoint settings = .ok request ∧
      page.pageInfo.itemCount = ((store.collection name).filter request.filter.holds).length ∧
      SortKeys.IsStableSort request.query.sort ((store.collection name).filter request.filter.holds) sorted ∧
      page.documents = ((sorted.drop page.pageInfo.skipCount).take page.pageInfo.perPage).map
        (store.present name (request.selection endpoint)) ∧
      page.documents.length = min page.pageInfo.perPage (page.pageInfo.itemCount - page.pageInfo.skipCount) ∧
      page.documents.length ≤ max 1 settings.maxLimit := by
  obtain ⟨request, hrequest, rfl⟩ := list_eq_ok h
  have hlength := length_pageDocuments store name endpoint request
  refine ⟨request, request.query.sort.sort (store.matching name request.filter), hrequest, rfl,
    SortKeys.sort_isStableSort _ _, rfl, hlength, ?_⟩
  calc (store.pageDocuments name endpoint request).length
      ≤ request.query.pagination.limit := hlength ▸ Nat.min_le_left _ _
    _ ≤ max 1 settings.maxLimit := ListRequest.limit_le hrequest

/-- After one skipped note, a page of at most two has the other two of three notes. -/
theorem page_after_one_skipped_note :
    let note (colour : String) : Json := .object [("colour", .text colour)]
    let store : Store := { ids := fun _ => "", documents := [("notes", [note "red", note "blue", note "blue"])] }
    let pairs : List Pair := [("limit", "5"), ("skip", "1"), ("sort", "-colour")]
    ∃ page, (store.list "notes" pairs {} { maxLimit := 2 }).1 = .ok page ∧ page.documents.length = 2 := by
  intro note store pairs
  have hrequest : ListRequest.ofPairs pairs {} { maxLimit := 2 } = .ok _ :=
    ListRequest.ofPairs_eq_ok (by decide) rfl (Query.constraints_eq_ok_iff.mpr ⟨[], [], rfl, rfl, rfl⟩)
  obtain ⟨page, hpage, hcount, hskip, hsize⟩ : ∃ page, (store.list "notes" pairs {} { maxLimit := 2 }).1 = .ok page ∧
      page.pageInfo.itemCount = 3 ∧ page.pageInfo.skipCount = 1 ∧ page.pageInfo.perPage = 2 :=
    ⟨_, congrArg Prod.fst (list_of_working "notes" rfl hrequest), by decide, by decide, by decide⟩
  obtain ⟨request, sorted, -, -, -, -, hlength, -⟩ := page_eq_piece_of_stable_sort hpage
  rw [hcount, hskip, hsize] at hlength
  exact ⟨page, hpage, hlength⟩

end Store

end Listing
