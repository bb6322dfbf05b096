import Listing.Proofs.LastValues
import Listing.Proofs.PresentedDocuments
import Listing.Proofs.Tiling

/-!
# Presentation has no part in selection

Which fields are shown, in which order documents come and which references are expanded is a matter of
presentation. The filter of a request and its page are read from other pairs, so requests that differ in their
presentation count the same documents and slice them at the same places. A page then has documents with the same
identifiers whatever fields are shown, all pages together have the same documents in any order, and expansions
change nothing but the fields that they name.
-/

namespace Listing

/-- Requests agree apart from a key when they have the same pairs with other keys in the same order. -/
def AgreeApartFrom (key : String) (pairs others : List Pair) : Prop :=
  (others.filter fun pair => pair.1 ≠ key) = pairs.filter fun pair => pair.1 ≠ key

namespace AgreeApartFrom

variable {key : String} {pairs others : List Pair}

/-- A pair with another key is in both requests or in none. -/
theorem mem_iff (h : AgreeApartFrom key pairs others) {pair : Pair} (hkey : pair.1 ≠ key) :
    pair ∈ others ↔ pair ∈ pairs := by
  have hmem (list : List Pair) : pair ∈ list ↔ pair ∈ list.filter fun other => other.1 ≠ key := by
    rw [List.mem_filter, decide_eq_true hkey, eq_self, and_true]
  rw [hmem others, h, ← hmem]

/-- Another key has the same last value in both requests. -/
theorem last?_eq (h : AgreeApartFrom key pairs others) {other : String} (hother : other ≠ key) :
    Keyed.last? others other = Keyed.last? pairs other := by
  have hfilter (list : List Pair) : (list.filter fun pair => pair.1 = other) =
      (list.filter fun pair => pair.1 ≠ key).filter fun pair => pair.1 = other := by
    rw [List.filter_filter]
    refine List.filter_congr fun pair _ => ?_
    by_cases heq : pair.1 = other
    · simp [heq, hother]
    · simp [heq]
  rw [Keyed.last?_eq_getLast?_filter, Keyed.last?_eq_getLast?_filter, hfilter others, hfilter pairs, h]

/-- Requests that agree apart from their sort name pages or not alike. -/
theorem unpaged (h : AgreeApartFrom "sort" pairs others) (hunpaged : Unpaged pairs) : Unpaged others := by
  intro pair hpair
  by_cases hsort : pair.1 = "sort"
  · rw [hsort]
    decide
  · exact hunpaged pair ((h.mem_iff hsort).mp hpair)

end AgreeApartFrom

section

variable {pairs others : List Pair} {settings : Settings} {endpoint : Endpoint}

/-- The query with the sort and the fields that other pairs ask for. -/
def Query.presentedBy (query : Query) (others : List Pair) (settings : Settings) : Query :=
  { query with
    sort := .parseOr (Keyed.last? others "sort") settings.defaultSort
    projection := ((Keyed.last? others "fields").map Projection.parse).getD [] }

/-- The request with the sort and the fields that other pairs ask for. -/
def ListRequest.presentedBy (request : ListRequest) (others : List Pair) (settings : Settings) : ListRequest :=
  { request with query := request.query.presentedBy others settings }

/-- Pairs that differ in their sort or in their fields only are read as the same query but for these. -/
theorem Query.parse_presentedBy {key : String} {query : Query} (hkey : key = "sort" ∨ key = "fields")
    (hagree : AgreeApartFrom key pairs others) (h : parse pairs settings = .ok query) :
    parse others settings = .ok (query.presentedBy others settings) := by
  obtain ⟨hfree, hquery⟩ := parse_eq_ok_iff_isOf.mp h
  have hlast {other : String} (hsort : other ≠ "sort") (hfields : other ≠ "fields") :
      Keyed.last? others other = Keyed.last? pairs other := by
    apply hagree.last?_eq
    rcases hkey with rfl | rfl <;> assumption
  refine parse_eq_ok_iff_isOf.mpr ⟨fun pair hpair hfilters => ?_, ?_⟩
  · have hnone : (Destination.ofKey key).field? = none := by rcases hkey with rfl | rfl <;> decide
    have hne : pair.1 ≠ key := by
      intro heq
      obtain ⟨field, hfield, -⟩ := hfilters
      rw [heq, hnone] at hfield
      contradiction
    exact hfree pair ((hagree.mem_iff hne).mp hpair) hfilters
  · constructor
    case pagination =>
      rw [hlast (by decide) (by decide), hlast (by decide) (by decide), hlast (by decide) (by decide)]
      exact hquery.pagination
    case sort => rfl
    case searchTerm =>
      rw [hlast (by decide) (by decide)]
      exact hquery.searchTerm
    case override =>
      rw [hlast (by decide) (by decide)]
      exact hquery.override
    case projection => rfl
    case group_ordered => exact hquery.group_ordered
    case mem_group_iff =>
      intro group field value
      rw [hlast (Destination.keyOf_ne_key group field .sort) (Destination.keyOf_ne_key group field .fields)]
      exact hquery.mem_group_iff group field value
    case equality_ordered => exact hquery.equality_ordered
    case mem_equality_iff =>
      intro other value
      rw [Query.presentedBy, hquery.mem_equality_iff other value]
      refine and_congr_right fun hother => ?_
      cases hother with
      | equality hparameter => rw [hlast (hparameter .sort) (hparameter .fields)]

/-- Compiling pairs that differ in their sort or in their fields only gives the same request but for these. -/
theorem ListRequest.ofPairs_presentedBy {key : String} {request : ListRequest} (hkey : key = "sort" ∨ key = "fields")
    (hagree : AgreeApartFrom key pairs others) (h : ofPairs pairs endpoint settings = .ok request) :
    ofPairs others endpoint settings = .ok (request.presentedBy others settings) := by
  obtain ⟨hquery, hfilter⟩ := ofPairs_eq_ok_iff.mp h
  exact ofPairs_eq_ok_iff.mpr ⟨Query.parse_presentedBy hkey hagree hquery, hfilter⟩

/-- Requests that agree apart from their fields have the same sort. -/
theorem ListRequest.sort_presentedBy {request : ListRequest} (hagree : AgreeApartFrom "fields" pairs others)
    (h : ofPairs pairs endpoint settings = .ok request) :
    (request.presentedBy others settings).query.sort = request.query.sort := by
  have hquery := (Query.parse_eq_ok_iff_isOf.mp (ofPairs_eq_ok_iff.mp h).1).2
  rw [hquery.sort, ← hagree.last?_eq (by decide)]
  rfl

/-- Requests that agree apart from their sort have the same fields. -/
theorem ListRequest.projection_presentedBy {request : ListRequest} (hagree : AgreeApartFrom "sort" pairs others)
    (h : ofPairs pairs endpoint settings = .ok request) :
    (request.presentedBy others settings).query.projection = request.query.projection := by
  have hquery := (Query.parse_eq_ok_iff_isOf.mp (ofPairs_eq_ok_iff.mp h).1).2
  rw [hquery.projection, ← hagree.last?_eq (by decide)]
  rfl

/-- The filter of a request does not depend on the expansions of the endpoint. -/
theorem ListRequest.ofPairs_expanding (pairs : List Pair) (endpoint : Endpoint) (settings : Settings)
    (expansions : List String) :
    ofPairs pairs { endpoint with expansions } settings = ofPairs pairs endpoint settings := rfl

end

namespace Store

variable {store : Store} {pairs others : List Pair} {endpoint : Endpoint} {settings : Settings}
  {request : ListRequest}

/-- A store that gives a page is working. -/
theorem working_of_list_eq_ok {name : String} {page : Page} (h : (store.list name pairs endpoint settings).1 = .ok page) :
    store.failure = none := by
  obtain ⟨request, hrequest, -⟩ := list_eq_ok h
  cases hfailure : store.failure with
  | none => rfl
  | some reason =>
    rw [list_of_failing name hfailure hrequest] at h
    contradiction

/-- The identifier of a document is presented in the same way whatever fields are shown. -/
theorem field?_id_present (store : Store) (name : String) (selection : Selection) (document : Json) :
    (store.present name selection document).field? idKey =
      (document.field? idKey).map (Expansion.expandOnce (store.relationsOf name) store.documents idKey)^[
        selection.expansions.count idKey] := by
  rw [present, Expansion.field?_expand, Projection.field?_id_apply]

/-- A presented document has the keys that are shown of the document. -/
theorem keys_present (store : Store) (name : String) (selection : Selection) (document : Json) :
    Keyed.keys (store.present name selection document).fields =
      Keyed.keys (Projection.apply selection.projection document).fields :=
  Expansion.keys_expand _ _

/-- A field that is not expanded is presented as it is shown. -/
theorem field?_present_of_not_mem (name : String) {selection : Selection} {field : String}
    (h : field ∉ selection.expansions) (document : Json) :
    (store.present name selection document).field? field =
      (Projection.apply selection.projection document).field? field :=
  Expansion.field?_expand_of_not_mem h _

/-- Documents with other fields shown have the same identifiers at the same places of a page. -/
theorem pageDocuments_presentedBy (name : String)
    (hsort : (request.presentedBy others settings).query.sort = request.query.sort) :
    List.Forall₂ (fun other document => other.field? idKey = document.field? idKey)
      (store.pageDocuments name endpoint (request.presentedBy others settings))
      (store.pageDocuments name endpoint request) := by
  have hslice : store.slice name ((request.presentedBy others settings).selection endpoint) =
      store.slice name (request.selection endpoint) := by
    rw [slice, slice, ListRequest.selection, hsort]
    rfl
  rw [pageDocuments, pageDocuments, hslice, List.forall₂_map_left_iff, List.forall₂_map_right_iff, List.forall₂_same]
  intro document _
  rw [field?_id_present, field?_id_present]
  rfl

/-- The result in another order has the same documents. -/
theorem result_presentedBy (name : String)
    (hprojection : (request.presentedBy others settings).query.projection = request.query.projection) :
    (store.result name endpoint (request.presentedBy others settings)).Perm (store.result name endpoint request) := by
  have hpresent : store.present name ((request.presentedBy others settings).selection endpoint) =
      store.present name (request.selection endpoint) := by
    unfold present ListRequest.selection
    rw [hprojection]
  rw [result, result, hpresent]
  exact ((SortKeys.sort_isStableSort _ _).perm.trans (SortKeys.sort_isStableSort _ _).perm.symm).map _

/-- With other expansions a page has the same documents apart from the fields that are named. -/
theorem pageDocuments_expanding (name : String) (expansions : List String) :
    List.Forall₂
      (fun other document => Keyed.keys other.fields = Keyed.keys document.fields ∧
        ∀ field, field ∉ endpoint.expansions → field ∉ expansions → other.field? field = document.field? field)
      (store.pageDocuments name { endpoint with expansions } request)
      (store.pageDocuments name endpoint request) := by
  have hslice : store.slice name (request.selection { endpoint with expansions }) =
      store.slice name (request.selection endpoint) := rfl
  rw [pageDocuments, pageDocuments, hslice, List.forall₂_map_left_iff, List.forall₂_map_right_iff, List.forall₂_same]
  intro document _
  constructor
  · exact (keys_present ..).trans (keys_present store name (request.selection endpoint) document).symm
  · intro field hbefore hafter
    have hother : field ∉ (request.selection { endpoint with expansions }).expansions := hafter
    have hgiven : field ∉ (request.selection endpoint).expansions := hbefore
    exact (field?_present_of_not_mem name hother document).trans (field?_present_of_not_mem name hgiven document).symm

/-- Asking a working store for the counted pages one after the other gives the result in pieces. -/
theorem exists_listEach_eq_result (name : String) (hworking : store.failure = none) (hunpaged : Unpaged pairs)
    (hrequest : ListRequest.ofPairs pairs endpoint settings = .ok request)
    (hcounted : (store.matching name request.filter).length ≤ Text.maxCount) :
    ∃ pages : List Page,
      (store.listEach name endpoint settings
        ((List.range' 1 (PageInfo.pagesFor request.query.pagination.limit (store.matching name request.filter).length)).map
          (atPage pairs))).1 = pages.map .ok ∧
      pages.flatMap Page.documents = store.result name endpoint request := by
  have hlimit : 0 < request.query.pagination.limit := ListRequest.limit_pos hrequest
  have hpages : PageInfo.pagesFor request.query.pagination.limit (store.matching name request.filter).length ≤
      Text.maxCount := Nat.le_trans (PageInfo.pagesFor_le hlimit) hcounted
  refine ⟨_, listEach_atPage name hworking hunpaged hrequest hpages, ?_⟩
  rw [← length_result store name endpoint request]
  exact flatMap_pageAt hcounted hlimit

/-- Presentation has no part in selection. Let a request be answered with a page. A request that agrees with it
apart from its fields is answered with the same page information, and with documents that have the same identifiers
at the same places. A request that agrees with it apart from its sort is answered with the same page information,
and when no page is named and the number of documents is one of the 64 bits that it is reported with, all pages of
one request together have the same documents, each as often, as those of the other. With other expansions the
request is answered with the same page information, and with documents that have the same keys at the same places
and the same value in every field that is not named. -/
theorem presentation_leaves_selection {name : String} {page : Page}
    (h : (store.list name pairs endpoint settings).1 = .ok page) :
    (∀ others, AgreeApartFrom "fields" pairs others →
      ∃ other, (store.list name others endpoint settings).1 = .ok other ∧ other.pageInfo = page.pageInfo ∧
        List.Forall₂ (fun other document => other.field? idKey = document.field? idKey)
          other.documents page.documents) ∧
    (∀ others, AgreeApartFrom "sort" pairs others →
      ∃ other, (store.list name others endpoint settings).1 = .ok other ∧ other.pageInfo = page.pageInfo ∧
        (Unpaged pairs → page.pageInfo.itemCount ≤ Text.maxCount →
          ∃ pages otherPages : List Page,
            (store.listEach name endpoint settings
              ((List.range' 1 page.pageInfo.pageCount).map (atPage pairs))).1 = pages.map .ok ∧
            (store.listEach name endpoint settings
              ((List.range' 1 page.pageInfo.pageCount).map (atPage others))).1 = otherPages.map .ok ∧
            (otherPages.flatMap Page.documents).Perm (pages.flatMap Page.documents))) ∧
    ∀ expansions,
      ∃ other, (store.list name pairs { endpoint with expansions } settings).1 = .ok other ∧
        other.pageInfo = page.pageInfo ∧
        List.Forall₂
          (fun other document => Keyed.keys other.fields = Keyed.keys document.fields ∧
            ∀ field, field ∉ endpoint.expansions → field ∉ expansions → other.field? field = document.field? field)
          other.documents page.documents := by
  have hworking := working_of_list_eq_ok h
  obtain ⟨request, hrequest, rfl⟩ := list_eq_ok h
  refine ⟨fun others hagree => ?_, fun others hagree => ?_, fun expansions => ?_⟩
  · have hother := ListRequest.ofPairs_presentedBy (.inr rfl) hagree hrequest
    exact ⟨_, congrArg Prod.fst (list_of_working name hworking hother), rfl,
      pageDocuments_presentedBy name (ListRequest.sort_presentedBy hagree hrequest)⟩
  · have hother := ListRequest.ofPairs_presentedBy (.inl rfl) hagree hrequest
    refine ⟨_, congrArg Prod.fst (list_of_working name hworking hother), rfl, fun hunpaged hcounted => ?_⟩
    obtain ⟨pages, hpages, hresult⟩ := exists_listEach_eq_result name hworking hunpaged hrequest hcounted
    obtain ⟨otherPages, hotherPages, hotherResult⟩ :=
      exists_listEach_eq_result name hworking (hagree.unpaged hunpaged) hother hcounted
    refine ⟨pages, otherPages, hpages, hotherPages, ?_⟩
    rw [hresult, hotherResult]
    exact result_presentedBy name (ListRequest.projection_presentedBy hagree hrequest)
  · have hother := (ListRequest.ofPairs_expanding pairs endpoint settings expansions).trans hrequest
    exact ⟨_, congrArg Prod.fst (list_of_working name hworking hother), rfl,
      pageDocuments_expanding name expansions⟩

/-- The two reddest notes are the same ones whether their texts or their identifiers are asked for, although the
redness that they are sorted by is shown in neither case. -/
theorem reddest_notes_without_redness :
    let note (id : String) (red : Fin naturalBound) : Json :=
      .object [(idKey, .text id), ("red", .number (.natural red)), ("text", .text id)]
    let store : Store := { ids := fun _ => "", documents := [("notes", [note "a" 1, note "b" 3, note "c" 2])] }
    ∃ page other,
      (store.list "notes" [("limit", "2"), ("sort", "-red"), ("fields", "text")] {} {}).1 = .ok page ∧
      (store.list "notes" [("fields", "_id"), ("limit", "2"), ("sort", "-red")] {} {}).1 = .ok other ∧
      page.pageInfo.itemCount = 3 ∧ other.pageInfo = page.pageInfo ∧
      other.documents.map (·.field? idKey) = page.documents.map (·.field? idKey) := by
  intro note store
  have hrequest : ListRequest.ofPairs [("limit", "2"), ("sort", "-red"), ("fields", "text")] {} {} = .ok _ :=
    ListRequest.ofPairs_eq_ok (by decide) rfl (Query.constraints_eq_ok_iff.mpr ⟨[], [], rfl, rfl, rfl⟩)
  have hworking : store.failure = none := rfl
  have hpage := congrArg Prod.fst (list_of_working "notes" hworking hrequest)
  have hagree : AgreeApartFrom "fields" [("limit", "2"), ("sort", "-red"), ("fields", "text")]
      [("fields", "_id"), ("limit", "2"), ("sort", "-red")] := by
    unfold AgreeApartFrom
    decide
  obtain ⟨other, hother, hinfo, hdocuments⟩ := (presentation_leaves_selection hpage).1 _ hagree
  refine ⟨_, other, hpage, hother, by decide, hinfo, ?_⟩
  rw [← List.forall₂_eq_eq_eq, List.forall₂_map_left_iff, List.forall₂_map_right_iff]
  exact hdocuments

end Store

end Listing
