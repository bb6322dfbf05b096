import Listing.Proofs.PageContent
import Listing.Proofs.StoreRuns

/-!
# Requests at a store that others use too

A list request asks the store twice, and between the two calls others may insert documents, declare
relations or ask for something themselves. The page information is then that of the earlier state and
the documents are those of the later one. Since a collection only grows, and at its end, the later state
has all the matching documents of the earlier one, so the page is at least as full as it is without
others; and it is the same page when nothing that matches has come in between.
-/

namespace Listing

namespace Store

/-- Answer a list request at a store that others use, too. They take their steps after the matching
documents are counted and before those of the page are found. -/
def listAmid (store : Store) (between : List Step) (name : String) (pairs : List Pair) (endpoint : Endpoint)
    (settings : Settings) : Except Failure Page × Store :=
  match ListRequest.ofPairs pairs endpoint settings with
  | .error e => (.error e, store)
  | .ok request =>
    match store.count name request.filter with
    | (.error reason, counted) => (.error (.storeOperation reason), counted)
    | (.ok itemCount, counted) =>
      match (counted.run between).find name (request.selection endpoint) with
      | (.error reason, found) => (.error (.storeOperation reason), found)
      | (.ok documents, found) => (.ok (request.page itemCount documents), found)

/-- The store in which the page is found: a call has been made and the others have taken their steps. -/
def later (store : Store) (between : List Step) : Store := store.begin.2.run between

variable {store : Store} {between : List Step} {pairs : List Pair} {endpoint : Endpoint} {settings : Settings}
  {request : ListRequest}

/-- Where the others do nothing, a request is answered as at a store of its own. -/
theorem listAmid_nil (store : Store) (name : String) (pairs : List Pair) (endpoint : Endpoint) (settings : Settings) :
    store.listAmid [] name pairs endpoint settings = store.list name pairs endpoint settings := rfl

/-! ### What the others leave behind -/

/-- No step makes a store fail or work again. -/
theorem failure_perform (store : Store) (step : Step) : (store.perform step).failure = store.failure := by
  cases step with
  | insert name document =>
    obtain ⟨drawn, hperform⟩ := store.perform_insert name document
    rw [hperform]
  | relate => rfl
  | _ => rw [store.perform_of_asks rfl]

/-- No run makes a store fail or work again. -/
theorem failure_run (store : Store) (steps : List Step) : (store.run steps).failure = store.failure := by
  induction steps generalizing store with
  | nil => rfl
  | cons step rest ih => rw [run, List.foldl_cons, ← run, ih, failure_perform]

/-- The matching documents of the later state are those of the earlier one, and after them those that match
among the documents that have come in. -/
theorem matching_later {name : String} {added : List Json}
    (hadded : (store.later between).collection name = store.collection name ++ added) (filter : Filter) :
    (store.later between).matching name filter = store.matching name filter ++ added.filter filter.holds := by
  unfold matching
  rw [hadded, List.filter_append]

/-- Nothing that matches is lost between the two calls. -/
theorem length_matching_le_later (store : Store) (between : List Step) (name : String) (filter : Filter) :
    (store.matching name filter).length ≤ ((store.later between).matching name filter).length := by
  obtain ⟨added, hadded, -⟩ := store.begin.2.exists_collection_run between name
  rw [matching_later hadded, List.length_append]
  omega

/-- Whatever stands on a page of a store is in the collection and matches. -/
theorem mem_of_mem_slice {name : String} {selection : Selection} {document : Json}
    (h : document ∈ store.slice name selection) :
    document ∈ store.collection name ∧ selection.filter.holds document = true := by
  have hsorted := List.mem_of_mem_drop (List.mem_of_mem_take h)
  exact List.mem_filter.mp ((List.mergeSort_perm _ _).mem_iff.mp hsorted)

/-- Where no references are expanded, a document is given out as it is stored, whatever else the store holds. -/
theorem present_of_expansions_nil {selection : Selection} (h : selection.expansions = []) (name : String)
    (document : Json) : store.present name selection document = Projection.apply selection.projection document := by
  unfold present
  rw [h]
  cases Projection.apply selection.projection document <;> rfl

/-- The page of the later state is that of the earlier one when nothing that matches has come in and no
references are expanded. -/
theorem pageDocuments_later {name : String} {added : List Json}
    (hadded : (store.later between).collection name = store.collection name ++ added)
    (hnone : ∀ document ∈ added, request.filter.holds document = false) (hexpansions : endpoint.expansions = []) :
    (store.later between).pageDocuments name endpoint request = store.pageDocuments name endpoint request := by
  have hmatching : (store.later between).matching name request.filter = store.matching name request.filter := by
    have hempty : added.filter request.filter.holds = [] :=
      List.filter_eq_nil_iff.mpr fun document hdocument => Bool.eq_false_iff.mp (hnone document hdocument)
    rw [matching_later hadded, hempty, List.append_nil]
  have hslice : (store.later between).slice name (request.selection endpoint) =
      store.slice name (request.selection endpoint) :=
    congrArg (fun found => ((request.query.sort.sort found).drop request.query.pagination.skip).take
      request.query.pagination.limit) hmatching
  have hselection : (request.selection endpoint).expansions = [] := hexpansions
  unfold pageDocuments
  rw [hslice]
  apply List.map_congr_left
  intro document _
  rw [present_of_expansions_nil hselection, present_of_expansions_nil hselection]

/-! ### The answer -/

/-- A working store is counted before the steps of the others and gives the page after them. -/
theorem listAmid_of_working (name : String) (hworking : store.failure = none)
    (h : ListRequest.ofPairs pairs endpoint settings = .ok request) :
    (store.listAmid between name pairs endpoint settings).1 =
      .ok (request.page (store.matching name request.filter).length
        ((store.later between).pageDocuments name endpoint request)) := by
  have hcount : store.count name request.filter = (.ok (store.matching name request.filter).length, store.begin.2) := by
    unfold count begin
    rw [hworking]
    rfl
  have hlater : (store.later between).failure = none := (store.begin.2.failure_run between).trans hworking
  have hfind : ((store.begin.2.run between).find name (request.selection endpoint)).1 =
      .ok ((store.later between).pageDocuments name endpoint request) := by
    change ((store.later between).find name (request.selection endpoint)).1 = _
    unfold find begin
    rw [hlater]
    rfl
  unfold listAmid
  rw [h]
  simp only [hcount]
  split
  · next reason found hfound => rw [hfound] at hfind; contradiction
  · next documents found hfound =>
    rw [hfound] at hfind
    rw [Except.ok.inj hfind]

/-- A request that fails at a store of its own fails in the same way whatever others do. -/
theorem listAmid_of_list_eq_error {name : String} {e : Failure}
    (h : (store.list name pairs endpoint settings).1 = .error e) :
    (store.listAmid between name pairs endpoint settings).1 = .error e := by
  cases hcompiled : ListRequest.ofPairs pairs endpoint settings with
  | error cause =>
    rw [store.list_of_refused name hcompiled] at h
    rw [listAmid, hcompiled]
    exact h
  | ok request =>
    obtain hworking | ⟨reason, hfailing⟩ := Option.eq_none_or_eq_some store.failure
    · rw [store.list_of_working name hworking hcompiled] at h
      contradiction
    · have hcount : store.count name request.filter = (.error reason, store.begin.2) := by
        unfold count begin
        rw [hfailing]
        rfl
      rw [store.list_of_failing name hfailing hcompiled] at h
      rw [listAmid, hcompiled]
      simp only [hcount]
      exact h

/-- A page that is counted in one state of a store and found in another. -/
structure IsPageAcross (earlier later : Store) (name : String) (endpoint : Endpoint) (request : ListRequest)
    (page : Page) : Prop where
  /-- The page information is that of the earlier state. -/
  pageInfo : page.pageInfo = .of request.query.pagination (earlier.matching name request.filter).length
  /-- The documents are given out by the later state. -/
  documents : page.documents = (later.slice name (request.selection endpoint)).map
    (later.present name (request.selection endpoint))
  /-- Each of them is one of the later state that matches. -/
  matching : ∀ document ∈ later.slice name (request.selection endpoint),
    document ∈ later.collection name ∧ request.filter.holds document = true
  /-- There are as many as the page size and the matching documents of the later state allow. -/
  length_eq : page.documents.length =
    min page.pageInfo.perPage ((later.matching name request.filter).length - page.pageInfo.skipCount)
  /-- There are no fewer than the page information promises. -/
  le_length : min page.pageInfo.perPage (page.pageInfo.itemCount - page.pageInfo.skipCount) ≤ page.documents.length
  /-- There are no more than fit the page. -/
  length_le : page.documents.length ≤ page.pageInfo.perPage

/-- What others do between the two calls of a request neither makes it fail nor succeed. Its page is counted
in the state before and found in the state after their steps, which has the same documents and after them
those that were inserted. When none of these matches and no references are expanded, the page is the one that
is given without others. -/
theorem list_amid_steps_of_others (store : Store) (between : List Step) (name : String) (pairs : List Pair)
    (endpoint : Endpoint) (settings : Settings) :
    (∀ e, (store.list name pairs endpoint settings).1 = .error e →
      (store.listAmid between name pairs endpoint settings).1 = .error e) ∧
    ∀ alone, (store.list name pairs endpoint settings).1 = .ok alone →
      ∃ request page added,
        ListRequest.ofPairs pairs endpoint settings = .ok request ∧
        (store.listAmid between name pairs endpoint settings).1 = .ok page ∧
        page.pageInfo = alone.pageInfo ∧
        IsPageAcross store (store.later between) name endpoint request page ∧
        (store.later between).collection name = store.collection name ++ added ∧
        List.Forall₂ (fun document kept => ∃ n, kept = stored (store.ids n) document)
          (between.filterMap (Step.insertedInto? name)) added ∧
        ((∀ document ∈ added, request.filter.holds document = false) → endpoint.expansions = [] → page = alone) := by
  refine ⟨fun e => listAmid_of_list_eq_error, fun alone halone => ?_⟩
  obtain ⟨request, hrequest, rfl⟩ := list_eq_ok halone
  have hworking : store.failure = none := by
    by_contra hfailure
    obtain ⟨reason, hfailing⟩ := Option.ne_none_iff_exists'.mp hfailure
    rw [store.list_of_failing name hfailing hrequest] at halone
    contradiction
  obtain ⟨added, hadded, hstored⟩ := store.begin.2.exists_collection_run between name
  have hlength := (store.later between).length_pageDocuments name endpoint request
  have hmore := store.length_matching_le_later between name request.filter
  refine ⟨request, _, added, hrequest, listAmid_of_working name hworking hrequest, rfl, ?_, hadded, hstored,
    fun hnone hexpansions => ?_⟩
  · refine ⟨rfl, rfl, fun document => mem_of_mem_slice, hlength, ?_, ?_⟩
    · calc min request.query.pagination.limit
            ((store.matching name request.filter).length - request.query.pagination.skip)
          ≤ min request.query.pagination.limit
              (((store.later between).matching name request.filter).length - request.query.pagination.skip) := by
            omega
        _ = ((store.later between).pageDocuments name endpoint request).length := hlength.symm
    · exact hlength ▸ Nat.min_le_left _ _
  · rw [pageDocuments_later hadded hnone hexpansions]

/-- Notes of another colour, and drafts, do not change the page of the red notes. -/
theorem page_amid_notes_of_other_colour :
    let note (colour : String) : Json := .object [("colour", .text colour), ("_id", .text colour)]
    let store : Store := { ids := fun _ => "", documents := [("notes", [note "red"])] }
    let between : List Step := [.insert "notes" (note "blue"), .insert "drafts" (note "red")]
    ∃ page, (store.list "notes" [("colour", "red")] {} {}).1 = .ok page ∧
      (store.listAmid between "notes" [("colour", "red")] {} {}).1 = .ok page := by
  intro note store between
  have hrequest : ListRequest.ofPairs [("colour", "red")] {} {} = .ok _ :=
    ListRequest.ofPairs_eq_ok (by decide) rfl (Query.constraints_eq_ok_iff.mpr ⟨[], [], rfl, rfl, rfl⟩)
  have halone : (store.list "notes" [("colour", "red")] {} {}).1 = .ok _ :=
    congrArg Prod.fst (list_of_working "notes" rfl hrequest)
  obtain ⟨-, hpage⟩ := list_amid_steps_of_others store between "notes" [("colour", "red")] {} {}
  obtain ⟨request, page, added, hcompiled, hamid, -, -, hadded, -, hsame⟩ := hpage _ halone
  obtain rfl := Except.ok.inj (hrequest.symm.trans hcompiled)
  have hblue : (store.later between).collection "notes" = store.collection "notes" ++ [note "blue"] := rfl
  obtain rfl := List.append_cancel_left (hadded.symm.trans hblue)
  have heq := hsame (List.forall_mem_singleton.mpr (by decide)) rfl
  exact ⟨_, halone, heq ▸ hamid⟩

end Store

end Listing
