import Listing.Request

/-!
# How a list request is answered

A request that does not compile is refused without asking the store, and one that compiles is
answered from the documents that match its filter, or with the failure of the store. In every case
the store differs afterwards at most in the number of its operations, which no answer depends on, so
requests that are answered one after the other do not influence each other.
-/

namespace Listing

variable {store : Store} {pairs : List Pair} {endpoint : Endpoint} {settings : Settings} {request : ListRequest}

/-- What the page of a request is filled with. -/
def Store.pageDocuments (store : Store) (name : String) (endpoint : Endpoint) (request : ListRequest) : List Json :=
  (store.slice name (request.selection endpoint)).map (store.present name (request.selection endpoint))

/-- A request that does not compile leaves the store alone. -/
theorem Store.list_of_refused (name : String) {e : Failure}
    (h : ListRequest.ofPairs pairs endpoint settings = .error e) :
    store.list name pairs endpoint settings = (.error e, store) := by
  rw [Store.list, h]

/-- A failing store is asked once, and the request fails with it. -/
theorem Store.list_of_failing (name : String) {reason : String} (hfailing : store.failure = some reason)
    (h : ListRequest.ofPairs pairs endpoint settings = .ok request) :
    store.list name pairs endpoint settings =
      (.error (.storeOperation reason), { store with operations := store.operations + 1 }) := by
  have hcount : store.count name request.filter =
      (.error reason, { store with operations := store.operations + 1 }) := by
    rw [Store.count, Store.begin, hfailing]
    rfl
  rw [Store.list, h]
  simp only [hcount]

/-- A working store is asked twice and gives the page. -/
theorem Store.list_of_working (name : String) (hworking : store.failure = none)
    (h : ListRequest.ofPairs pairs endpoint settings = .ok request) :
    store.list name pairs endpoint settings =
      (.ok (request.page (store.matching name request.filter).length (store.pageDocuments name endpoint request)),
        { store with operations := store.operations + 2 }) := by
  have hcount : store.count name request.filter =
      (.ok (store.matching name request.filter).length, { store with operations := store.operations + 1 }) := by
    rw [Store.count, Store.begin, hworking]
    rfl
  have hfind : Store.find { store with operations := store.operations + 1 } name (request.selection endpoint) =
      (.ok (store.pageDocuments name endpoint request), { store with operations := store.operations + 2 }) := by
    rw [Store.find, Store.begin]
    simp only [hworking]
    rfl
  rw [Store.list, h]
  simp only [hcount, hfind]

/-- A page is only given by a working store for a request that compiles. -/
theorem Store.list_eq_ok {name : String} {page : Page}
    (h : (store.list name pairs endpoint settings).1 = .ok page) :
    ∃ request, ListRequest.ofPairs pairs endpoint settings = .ok request ∧
      page = request.page (store.matching name request.filter).length (store.pageDocuments name endpoint request) := by
  cases hcompiled : ListRequest.ofPairs pairs endpoint settings with
  | error e =>
    rw [Store.list_of_refused name hcompiled] at h
    contradiction
  | ok request =>
    refine ⟨request, rfl, ?_⟩
    cases hfailure : store.failure with
    | some reason =>
      rw [Store.list_of_failing name hfailure hcompiled] at h
      contradiction
    | none =>
      rw [Store.list_of_working name hfailure hcompiled] at h
      exact (Except.ok.inj h).symm

/-- Answering a request changes nothing but the number of operations. -/
theorem Store.list_operations (store : Store) (name : String) (pairs : List Pair) (endpoint : Endpoint)
    (settings : Settings) :
    ∃ operations, (store.list name pairs endpoint settings).2 = { store with operations } := by
  cases hcompiled : ListRequest.ofPairs pairs endpoint settings with
  | error e => exact ⟨store.operations, congrArg Prod.snd (Store.list_of_refused name hcompiled)⟩
  | ok request =>
    obtain hworking | ⟨reason, hfailing⟩ := Option.eq_none_or_eq_some store.failure
    · exact ⟨store.operations + 2, congrArg Prod.snd (Store.list_of_working name hworking hcompiled)⟩
    · exact ⟨store.operations + 1, congrArg Prod.snd (Store.list_of_failing name hfailing hcompiled)⟩

/-- No answer depends on the number of operations. -/
theorem Store.list_of_operations (store : Store) (name : String) (pairs : List Pair) (endpoint : Endpoint)
    (settings : Settings) (operations : Nat) :
    (Store.list { store with operations } name pairs endpoint settings).1 =
      (store.list name pairs endpoint settings).1 := by
  cases hcompiled : ListRequest.ofPairs pairs endpoint settings with
  | error e => rw [Store.list_of_refused name hcompiled, Store.list_of_refused name hcompiled]
  | ok request =>
    obtain hworking | ⟨reason, hfailing⟩ := Option.eq_none_or_eq_some store.failure
    · have hafter : Store.failure { store with operations } = none := hworking
      rw [Store.list_of_working name hworking hcompiled, Store.list_of_working name hafter hcompiled]
      rfl
    · have hafter : Store.failure { store with operations } = some reason := hfailing
      rw [Store.list_of_failing name hfailing hcompiled, Store.list_of_failing name hafter hcompiled]

/-- Answer requests one after the other, each from the store that the one before has left. -/
def Store.listEach (store : Store) (name : String) (endpoint : Endpoint) (settings : Settings) :
    List (List Pair) → List (Except Failure Page) × Store
  | [] => ([], store)
  | pairs :: rest =>
    let (answer, after) := store.list name pairs endpoint settings
    let (answers, last) := after.listEach name endpoint settings rest
    (answer :: answers, last)

/-- Requests that are answered one after the other have the answers that each would have alone. -/
theorem Store.listEach_eq_map (store : Store) (name : String) (endpoint : Endpoint) (settings : Settings)
    (requests : List (List Pair)) :
    (store.listEach name endpoint settings requests).1 =
      requests.map fun pairs => (store.list name pairs endpoint settings).1 := by
  induction requests generalizing store with
  | nil => rfl
  | cons pairs rest ih =>
    obtain ⟨operations, hafter⟩ := store.list_operations name pairs endpoint settings
    have hrest : (Store.listEach { store with operations } name endpoint settings rest).1 =
        rest.map fun pairs => (store.list name pairs endpoint settings).1 := by
      rw [ih]
      exact List.map_congr_left fun pairs _ => store.list_of_operations name pairs endpoint settings operations
    rw [Store.listEach, List.map_cons, ← hrest, ← hafter]

end Listing
