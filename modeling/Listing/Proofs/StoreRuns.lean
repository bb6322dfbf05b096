import Listing.Proofs.Answer
import Listing.Proofs.LastPerKey

/-!
# Runs of a store

A run is a sequence of steps on one store, each on one of its collections. What a step does to the
store is said once: it adds at most one document at the end of its own collection, declares at most
one relation, and counts the calls of count and find that it makes. So a collection holds what was
inserted into it, a field refers to the collection that was declared last, and the number of
operations is that of the calls, whatever the order of the steps and whether the store fails.
-/

namespace Listing

/-- A step on a store. -/
inductive Step where
  /-- Insert a document into a collection. -/
  | insert (name : String) (document : Json)
  /-- Declare that a field of a collection refers to the documents of a target collection. -/
  | relate (name field target : String)
  /-- Ask how many documents a collection holds. -/
  | len (name : String)
  /-- Count the documents of a collection that satisfy a filter. -/
  | count (name : String) (filter : Filter)
  /-- Find documents of a collection. -/
  | find (name : String) (selection : Selection)
  /-- Answer a list request from a collection. -/
  | list (name : String) (pairs : List Pair) (endpoint : Endpoint) (settings : Settings)

namespace Step

/-- The collection that a step is on. -/
def name : Step → String
  | insert name _ => name
  | relate name _ _ => name
  | len name => name
  | count name _ => name
  | find name _ => name
  | list name _ _ _ => name

/-- The document that a step inserts into a collection, if it does. -/
def insertedInto? (name : String) : Step → Option Json
  | insert other document => if other = name then some document else none
  | _ => none

/-- The target that a step declares for a field of a collection, if it does. -/
def declaredFor? (name field : String) : Step → Option String
  | relate other otherField target => if other = name ∧ otherField = field then some target else none
  | _ => none

/-- Whether a step only asks for something. -/
def asks : Step → Bool
  | insert _ _ => false
  | relate _ _ _ => false
  | _ => true

end Step

namespace Store

/-- The store after a step. -/
def perform (store : Store) : Step → Store
  | .insert name document => (store.insert name document).2
  | .relate name field target => store.relate name field target
  | .len _ => store
  | .count name filter => (store.count name filter).2
  | .find name selection => (store.find name selection).2
  | .list name pairs endpoint settings => (store.list name pairs endpoint settings).2

/-- The store after a sequence of steps. -/
def run (store : Store) (steps : List Step) : Store := steps.foldl perform store

/-- The calls of count and find that a step makes, in order. A list request makes none when it does not
compile, and does not ask for the page when counting fails. -/
def calls (store : Store) : Step → List Step
  | .count name filter => [.count name filter]
  | .find name selection => [.find name selection]
  | .list name pairs endpoint settings =>
    match ListRequest.ofPairs pairs endpoint settings with
    | .error _ => []
    | .ok request =>
      match (store.count name request.filter).1 with
      | .error _ => [.count name request.filter]
      | .ok _ => [.count name request.filter, .find name (request.selection endpoint)]
  | _ => []

/-- The calls of count and find during a sequence of steps. -/
def callsDuring (store : Store) : List Step → List Step
  | [] => []
  | step :: rest => store.calls step ++ (store.perform step).callsDuring rest

/-- What is stored for a value, given a fresh identifier: an object as it is, with the identifier at the end
when it has none, and any other value as an entry of its own with the identifier after it. -/
def stored (id : String) : Json → Json
  | .object fields =>
    match Keyed.get? fields idKey with
    | some _ => .object fields
    | none => .object (fields ++ [(idKey, .text id)])
  | value => .object [("value", value), (idKey, .text id)]

/-- Whatever is stored is an object with an identifier. -/
theorem exists_id_of_stored (id : String) (document : Json) :
    ∃ fields found, stored id document = .object fields ∧ Keyed.get? fields idKey = some found := by
  rw [stored.eq_def]
  split
  · next fields =>
    split
    · next found hfound => exact ⟨fields, found, rfl, hfound⟩
    · next hnone =>
      refine ⟨_, .text id, rfl, ?_⟩
      rw [← Keyed.insert_of_not_mem_keys (Keyed.get?_eq_none_iff.mp hnone), Keyed.get?_insert, if_pos rfl]
  · exact ⟨_, .text id, rfl, rfl⟩

/-- So are all documents that are stored for some values. -/
theorem exists_id_of_forall₂_stored {ids : Nat → String} {documents kept : List Json}
    (h : List.Forall₂ (fun document kept => ∃ n, kept = stored (ids n) document) documents kept) :
    ∀ document ∈ kept, ∃ fields found, document = .object fields ∧ Keyed.get? fields idKey = some found := by
  induction h with
  | nil => exact fun _ hdocument => absurd hdocument List.not_mem_nil
  | @cons document _ _ _ hfirst _ ih =>
    obtain ⟨n, rfl⟩ := hfirst
    exact List.forall_mem_cons.mpr ⟨exists_id_of_stored (ids n) document, ih⟩

/-! ### What a step does -/

/-- Inserting adds one document at the end of the collection, and may use an identifier. -/
theorem perform_insert (store : Store) (name : String) (document : Json) :
    ∃ drawn, store.perform (.insert name document) =
      { store with
        documents :=
          Keyed.insert store.documents name (store.collection name ++ [stored (store.ids store.drawn) document])
        drawn } := by
  cases document with
  | object fields =>
    rw [perform, insert, storedFields, stored]
    cases hid : Keyed.get? fields idKey with
    | some id => exact ⟨store.drawn, by simp only⟩
    | none =>
      have hfields := Keyed.insert_of_not_mem_keys (Keyed.get?_eq_none_iff.mp hid) (.text (store.ids store.drawn))
      exact ⟨store.drawn + 1, by simp only [hfields]⟩
  | _ => exact ⟨store.drawn + 1, rfl⟩

/-- Asking for something changes nothing but the number of operations, by the calls that are made. -/
theorem perform_of_asks (store : Store) {step : Step} (hasks : step.asks = true) :
    store.perform step = { store with operations := store.operations + (store.calls step).length } := by
  cases step with
  | insert name document => contradiction
  | relate name field target => contradiction
  | len name => rfl
  | count name filter => rfl
  | find name selection => rfl
  | list name pairs endpoint settings =>
    rw [perform, calls]
    cases hcompiled : ListRequest.ofPairs pairs endpoint settings with
    | error e => exact congrArg Prod.snd (store.list_of_refused name hcompiled)
    | ok request =>
      obtain hworking | ⟨reason, hfailing⟩ := Option.eq_none_or_eq_some store.failure
      · have hcount : (store.count name request.filter).1 = .ok (store.matching name request.filter).length := by
          rw [count, begin, hworking]
          rfl
        rw [store.list_of_working name hworking hcompiled]
        simp only [hcount]
        rfl
      · have hcount : (store.count name request.filter).1 = .error reason := by
          rw [count, begin, hfailing]
          rfl
        rw [store.list_of_failing name hfailing hcompiled]
        simp only [hcount]
        rfl

variable (store : Store) (step : Step)

/-- A step adds to a collection what it inserts into it. -/
theorem collection_perform (name : String) :
    (store.perform step).collection name =
      store.collection name ++ ((step.insertedInto? name).map (stored (store.ids store.drawn))).toList := by
  cases step with
  | insert other document =>
    obtain ⟨drawn, hperform⟩ := store.perform_insert other document
    rw [hperform, collection, Keyed.get?_insert, Step.insertedInto?]
    by_cases hname : other = name
    · subst hname
      simp
    · simp [hname, collection]
  | relate => simp [perform, relate, collection, Step.insertedInto?]
  | _ =>
    rw [store.perform_of_asks rfl]
    exact (List.append_nil _).symm

/-- A step declares for the fields of a collection what it says. -/
theorem get?_relationsOf_perform (name field : String) :
    Keyed.get? ((store.perform step).relationsOf name) field =
      (step.declaredFor? name field).or (Keyed.get? (store.relationsOf name) field) := by
  cases step with
  | insert other document =>
    obtain ⟨drawn, hperform⟩ := store.perform_insert other document
    rw [hperform]
    rfl
  | relate other otherField target =>
    rw [perform, relate, relationsOf, Keyed.get?_insert, Step.declaredFor?]
    by_cases hname : other = name
    · subst hname
      rw [if_pos rfl, Option.getD_some, Keyed.get?_insert]
      by_cases hfield : otherField = field <;> simp [hfield]
    · simp [hname, relationsOf]
  | _ =>
    rw [store.perform_of_asks rfl]
    rfl

/-- A step counts the calls that it makes. -/
theorem operations_perform : (store.perform step).operations = store.operations + (store.calls step).length := by
  cases step with
  | insert name document =>
    obtain ⟨drawn, hperform⟩ := store.perform_insert name document
    rw [hperform]
    rfl
  | relate => rfl
  | _ => rw [store.perform_of_asks rfl]

/-- No step changes where identifiers come from. -/
theorem ids_perform : (store.perform step).ids = store.ids := by
  cases step with
  | insert name document =>
    obtain ⟨drawn, hperform⟩ := store.perform_insert name document
    rw [hperform]
  | relate => rfl
  | _ => rw [store.perform_of_asks rfl]

/-- A step on one collection adds nothing to another. -/
theorem collection_perform_of_ne {name : String} (hname : name ≠ step.name) :
    (store.perform step).collection name = store.collection name := by
  have hnone : step.insertedInto? name = none := by
    cases step with
    | insert other document => exact if_neg hname.symm
    | _ => rfl
  rw [collection_perform, hnone, Option.map_none, Option.toList_none, List.append_nil]

/-- A step on one collection declares nothing for another. -/
theorem get?_relationsOf_perform_of_ne {name : String} (hname : name ≠ step.name) (field : String) :
    Keyed.get? ((store.perform step).relationsOf name) field = Keyed.get? (store.relationsOf name) field := by
  have hnone : step.declaredFor? name field = none := by
    cases step with
    | relate other otherField target => exact if_neg fun h => hname h.1.symm
    | _ => rfl
  rw [get?_relationsOf_perform, hnone, Option.none_or]

/-- Only inserting changes documents. -/
theorem documents_perform {step : Step} (hstep : ∀ name document, step ≠ .insert name document) :
    (store.perform step).documents = store.documents := by
  cases step with
  | insert name document => exact absurd rfl (hstep name document)
  | relate => rfl
  | _ => rw [store.perform_of_asks rfl]

/-! ### What a run does -/

/-- A run adds to a collection what its steps insert into it, in their order. -/
theorem exists_collection_run (steps : List Step) (name : String) :
    ∃ added, (store.run steps).collection name = store.collection name ++ added ∧
      List.Forall₂ (fun document kept => ∃ n, kept = stored (store.ids n) document)
        (steps.filterMap (Step.insertedInto? name)) added := by
  induction steps generalizing store with
  | nil => exact ⟨[], (List.append_nil _).symm, .nil⟩
  | cons step rest ih =>
    obtain ⟨added, hcollection, hadded⟩ := ih (store.perform step)
    rw [ids_perform] at hadded
    rw [run, List.foldl_cons, ← run, hcollection, collection_perform, List.append_assoc]
    refine ⟨_, rfl, ?_⟩
    cases hinserted : step.insertedInto? name with
    | none => rwa [List.filterMap_cons_none hinserted]
    | some document =>
      rw [List.filterMap_cons_some hinserted]
      exact .cons ⟨store.drawn, rfl⟩ hadded

/-- After a run a field refers to the collection that was declared last, or else to the one before. -/
theorem get?_relationsOf_run (steps : List Step) (name field : String) :
    Keyed.get? ((store.run steps).relationsOf name) field =
      (steps.filterMap (Step.declaredFor? name field)).getLast?.or (Keyed.get? (store.relationsOf name) field) := by
  induction steps generalizing store with
  | nil => rfl
  | cons step rest ih =>
    rw [run, List.foldl_cons, ← run, ih, get?_relationsOf_perform, ← Option.or_assoc]
    cases hdeclared : step.declaredFor? name field with
    | none => rw [List.filterMap_cons_none hdeclared, Option.or_none]
    | some target =>
      rw [List.filterMap_cons_some hdeclared, List.getLast?_cons]
      cases (rest.filterMap (Step.declaredFor? name field)).getLast? <;> rfl

/-- A run counts the calls that its steps make. -/
theorem operations_run (steps : List Step) :
    (store.run steps).operations = store.operations + (store.callsDuring steps).length := by
  induction steps generalizing store with
  | nil => rfl
  | cons step rest ih =>
    rw [run, List.foldl_cons, ← run, ih, operations_perform, callsDuring, List.length_append, Nat.add_assoc]

/-- After any steps on a new store, failing or not, every collection holds what was inserted into it, in the
order of insertion, each document an object with an identifier; as many documents as were inserted; a step on
one collection leaves the documents and the relations of every other alone, and only inserting changes
documents; a field refers to the collection that was declared for it last; and the number of operations is
that of the calls of count and find. -/
theorem run_keeps_what_was_inserted (ids : Nat → String) (failure : Option String) (steps : List Step) :
    let start : Store := { ids, failure }
    let store := start.run steps
    (∀ name, List.Forall₂ (fun document kept => ∃ n, kept = stored (ids n) document)
      (steps.filterMap (Step.insertedInto? name)) (store.collection name)) ∧
      (∀ name, ∀ kept ∈ store.collection name,
        ∃ fields id, kept = .object fields ∧ Keyed.get? fields idKey = some id) ∧
      (∀ name, store.len name = (steps.filterMap (Step.insertedInto? name)).length) ∧
      (∀ (step : Step) (name : String), name ≠ step.name →
        (store.perform step).collection name = store.collection name ∧
          ∀ field, Keyed.get? ((store.perform step).relationsOf name) field =
            Keyed.get? (store.relationsOf name) field) ∧
      (∀ step : Step, (∀ name document, step ≠ .insert name document) →
        (store.perform step).documents = store.documents) ∧
      (∀ name field, Keyed.get? (store.relationsOf name) field =
        (steps.filterMap (Step.declaredFor? name field)).getLast?) ∧
      store.operations = (start.callsDuring steps).length := by
  intro start store
  have hdocuments (name : String) : List.Forall₂ (fun document kept => ∃ n, kept = stored (ids n) document)
      (steps.filterMap (Step.insertedInto? name)) (store.collection name) := by
    obtain ⟨added, hcollection, hadded⟩ := start.exists_collection_run steps name
    rw [show store.collection name = added from hcollection]
    exact hadded
  refine ⟨hdocuments, fun name => exists_id_of_forall₂_stored (hdocuments name),
    fun name => (hdocuments name).length_eq.symm, fun step name hname => ⟨store.collection_perform_of_ne step hname,
      store.get?_relationsOf_perform_of_ne step hname⟩, fun step => store.documents_perform, fun name field => ?_, ?_⟩
  · exact (start.get?_relationsOf_run steps name field).trans (Option.or_none ..)
  · exact (start.operations_run steps).trans (Nat.zero_add _)

-- a failing store takes documents in and counts the calls that it fails
example :
    let start : Store := { ids := fun n => String.ofList (Nat.toDigits 10 n), failure := some "down" }
    let store := start.run [.insert "notes" (.text "first"), .count "notes" (.all []), .len "notes"]
    store.collection "notes" = [.object [("value", .text "first"), ("_id", .text "0")]] ∧ store.operations = 1 :=
  ⟨rfl, rfl⟩

end Store

end Listing
