import Listing.Proofs.KeyOrder
import Listing.Proofs.ProjectedParts
import Listing.Store

/-!
# Stores of reordered documents

Two stores that hold the same documents but for the order of the keys in them count the same and give the same sequence
of documents. The documents of a collection are taken in pairs, one from each store and both at the same place.
Filtering, sorting and cutting out a page then choose pairs, and the projection and the expansion of references make
reordered documents of the two in a pair.
-/

namespace Listing

open Json

namespace Expansion

variable {targets otherTargets : List Json} (htargets : List.Forall₂ Alike targets otherTargets)

/-- Whether a document has an identifier does not depend on the order of keys. -/
theorem hasId_eq {document other id otherId : Json} (hdocument : document.Alike other) (hid : id.Reordered otherId) :
    hasId id document = hasId otherId other := by
  rw [hasId, hasId]
  obtain ⟨hfound, hother⟩ | ⟨found, otherFound, hfound, hother, halike⟩ := rel_iff.mp (hdocument.field? idKey)
  · rw [hfound, hother, Option.any_none, Option.any_none]
  · rw [hfound, hother, Option.any_some, Option.any_some, halike.sameAs id otherId hid]

include htargets

/-- An identifier names documents at the same place. -/
theorem reordered_resolve {id otherId : Json} (hid : id.Reordered otherId) :
    Option.Rel Json.Reordered (resolve targets id) (resolve otherTargets otherId) := by
  induction htargets with
  | nil => exact .none
  | cons hdocument _ ih =>
    rw [resolve, resolve, List.find?_cons, List.find?_cons, hasId_eq hdocument hid]
    split
    · exact .some hdocument.reordered
    · exact ih

/-- Reordered values are expanded to reordered values. -/
theorem reordered_expandValue {value other : Json} (h : value.Reordered other) :
    (expandValue targets value).Reordered (expandValue otherTargets other) := by
  have hsingle {id otherId : Json} (hid : id.Reordered otherId) :
      ((resolve targets id).getD .null).Reordered ((resolve otherTargets otherId).getD .null) := by
    obtain ⟨hnone, hother⟩ | ⟨document, found, hsome, hother, hdocument⟩ := rel_iff.mp (reordered_resolve htargets hid)
    · rw [hnone, hother]
      exact .refl .null
    · rw [hsome, hother]
      exact hdocument
  cases value with
  | array ids =>
    obtain ⟨otherIds, rfl, hids⟩ := reordered_array_iff.mp h
    exact .array (List.rel_filterMap (fun _ _ hid => reordered_resolve htargets hid) hids)
  | object fields =>
    obtain ⟨others, rfl, -⟩ := reordered_object_iff.mp h
    exact hsingle h
  | null =>
    cases h
    exact .refl .null
  | _ =>
    cases h
    exact hsingle (.refl _)

end Expansion

namespace Store

/-- Two stores with well-formed documents that are equal up to the order of keys, place by place in each collection, and
with the same relations and the same failure. -/
structure Alike (store other : Store) : Prop where
  /-- The documents of a collection are alike at each place. -/
  documents (name : String) : List.Forall₂ Json.Alike (store.collection name) (other.collection name)
  /-- The same fields refer to the same collections. -/
  relations : store.relations = other.relations
  /-- Both work, or both fail alike. -/
  failure : store.failure = other.failure

section

variable {store other : Store} (hstore : store.Alike other) (name : String)

include hstore

/-- What one expansion makes of the values of a field are reordered values again. -/
theorem Alike.reordered_expandOnce (field : String) {value found : Json} (h : value.Reordered found) :
    (Expansion.expandOnce (store.relationsOf name) store.documents field value).Reordered
      (Expansion.expandOnce (store.relationsOf name) other.documents field found) := by
  rw [Expansion.expandOnce, Expansion.expandOnce]
  cases Keyed.get? (store.relationsOf name) field with
  | none => exact h
  | some target => exact Expansion.reordered_expandValue (hstore.documents target) h

/-- So they are after several expansions. -/
theorem Alike.reordered_iterate_expandOnce (field : String) (times : Nat) {value found : Json}
    (h : value.Reordered found) :
    ((Expansion.expandOnce (store.relationsOf name) store.documents field)^[times] value).Reordered
      ((Expansion.expandOnce (store.relationsOf name) other.documents field)^[times] found) := by
  induction times generalizing value found with
  | zero => exact h
  | succ times ih => exact ih (hstore.reordered_expandOnce name field h)

/-- Documents that differ in the order of keys are given out as such documents. -/
theorem Alike.reordered_present (selection : Selection) {document found : Json} (h : document.Reordered found) :
    (store.present name selection document).Reordered (other.present name selection found) := by
  have hrelations : other.relationsOf name = store.relationsOf name := by
    rw [relationsOf, relationsOf, hstore.relations]
  have hkeys (documents : Keyed (List Json)) (fields : Keyed Json) :
      Keyed.keys (selection.expansions.foldl (Expansion.expandField (store.relationsOf name) documents) fields) =
        Keyed.keys fields := Expansion.keys_expand selection.expansions (.object fields)
  have hvalues (documents : Keyed (List Json)) (fields : Keyed Json) (key : String) :
      Keyed.get? (selection.expansions.foldl (Expansion.expandField (store.relationsOf name) documents) fields) key =
        (Keyed.get? fields key).map
          (Expansion.expandOnce (store.relationsOf name) documents key)^[selection.expansions.count key] :=
    Expansion.field?_expand selection.expansions (.object fields) key
  have hshown :
      (Projection.apply selection.projection document).Reordered (Projection.apply selection.projection found) :=
    Projection.reordered_apply (fun path => Iff.rfl) h
  rw [present, present, hrelations]
  generalize Projection.apply selection.projection document = shown at hshown
  generalize Projection.apply selection.projection found = otherShown at hshown
  cases shown with
  | object fields =>
    obtain ⟨others, rfl, hperm, hfields⟩ := reordered_object_iff.mp hshown
    refine .object (by rwa [hkeys, hkeys]) fun key => ?_
    rw [hvalues, hvalues, Option.map_eq_bind, Option.map_eq_bind]
    exact rel_bind (hfields key) fun _ _ _ hvalue => .some (hstore.reordered_iterate_expandOnce name key _ hvalue)
  | array elements =>
    obtain ⟨others, rfl, -⟩ := reordered_array_iff.mp hshown
    exact hshown
  | _ =>
    cases hshown
    exact .refl _

/-- The matching documents of two stores are at the same places of the collection. -/
theorem Alike.exists_matching_eq_map {filter otherFilter : Filter} (hfilter : filter.Reordered otherFilter) :
    ∃ matching : List (Json × Json), matching.Sublist ((store.collection name).zip (other.collection name)) ∧
      store.matching name filter = matching.map Prod.fst ∧
      other.matching name otherFilter = matching.map Prod.snd := by
  let pairs := (store.collection name).zip (other.collection name)
  have hlength := (hstore.documents name).length_eq
  have hfirst : store.collection name = pairs.map Prod.fst := (List.map_fst_zip hlength.le).symm
  have hsecond : other.collection name = pairs.map Prod.snd := (List.map_snd_zip hlength.ge).symm
  have hholds : ∀ pair ∈ pairs, otherFilter.holds pair.2 = filter.holds pair.1 := fun pair hpair =>
    (Filter.holds_eq (List.forall₂_zip (hstore.documents name) hpair) hfilter).symm
  refine ⟨pairs.filter fun pair => filter.holds pair.1, List.filter_sublist, ?_, ?_⟩
  · rw [matching, hfirst, List.filter_map]
    rfl
  · rw [matching, hsecond, List.filter_map]
    exact congrArg _ (List.filter_congr hholds)

/-- The parts of the two collections that are asked for are made of documents at the same places, in the same order. -/
theorem Alike.exists_slice_eq_map (selection : Selection) {filter : Filter}
    (hfilter : selection.filter.Reordered filter) :
    ∃ chosen : List (Json × Json), chosen.Subperm ((store.collection name).zip (other.collection name)) ∧
      store.slice name selection = chosen.map Prod.fst ∧
      other.slice name { selection with filter } = chosen.map Prod.snd := by
  obtain ⟨matching, hsub, hfirst, hsecond⟩ := hstore.exists_matching_eq_map name hfilter
  have halike : ∀ pair ∈ matching, pair.1.Alike pair.2 := fun pair hpair =>
    List.forall₂_zip (hstore.documents name) (hsub.subset hpair)
  let sorted := matching.mergeSort fun pair next => (selection.sort.compare pair.1 next.1).isLE
  have hsortedFirst : sorted.map Prod.fst = selection.sort.sort (matching.map Prod.fst) :=
    List.map_mergeSort fun _ _ _ _ => rfl
  have hsortedSecond : sorted.map Prod.snd = selection.sort.sort (matching.map Prod.snd) :=
    List.map_mergeSort fun pair hpair next hnext => by
      rw [SortKeys.compare_eq (halike pair hpair).reordered (halike next hnext).reordered]
  refine ⟨(sorted.drop selection.skip).take selection.limit, ?_, ?_, ?_⟩
  · have hcut : ((sorted.drop selection.skip).take selection.limit).Sublist sorted :=
      (List.take_sublist _ _).trans (List.drop_sublist _ _)
    exact hcut.subperm.trans ((List.mergeSort_perm _ _).subperm.trans hsub.subperm)
  · rw [slice, hfirst, ← hsortedFirst, List.map_take, List.map_drop]
  · rw [slice, hsecond, ← hsortedSecond, List.map_take, List.map_drop]

/-- Reordered filters count the same in both stores. -/
theorem Alike.count_eq {filter otherFilter : Filter} (hfilter : filter.Reordered otherFilter) :
    (store.count name filter).1 = (other.count name otherFilter).1 := by
  obtain ⟨matching, -, hfirst, hsecond⟩ := hstore.exists_matching_eq_map name hfilter
  rw [count, count, begin, begin, hstore.failure, hfirst, hsecond]
  simp only [List.length_map]

/-- Two working stores find documents at the same places, in the same order, and give them out reordered. -/
theorem Alike.exists_find_eq (hworking : store.failure = none) (selection : Selection) {filter : Filter}
    (hfilter : selection.filter.Reordered filter) :
    ∃ chosen : List (Json × Json), chosen.Subperm ((store.collection name).zip (other.collection name)) ∧
      (store.find name selection).1 = .ok (chosen.map fun pair => store.present name selection pair.1) ∧
      (other.find name { selection with filter }).1 = .ok (chosen.map fun pair => other.present name selection pair.2) ∧
      ∀ pair ∈ chosen, (store.present name selection pair.1).Reordered (other.present name selection pair.2) := by
  obtain ⟨chosen, hchosen, hfirst, hsecond⟩ := hstore.exists_slice_eq_map name selection hfilter
  refine ⟨chosen, hchosen, ?_, ?_, fun pair hpair => ?_⟩
  · rw [find, begin, hworking, hfirst, List.map_map]
    rfl
  · rw [find, begin, ← hstore.failure, hworking, hsecond, List.map_map]
    rfl
  · have halike : pair.1.Alike pair.2 := List.forall₂_zip (hstore.documents name) (hchosen.subset hpair)
    exact hstore.reordered_present name selection halike.reordered

end

end Store

/-- The order of keys inside objects is of no importance to a query. A document satisfies a filter exactly when it does
with its keys, and those in the operands of the filter, in another order, at whatever depth. A sort puts both documents
in the same order to any third one. So two stores of such documents count the same for each of two such filters, and
when they do not fail alike, they find documents at the same places, in the same order, and give out documents that
again differ in the order of keys only. -/
theorem key_order_is_of_no_importance :
    (∀ {document other : Json} {filter otherFilter : Filter}, document.Alike other → filter.Reordered otherFilter →
      (filter.holds document = true ↔ otherFilter.holds other = true)) ∧
    (∀ {document other : Json} (keys : SortKeys) (third : Json), document.Reordered other →
      keys.compare document third = keys.compare other third ∧ keys.compare third document = keys.compare third other) ∧
    ∀ {store other : Store} (name : String) (selection : Selection) {filter : Filter}, store.Alike other →
      selection.filter.Reordered filter →
        (store.count name selection.filter).1 = (other.count name filter).1 ∧
        (∀ reason, store.failure = some reason → (store.find name selection).1 = .error reason ∧
          (other.find name { selection with filter }).1 = .error reason) ∧
        (store.failure = none →
          ∃ chosen : List (Json × Json), chosen.Subperm ((store.collection name).zip (other.collection name)) ∧
            (store.find name selection).1 = .ok (chosen.map fun pair => store.present name selection pair.1) ∧
            (other.find name { selection with filter }).1 =
              .ok (chosen.map fun pair => other.present name selection pair.2) ∧
            ∀ pair ∈ chosen,
              (store.present name selection pair.1).Reordered (other.present name selection pair.2)) := by
  refine ⟨fun hdocument hfilter => ?_, fun keys third hdocument => ⟨?_, ?_⟩, fun name selection filter hstore hfilter =>
    ⟨hstore.count_eq name hfilter, fun reason hfailing => ⟨?_, ?_⟩, fun hworking =>
      hstore.exists_find_eq name hworking selection hfilter⟩⟩
  · rw [Filter.holds_eq hdocument hfilter]
  · exact SortKeys.compare_eq hdocument (.refl third) keys
  · exact SortKeys.compare_eq (.refl third) hdocument keys
  · rw [Store.find, Store.begin, hfailing]
    rfl
  · rw [Store.find, Store.begin, ← hstore.failure, hfailing]
    rfl

/-- An order is found by one of its sizes, whichever of width and height comes first in the order and in the filter. -/
theorem order_found_by_size_in_either_key_order :
    let width : String × Json := ("w", .ofCount 2)
    let height : String × Json := ("h", .ofCount 3)
    let order (size : List (String × Json)) : String × Json := ("sizes", .array [.object size, .null])
    let id : String × Json := ("_id", .text "o1")
    let first : Json := .object [id, order [width, height]]
    let second : Json := .object [order [height, width], id]
    let store (document : Json) : Store := { ids := fun _ => "", documents := [("orders", [document])] }
    let filter (size : List (String × Json)) : Filter := .membership "sizes" .isIn [.object size]
    let asked (size : List (String × Json)) : Selection :=
      { filter := filter size, sort := [⟨"_id", .descending⟩], skip := 0, limit := 5, projection := []
        expansions := [] }
    (filter [height, width]).holds first = true ∧ (filter [width, height]).holds second = true ∧
      SortKeys.compare [⟨"sizes", .ascending⟩] second .null = .gt ∧
      ((store second).count "orders" (filter [width, height])).1 = .ok 1 ∧
      ∃ found, ((store second).find "orders" (asked [width, height])).1 = .ok [found] ∧ first.Reordered found := by
  intro width height order id first second store filter asked
  have hsizes : (Json.object [width, height]).Reordered (.object [height, width]) :=
    .swap (by decide) (.refl _) (.refl _)
  have hturned : (Json.object [height, width]).Reordered (.object [width, height]) :=
    .swap (by decide) (.refl _) (.refl _)
  have hfirst : first.Alike second := by
    refine ⟨⟨by decide, trivial, ⟨⟨by decide, trivial, trivial, trivial⟩, trivial, trivial⟩, trivial⟩, ?_⟩
    exact .swap (by decide) (.refl _) (.array (.cons hsizes (.cons (.refl .null) .nil)))
  have hfilter : (filter [height, width]).Reordered (filter [width, height]) := .membership _ _ (.cons hturned .nil)
  have hstore : (store first).Alike (store second) := by
    refine ⟨fun name => ?_, rfl, rfl⟩
    simp only [Store.collection, store, Keyed.get?_cons, Keyed.get?_nil]
    split
    · exact .cons hfirst .nil
    · exact .nil
  have hmatches : (filter [height, width]).holds first = true := by decide +kernel
  obtain ⟨hholds, hcompare, hstores⟩ := key_order_is_of_no_importance
  obtain ⟨hcount, -, hfind⟩ := hstores "orders" (asked [height, width]) hstore hfilter
  obtain ⟨chosen, -, hfound, hother, hreordered⟩ := hfind rfl
  refine ⟨hmatches, (hholds hfirst hfilter).mp hmatches, ?_, ?_, ?_⟩
  · rw [← (hcompare _ .null hfirst.reordered).1]
    rfl
  · rw [← hcount]
    rfl
  · have hmatching : (store first).matching "orders" (filter [height, width]) = [first] :=
      List.filter_cons_of_pos hmatches
    have hslice : (store first).slice "orders" (asked [height, width]) = [first] := by
      rw [Store.slice, hmatching, SortKeys.sort, List.mergeSort_singleton]
      rfl
    have hone : ((store first).find "orders" (asked [height, width])).1 = .ok [first] := by
      rw [Store.find, hslice]
      rfl
    have hshown := Except.ok.inj (hfound.symm.trans hone)
    obtain ⟨pair, rfl⟩ := List.length_eq_one_iff.mp (by simpa using congrArg List.length hshown)
    have hpair : (store first).present "orders" (asked [height, width]) pair.1 = first := List.singleton_inj.mp hshown
    exact ⟨_, hother, hpair ▸ hreordered pair (List.mem_singleton_self pair)⟩

end Listing
