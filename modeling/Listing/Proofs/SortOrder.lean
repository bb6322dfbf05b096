import Listing.Sort

/-!
# The order of sorted documents

Every sort orders documents by a total preorder: values that may be missing are told apart by their
type first and then by one key for their type, a list of sort keys goes on to the next one among
ties, and a descending key turns its order around. Sorting is therefore stable sorting in the full
sense, and a list of documents has only one stable sort.
-/

namespace Listing

namespace Json

/-- The place of a value that may be missing among the types of values, a missing one first. -/
def optionRank : Option Json → Nat
  | none => 0
  | some value => value.kindRank + 1

/-- What numbers are sorted by. -/
def sortNumber : Option Json → Int
  | some (number n) => n.toDouble.totalKey
  | _ => 0

/-- What strings are sorted by. -/
def sortText : Option Json → String
  | some (text s) => s
  | _ => ""

/-- What truth values are sorted by. -/
def sortBool : Option Json → Bool
  | some (bool b) => b
  | _ => false

/-- Values that may be missing are sorted by type and then by the key of their type. -/
theorem sortOptions_eq_compareLex :
    sortOptions = compareLex (compareOn optionRank)
      (compareLex (compareOn sortNumber) (compareLex (compareOn sortText) (compareOn sortBool))) := by
  funext a b
  cases a with
  | none =>
    cases b with
    | none => rfl
    | some b => cases b <;> rfl
  | some a =>
    cases b with
    | none => cases a <;> rfl
    | some b =>
      cases a <;> cases b
      -- the keys of the other types agree on two values of one type
      case number.number m n => exact Ordering.then_eq.symm
      case text.text s t => exact Ordering.then_eq.symm
      all_goals rfl

/-- Values that may be missing are ordered by a total preorder. -/
instance : Std.TransCmp sortOptions := by
  rw [sortOptions_eq_compareLex]
  infer_instance

/-- Values that may be missing compare the other way round when they are exchanged. -/
theorem sortOptions_swap (a b : Option Json) : sortOptions a b = (sortOptions b a).swap := Std.OrientedCmp.eq_swap

/-- A value that is not after another one is not after any that the other one is not after. -/
theorem sortOptions_trans {a b c : Option Json} (hab : (sortOptions a b).isLE) (hbc : (sortOptions b c).isLE) :
    (sortOptions a c).isLE :=
  Std.TransCmp.isLE_trans hab hbc

/-- The values at a path order the documents that they are in by a total preorder. -/
instance transCmp_lookup (path : String) :
    Std.TransCmp fun a b => sortOptions (Path.lookup a path) (Path.lookup b path) where
  eq_swap := sortOptions_swap _ _
  isLE_trans := sortOptions_trans

end Json

/-- A sort key orders documents by a total preorder. -/
instance SortKey.transCmp_compare (key : SortKey) : Std.TransCmp key.compare := by
  cases hdirection : key.direction with
  | ascending =>
    have hcompare : key.compare = fun a b => Json.sortOptions (Path.lookup a key.field) (Path.lookup b key.field) := by
      funext a b
      rw [SortKey.compare, hdirection]
    rw [hcompare]
    infer_instance
  | descending =>
    have hcompare : key.compare = fun a b => Json.sortOptions (Path.lookup b key.field) (Path.lookup a key.field) := by
      funext a b
      rw [SortKey.compare, hdirection]
      exact (Json.sortOptions_swap _ _).symm
    rw [hcompare]
    exact @Std.TransCmp.opposite _ _ (Json.transCmp_lookup key.field)

namespace SortKeys

/-- A sort orders documents by a total preorder. -/
instance transCmp_compare (keys : SortKeys) : Std.TransCmp keys.compare := by
  induction keys with
  | nil => exact { eq_swap := rfl, isLE_trans := fun _ _ => rfl }
  | cons key keys ih =>
    have hcompare : compare (key :: keys) = compareLex key.compare (compare keys) := rfl
    rw [hcompare]
    infer_instance

/-- A document ties with itself. -/
@[simp] theorem compare_self (keys : SortKeys) (a : Json) : compare keys a a = .eq := Std.ReflCmp.compare_self

/-- Documents compare the other way round when they are exchanged. -/
theorem compare_swap (keys : SortKeys) (a b : Json) : compare keys a b = (compare keys b a).swap :=
  Std.OrientedCmp.eq_swap

/-- A list of documents is a stable sort of another when it has the same documents in the order of the
sort, those that the sort does not tell apart in the order in which they were given. -/
structure IsStableSort (keys : SortKeys) (given sorted : List Json) : Prop where
  /-- Every document occurs as often as before. -/
  perm : sorted.Perm given
  /-- No document comes before a smaller one. -/
  ordered : sorted.Pairwise fun a b => (compare keys a b).isLE
  /-- Documents that tie with one another keep their order. -/
  stable : ∀ a, sorted.filter (compare keys a · = .eq) = given.filter (compare keys a · = .eq)

/-- The sort of the model is stable. -/
theorem sort_isStableSort (keys : SortKeys) (documents : List Json) :
    IsStableSort keys documents (keys.sort documents) := by
  have htrans (a b c : Json) (hab : (compare keys a b).isLE) (hbc : (compare keys b c).isLE) :
      (compare keys a c).isLE :=
    Std.TransCmp.isLE_trans hab hbc
  have htotal (a b : Json) : ((compare keys a b).isLE || (compare keys b a).isLE) = true := by
    rw [compare_swap keys b a]
    cases compare keys a b <;> rfl
  have hperm : (keys.sort documents).Perm documents := List.mergeSort_perm _ _
  refine ⟨hperm, List.pairwise_mergeSort htrans htotal documents, fun a => ?_⟩
  -- documents that tie are ordered as they stand, so sorting keeps them as a sublist
  have htied : (documents.filter (compare keys a · = .eq)).Pairwise fun b c => (compare keys b c).isLE := by
    apply List.pairwise_of_forall_mem_list
    intro b hb c hc
    have hab : compare keys a b = .eq := of_decide_eq_true (List.mem_filter.mp hb).2
    have hac : compare keys a c = .eq := of_decide_eq_true (List.mem_filter.mp hc).2
    rw [← Std.TransCmp.congr_left hab, hac]
    rfl
  have hsublist := (List.sublist_mergeSort htrans htotal htied List.filter_sublist).filter (compare keys a · = .eq)
  simp only [List.filter_filter, Bool.and_self] at hsublist
  exact (hsublist.eq_of_length (hperm.filter _).length_eq.symm).symm

/-- Lists with the same ties have the same documents. -/
theorem mem_iff_of_ties {keys : SortKeys} {first second : List Json}
    (hties : ∀ a, first.filter (compare keys a · = .eq) = second.filter (compare keys a · = .eq)) (a : Json) :
    a ∈ first ↔ a ∈ second := by
  have h : a ∈ first.filter (compare keys a · = .eq) ↔ a ∈ second.filter (compare keys a · = .eq) := by
    rw [hties]
  simpa only [List.mem_filter, compare_self, decide_true, and_true] using h

/-- Two ordered lists with the same ties are the same list. -/
theorem eq_of_ordered_of_ties {keys : SortKeys} {first second : List Json}
    (hfirst : first.Pairwise fun a b => (compare keys a b).isLE)
    (hsecond : second.Pairwise fun a b => (compare keys a b).isLE)
    (hties : ∀ a, first.filter (compare keys a · = .eq) = second.filter (compare keys a · = .eq)) :
    first = second := by
  induction first generalizing second with
  | nil =>
    have hempty (a : Json) (ha : a ∈ second) : a ∈ ([] : List Json) := (mem_iff_of_ties hties a).mpr ha
    exact (List.eq_nil_iff_forall_not_mem.mpr fun a ha => List.not_mem_nil (hempty a ha)).symm
  | cons a first ih =>
    have hmem := mem_iff_of_ties hties
    cases second with
    | nil => exact absurd ((hmem a).mp List.mem_cons_self) List.not_mem_nil
    | cons b second =>
      obtain ⟨ha, hrest⟩ := List.pairwise_cons.mp hfirst
      obtain ⟨hb, hothers⟩ := List.pairwise_cons.mp hsecond
      have hle : (compare keys a b).isLE := by
        obtain rfl | hb := List.mem_cons.mp ((hmem b).mpr List.mem_cons_self)
        · rw [compare_self]
          rfl
        · exact ha b hb
      have hge : (compare keys a b).swap.isLE := by
        rw [← compare_swap]
        obtain rfl | ha := List.mem_cons.mp ((hmem a).mp List.mem_cons_self)
        · rw [compare_self]
          rfl
        · exact hb a ha
      have hab : compare keys a b = .eq := Ordering.eq_eq_of_isLE_of_isLE_swap hle hge
      -- both heads are the first of the documents that tie with them
      have hhead : a = b := by
        have h := hties a
        rw [List.filter_cons, List.filter_cons, if_pos (decide_eq_true (compare_self keys a)),
          if_pos (decide_eq_true hab)] at h
        exact (List.cons.inj h).1
      subst hhead
      have htails (c : Json) : first.filter (compare keys c · = .eq) = second.filter (compare keys c · = .eq) := by
        have h := hties c
        rw [List.filter_cons, List.filter_cons] at h
        split at h
        · exact (List.cons.inj h).2
        · exact h
      rw [ih hrest hothers htails]

/-- A list has only one stable sort. -/
theorem IsStableSort.unique {keys : SortKeys} {given first second : List Json}
    (hfirst : IsStableSort keys given first) (hsecond : IsStableSort keys given second) : first = second :=
  eq_of_ordered_of_ties hfirst.ordered hsecond.ordered fun a => (hfirst.stable a).trans (hsecond.stable a).symm

/-- A sort is a total preorder whatever its keys are: a document ties with itself, two documents compare the other
way round when they are exchanged, and a document that is not after another one is not after any that the other
one is not after. So every list of documents has one stable sort and no other. -/
theorem total_preorder_with_one_stable_sort (keys : SortKeys) :
    (∀ a, compare keys a a = .eq) ∧
    (∀ a b, compare keys b a = (compare keys a b).swap) ∧
    (∀ a b c, compare keys a b ≠ .gt → compare keys b c ≠ .gt → compare keys a c ≠ .gt) ∧
    ∀ documents sorted, IsStableSort keys documents sorted ↔ sorted = keys.sort documents := by
  refine ⟨compare_self keys, fun a b => compare_swap keys b a, fun a b c hab hbc => ?_, fun documents sorted => ?_⟩
  · have hab : (compare keys a b).isLE := Ordering.isLE_iff_ne_gt.mpr hab
    have hbc : (compare keys b c).isLE := Ordering.isLE_iff_ne_gt.mpr hbc
    exact Ordering.isLE_iff_ne_gt.mp (Std.TransCmp.isLE_trans hab hbc)
  · constructor
    · exact fun h => h.unique (sort_isStableSort keys documents)
    · rintro rfl
      exact sort_isStableSort keys documents

end SortKeys

end Listing
