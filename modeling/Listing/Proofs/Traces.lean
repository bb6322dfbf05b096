import Listing.Filter.Holds
import Listing.Proofs.Candidates
import Mathlib.Data.List.Nodup
import Mathlib.Tactic.Choose

/-!
# Traces of a path

A trace follows a path through a document step by step: it takes the keys of the path in their order,
and may step into elements of arrays before each of them and once more at the end. The candidates of a
path are found by a walk that opens arrays and takes keys off the path; it finds the value of every
trace and nothing else, each once. In arrays the walk goes on with the same keys, in objects with one
key less, so the traces are found by induction on the keys and, for each of them, on the document.
-/

namespace Listing

namespace Path

/-- A step into a value. -/
inductive Access where
  /-- To the value under a key of an object. -/
  | key (name : String)
  /-- To the element at a position of an array. -/
  | index (position : Nat)
  deriving DecidableEq, Repr

/-- The value that a step leads to, if there is one. -/
def Access.target? : Access → Json → Option Json
  | .key name, value => value.field? name
  | .index position, value => value.elements[position]?

/-- The value that steps lead to one after the other, if there is one. -/
def follow? : List Access → Json → Option Json
  | [], value => some value
  | step :: rest, value => (step.target? value).bind (follow? rest)

/-- The steps of a trace along the keys of a path: the keys in their order, any number of steps into
arrays before each of them, and at most one after the last. -/
inductive IsTrace : List String → List Access → Prop where
  | stop : IsTrace [] []
  | element (position : Nat) : IsTrace [] [.index position]
  | index {key : String} {keys : List String} {trace : List Access} (position : Nat)
      (htrace : IsTrace (key :: keys) trace) : IsTrace (key :: keys) (.index position :: trace)
  | key {key : String} {keys : List String} {trace : List Access} (htrace : IsTrace keys trace) :
      IsTrace (key :: keys) (.key key :: trace)

/-- Some traces lead along keys to the values that are found there, one to each. -/
structure LeadTo (traces : List (List Access)) (keys : List String) (value : Json) (found : List Json) : Prop where
  /-- No trace is listed twice. -/
  nodup : traces.Nodup
  /-- The traces are those that lead somewhere. -/
  mem_iff (trace : List Access) : trace ∈ traces ↔ IsTrace keys trace ∧ (follow? trace value).isSome
  /-- Each leads to its own value. -/
  values : traces.map (follow? · value) = found.map some

/-- A trace into an array goes on from the element at the position. -/
theorem follow?_index (position : Nat) (trace : List Access) (value : Json) :
    follow? (.index position :: trace) value = value.elements[position]?.bind (follow? trace) := rfl

/-- A trace into an object goes on from the value under the key. -/
theorem follow?_key (name : String) (trace : List Access) (value : Json) :
    follow? (.key name :: trace) value = (value.field? name).bind (follow? trace) := rfl

/-- A trace that steps to an element at its position goes on from it. -/
theorem follow?_of_mem_zipIdx {value : Json} {element : Json × Nat} (h : element ∈ value.elements.zipIdx)
    (trace : List Access) : follow? (.index element.2 :: trace) value = follow? trace element.1 := by
  rw [follow?_index, List.mk_mem_zipIdx_iff_getElem?.mp h, Option.bind_some]

/-- The elements of an array have positions of their own. -/
theorem nodup_positions (elements : List Json) : (elements.zipIdx.map Prod.snd).Nodup := by
  rw [List.zipIdx_map_snd]
  exact List.nodup_range'

/-- Behind the last key a trace stops, or goes on to an element. -/
theorem leadTo_stop (value : Json) :
    LeadTo ([] :: value.elements.zipIdx.map fun element => [.index element.2]) [] value (value :: value.elements) := by
  have hfollow : ∀ element ∈ value.elements.zipIdx, follow? [.index element.2] value = some element.1 :=
    fun _ helement => follow?_of_mem_zipIdx helement []
  constructor
  · have hone : (value.elements.zipIdx.map fun element => [Access.index element.2]).Nodup := by
      have hinjective : Function.Injective fun position => [Access.index position] := by
        intro position other h
        exact Access.index.inj (List.singleton_injective h)
      have hmap : (value.elements.zipIdx.map fun element => [Access.index element.2]) =
          (value.elements.zipIdx.map Prod.snd).map fun position => [Access.index position] := by
        rw [List.map_map]
        rfl
      rw [hmap]
      exact (nodup_positions value.elements).map hinjective
    exact List.nodup_cons.mpr ⟨by simp, hone⟩
  · intro trace
    rw [List.mem_cons, List.mem_map]
    constructor
    · intro h
      rcases h with rfl | ⟨element, helement, rfl⟩
      · exact ⟨.stop, rfl⟩
      · exact ⟨.element _, Option.isSome_of_eq_some (hfollow element helement)⟩
    · intro h
      obtain ⟨htrace, hsome⟩ := h
      cases htrace with
      | stop => exact .inl rfl
      | element position =>
        obtain ⟨found, hfound⟩ := Option.isSome_iff_exists.mp hsome
        obtain ⟨element, helement, -⟩ := Option.bind_eq_some_iff.mp hfound
        exact .inr ⟨(element, position), List.mk_mem_zipIdx_iff_getElem?.mpr helement, rfl⟩
  · have helements : (value.elements.zipIdx.map fun element => follow? [.index element.2] value) =
        value.elements.map some := by
      calc (value.elements.zipIdx.map fun element => follow? [.index element.2] value)
          = value.elements.zipIdx.map (some ∘ Prod.fst) := List.map_congr_left hfollow
        _ = value.elements.map some := by rw [← List.map_map, List.zipIdx_map_fst]
    rw [List.map_cons, List.map_cons, List.map_map]
    exact congrArg (some value :: ·) helements

/-- In an array a trace goes on from one of the elements. -/
theorem leadTo_array {key : String} {keys : List String} {elements : List Json} (traces : Json → List (List Access))
    (h : ∀ element ∈ elements, LeadTo (traces element) (key :: keys) element (reach (key :: keys) element)) :
    LeadTo (elements.zipIdx.flatMap fun element => (traces element.1).map (.index element.2 :: ·)) (key :: keys)
      (.array elements) (reach (key :: keys) (.array elements)) := by
  have hmem : ∀ element ∈ elements.zipIdx, element.1 ∈ elements := fun element helement =>
    List.mem_of_getElem? (List.mk_mem_zipIdx_iff_getElem?.mp helement)
  constructor
  · rw [List.nodup_flatMap]
    refine ⟨fun element helement => (h _ (hmem element helement)).nodup.map List.cons_injective, ?_⟩
    -- traces into elements at different positions differ in their first step
    refine List.Pairwise.of_map Prod.snd (fun element other hne => ?_) (nodup_positions elements)
    refine List.disjoint_left.mpr fun trace htrace hother => ?_
    obtain ⟨rest, -, rfl⟩ := List.mem_map.mp htrace
    obtain ⟨rest', -, heq⟩ := List.mem_map.mp hother
    exact hne (Access.index.inj (List.cons.inj heq).1).symm
  · intro trace
    simp only [List.mem_flatMap, List.mem_map]
    constructor
    · intro hin
      obtain ⟨element, helement, rest, hrest, rfl⟩ := hin
      obtain ⟨htrace, hsome⟩ := ((h _ (hmem element helement)).mem_iff rest).mp hrest
      refine ⟨.index _ htrace, ?_⟩
      rw [follow?_of_mem_zipIdx helement]
      exact hsome
    · intro hleads
      obtain ⟨htrace, hsome⟩ := hleads
      obtain ⟨found, hfound⟩ := Option.isSome_iff_exists.mp hsome
      cases htrace with
      | @index _ _ rest position hrest =>
        obtain ⟨element, helement, hfollow⟩ := Option.bind_eq_some_iff.mp hfound
        refine ⟨(element, position), List.mk_mem_zipIdx_iff_getElem?.mpr helement, rest, ?_, rfl⟩
        exact ((h element (List.mem_of_getElem? helement)).mem_iff rest).mpr ⟨hrest, Option.isSome_of_eq_some hfollow⟩
      | key => contradiction
  · calc (elements.zipIdx.flatMap fun element => (traces element.1).map (.index element.2 :: ·)).map
          (follow? · (.array elements))
        = elements.zipIdx.flatMap fun element => (reach (key :: keys) element.1).map some := by
          rw [List.map_flatMap]
          refine List.flatMap_congr fun element helement => ?_
          rw [← (h _ (hmem element helement)).values, List.map_map]
          exact List.map_congr_left fun rest _ => follow?_of_mem_zipIdx helement rest
      _ = (reach (key :: keys) (.array elements)).map some := by
          rw [reach_array, List.map_flatMap,
            ← List.flatMap_map Prod.fst (fun element => (reach (key :: keys) element).map some), List.zipIdx_map_fst]

/-- In a value that is not opened a trace takes the key and goes on from its field. -/
theorem leadTo_key {value : Json} (hopened : opened value = [value]) (helements : value.elements = []) {key : String}
    {keys : List String} (traces : Json → List (List Access))
    (h : ∀ next, LeadTo (traces next) keys next (reach keys next)) :
    LeadTo (((value.field? key).map fun next => (traces next).map (.key key :: ·)).getD []) (key :: keys) value
      (reach (key :: keys) value) := by
  have hsteps : ∀ trace, IsTrace (key :: keys) trace ∧ (follow? trace value).isSome ↔
      ∃ next, value.field? key = some next ∧ ∃ rest ∈ traces next, .key key :: rest = trace := by
    intro trace
    constructor
    · intro hleads
      obtain ⟨htrace, hsome⟩ := hleads
      obtain ⟨found, hfound⟩ := Option.isSome_iff_exists.mp hsome
      cases htrace with
      | index =>
        rw [follow?_index, helements] at hfound
        contradiction
      | @key _ _ rest hrest =>
        obtain ⟨next, hnext, hfollow⟩ := Option.bind_eq_some_iff.mp hfound
        exact ⟨next, hnext, rest, ((h next).mem_iff rest).mpr ⟨hrest, Option.isSome_of_eq_some hfollow⟩, rfl⟩
    · intro hin
      obtain ⟨next, hnext, rest, hrest, rfl⟩ := hin
      obtain ⟨htrace, hsome⟩ := ((h next).mem_iff rest).mp hrest
      refine ⟨.key htrace, ?_⟩
      rw [follow?_key, hnext]
      exact hsome
  rw [reach_of_opened hopened]
  cases hfield : value.field? key with
  | none =>
    refine ⟨List.nodup_nil, fun trace => ?_, rfl⟩
    rw [hsteps, hfield]
    simp
  | some next =>
    refine ⟨(h next).nodup.map List.cons_injective, fun trace => ?_, ?_⟩
    · rw [hsteps, hfield]
      simp
    · rw [Option.map_some, Option.getD_some, Option.map_some, Option.getD_some, ← (h next).values, List.map_map]
      refine List.map_congr_left fun rest _ => ?_
      rw [Function.comp_apply, follow?_key, hfield]
      rfl

/-- The values that traces lead to are those that are found. -/
theorem LeadTo.mem_found_iff {traces : List (List Access)} {keys : List String} {value : Json} {found : List Json}
    (h : LeadTo traces keys value found) {inner : Json} :
    inner ∈ found ↔ ∃ trace, IsTrace keys trace ∧ follow? trace value = some inner := by
  have hmap : inner ∈ found ↔ some inner ∈ found.map some := by simp
  rw [hmap, ← h.values, List.mem_map]
  refine exists_congr fun trace => ?_
  rw [h.mem_iff]
  constructor
  · exact fun hfollow => ⟨hfollow.1.1, hfollow.2⟩
  · exact fun hfollow => ⟨⟨hfollow.1, Option.isSome_of_eq_some hfollow.2⟩, hfollow.2⟩

/-- The values that keys lead to are those of some traces, one for each. -/
theorem exists_leadTo (keys : List String) (value : Json) : ∃ traces, LeadTo traces keys value (reach keys value) := by
  induction keys generalizing value with
  | nil => exact ⟨_, leadTo_stop value⟩
  | cons key keys ih =>
    choose traces htraces using ih
    have hkey {value : Json} (hopened : opened value = [value]) (helements : value.elements = []) :
        ∃ traces, LeadTo traces (key :: keys) value (reach (key :: keys) value) :=
      ⟨_, leadTo_key hopened helements traces htraces⟩
    induction value using Json.induction with
    | null => exact hkey rfl rfl
    | bool => exact hkey rfl rfl
    | number => exact hkey rfl rfl
    | text => exact hkey rfl rfl
    | array elements ihElements =>
      choose! inner hinner using ihElements
      exact ⟨_, leadTo_array inner hinner⟩
    | object => exact hkey rfl rfl

/-! ### What a condition is tested against -/

/-- A value that a condition on a path is tested against: one that a trace leads to, or the null value where no
trace leads anywhere. -/
def Tested (document : Json) (path : String) (value : Json) : Prop :=
  (∃ trace, IsTrace (segments path) trace ∧ follow? trace document = some value) ∨
    value = .null ∧ ∀ trace, IsTrace (segments path) trace → follow? trace document = none

/-- A path with no more keys than are followed has the values that its keys lead to, or the null value. -/
theorem candidates_of_length_le {path : String} (hdepth : (segments path).length ≤ maxDepth) (document : Json) :
    candidates document path =
      if reach (segments path) document = [] then [.null] else reach (segments path) document := by
  rw [candidates, List.take_of_length_le hdepth]
  cases reach (segments path) document <;> rfl

/-- A condition on a path is tested against the values of its traces. -/
theorem mem_candidates_iff {path : String} (hdepth : (segments path).length ≤ maxDepth) {document value : Json} :
    value ∈ candidates document path ↔ Tested document path value := by
  obtain ⟨traces, htraces⟩ := exists_leadTo (segments path) document
  rw [candidates_of_length_le hdepth, Tested]
  split
  · next hempty =>
    have hnone : ∀ trace, IsTrace (segments path) trace → follow? trace document = none := by
      intro trace htrace
      refine Option.eq_none_iff_forall_ne_some.mpr fun inner hfollow => ?_
      have hfound := htraces.mem_found_iff.mpr ⟨trace, htrace, hfollow⟩
      exact List.not_mem_nil (hempty ▸ hfound)
    rw [List.mem_singleton]
    constructor
    · exact fun h => .inr ⟨h, hnone⟩
    · intro h
      rcases h with ⟨trace, htrace, hfollow⟩ | ⟨h, -⟩
      · rw [hnone trace htrace] at hfollow
        contradiction
      · exact h
  · next hfound =>
    obtain ⟨inner, hinner⟩ := List.exists_mem_of_ne_nil _ hfound
    obtain ⟨trace, htrace, hfollow⟩ := htraces.mem_found_iff.mp hinner
    rw [htraces.mem_found_iff]
    constructor
    · exact .inl
    · intro h
      rcases h with h | ⟨-, hnone⟩
      · exact h
      · rw [hnone trace htrace] at hfollow
        contradiction

end Path

namespace Filter

open Listing.Path

/-- How the conditions on a path are tested, given the values that they are tested against. A negated condition
holds when none of them satisfies the positive one. -/
structure TestsValues (path : String) (document : Json) (Tested : Json → Prop) : Prop where
  /-- An equality holds when some value is loosely equal to the operand. -/
  equals (operand : Json) : (equals path operand).holds document = true ↔
    ∃ value, Tested value ∧ value.equalsOperand operand = true
  /-- An inequality holds when no value is loosely equal to the operand. -/
  ne (operand : Json) : (compare path .ne operand).holds document = true ↔
    ¬ ∃ value, Tested value ∧ value.equalsOperand operand = true
  /-- Any other comparison holds when some value compares with the operand and agrees with it. -/
  range (op : Comparison) (hop : op ≠ .ne) (operand : Json) : (compare path op operand).holds document = true ↔
    ∃ value, Tested value ∧ ∃ order, value.compareOperand? operand = some order ∧ op.accepts order = true
  /-- A membership test holds when some value is loosely equal to one of the operands. -/
  isIn (operands : List Json) : (membership path .isIn operands).holds document = true ↔
    ∃ value, Tested value ∧ ∃ operand ∈ operands, value.equalsOperand operand = true
  /-- A negated membership test holds when no value is loosely equal to one of the operands. -/
  notIn (operands : List Json) : (membership path .notIn operands).holds document = true ↔
    ¬ ∃ value, Tested value ∧ ∃ operand ∈ operands, value.equalsOperand operand = true

/-- Conditions are tested against the candidates of their path. -/
theorem testsValues_candidates (path : String) (document : Json) :
    TestsValues path document (· ∈ candidates document path) := by
  constructor
  · intro operand
    rw [holds, someEqual, List.any_eq_true]
  · intro operand
    rw [holds, compares, someEqual, Bool.not_eq_true', ← Bool.not_eq_true, List.any_eq_true]
  · intro op hop operand
    cases op with
    | ne => exact absurd rfl hop
    | _ => simp [holds, compares, Option.any_eq_true]
  · intro operands
    simp [holds, membershipHolds]
  · intro operands
    simp [holds, membershipHolds]

/-- The conditions on a path are tested against the values of its traces, each of which is there once, or
against the null value alone when no trace leads anywhere. So an equality, a range or a membership test
holds when the value of some trace satisfies it, and a negated test when that of none does. -/
theorem conditions_test_values_of_traces {path : String} (hdepth : (segments path).length ≤ maxDepth)
    (document : Json) :
    (∃ traces : List (List Access), traces.Nodup ∧
      (∀ trace, trace ∈ traces ↔ IsTrace (segments path) trace ∧ (follow? trace document).isSome) ∧
      (traces = [] → candidates document path = [.null]) ∧
      (traces ≠ [] → (candidates document path).map some = traces.map (follow? · document))) ∧
    TestsValues path document (Tested document path) := by
  constructor
  · obtain ⟨traces, htraces⟩ := exists_leadTo (segments path) document
    have hempty : traces = [] ↔ reach (segments path) document = [] := by
      rw [← List.map_eq_nil_iff (f := (follow? · document)), htraces.values, List.map_eq_nil_iff]
    rw [candidates_of_length_le hdepth]
    refine ⟨traces, htraces.nodup, htraces.mem_iff, fun hnil => if_pos (hempty.mp hnil), fun hsome => ?_⟩
    rw [if_neg (mt hempty.mpr hsome), htraces.values]
  · have hcandidates : (· ∈ candidates document path) = Tested document path :=
      funext fun value => propext (mem_candidates_iff hdepth)
    exact hcandidates ▸ testsValues_candidates path document

/-- Among items in a nested list three traces lead to stock numbers, one of them to an element at the end. -/
theorem stock_numbers_of_nested_items :
    let sku (value : Json) : Json := .single "sku" value
    let document : Json :=
      .single "items" (.array [sku (.text "A1"), .null, .array [sku (.array [.text "B2"])]])
    (∃ traces : List (List Access), traces.Nodup ∧ traces.length = 3) ∧
      (equals "items.sku" (.text "B2")).holds document = true := by
  intro sku document
  have hdepth : (segments "items.sku").length ≤ maxDepth := by decide
  obtain ⟨⟨traces, hnodup, -, hnil, hvalues⟩, htests⟩ := conditions_test_values_of_traces hdepth document
  have htrace : IsTrace (segments "items.sku") [.key "items", .index 2, .index 0, .key "sku", .index 0] :=
    .key (.index 2 (.index 0 (.key (.element 0))))
  have hcandidates : candidates document "items.sku" = [.text "A1", .array [.text "B2"], .text "B2"] := rfl
  rw [hcandidates] at hnil hvalues
  have hlength : traces.length = 3 := by
    have h := congrArg List.length (hvalues fun h => by simpa using hnil h)
    rw [List.length_map, List.length_map] at h
    exact h.symm
  exact ⟨⟨traces, hnodup, hlength⟩, (htests.equals _).mpr ⟨.text "B2", .inl ⟨_, htrace, rfl⟩, by decide⟩⟩

end Filter

end Listing
