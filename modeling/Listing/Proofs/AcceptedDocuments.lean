import Listing.Proofs.Compilation
import Listing.Proofs.ReadValues

/-!
# Accepted filter documents

The clauses of an accepted filter document follow from a few rules: one for a combination, one for a
condition on a field, and one for each operator in such a condition. A document is accepted exactly
when the rules read it, so what holds of all accepted documents goes by induction over the rules.
-/

namespace Listing

/-- A comparison is named by its own operator only. -/
theorem Comparison.ofOperator?_eq_some_iff {operator : String} {op : Comparison} :
    Comparison.ofOperator? operator = some op ↔ operator = op.operator := by
  constructor
  · intro h
    rw [Comparison.ofOperator?] at h
    grind [Comparison.operator]
  · rintro rfl
    exact Comparison.ofOperator?_operator op

namespace Override

/-- The filter that an operator and its operand put on a field, for the operators that are accepted. -/
inductive Tests (field : String) : String → Json → Filter → Prop where
  | eq {operand : Json} (hscalar : operand.isScalar = true) : Tests field "$eq" operand (.equals field operand)
  | compare (op : Comparison) {operand : Json} (hscalar : operand.isScalar = true) :
      Tests field op.operator operand (.compare field op operand)
  | membership (kind : Membership) {operands : List Json}
      (hscalars : ∀ operand ∈ operands, operand.isScalar = true) :
      Tests field kind.operator (.array operands) (.membership field kind operands)

/-- The filter that an accepted condition puts on a field: an equality with a scalar, or the
conjunction of at least one operator. -/
inductive ReadsField (field : String) : Json → Filter → Prop where
  | scalar {operand : Json} (hscalar : operand.isScalar = true) : ReadsField field operand (.equals field operand)
  | operators {operators : List (String × Json)} {filters : List Filter} (hsome : operators ≠ [])
      (htests : List.Forall₂ (fun entry filter => Tests field entry.1 entry.2 filter) operators filters) :
      ReadsField field (.object operators) (Filter.conjoin filters)

/-- The combinations with their operators. -/
inductive Combines : String → (List Filter → Filter) → Prop where
  | all : Combines "$and" .all
  | any : Combines "$or" .any

/-- The filter of a document inside a combination. -/
def partFilter (clauses : List Clause) : Filter := Filter.conjoin (clauses.map Prod.snd)

/-- The clauses of an accepted document, entry by entry, given how many combinations are around it. -/
inductive Reads : Nat → List (String × Json) → List Clause → Prop where
  | nil (nesting : Nat) : Reads nesting [] []
  | combination {nesting : Nat} {operator : String} {combine : List Filter → Filter}
      {parts : List (List (String × Json) × List Clause)} {rest : List (String × Json)} {others : List Clause}
      (hcombine : Combines operator combine) (hsome : parts ≠ []) (hnesting : nesting < maxNesting)
      (hparts : ∀ part ∈ parts, Reads (nesting + 1) part.1 part.2) (hrest : Reads nesting rest others) :
      Reads nesting ((operator, .array (parts.map fun part => .object part.1)) :: rest)
        ((operator, combine (parts.map fun part => partFilter part.2)) :: others)
  | field {nesting : Nat} {field : String} {condition : Json} {filter : Filter} {rest : List (String × Json)}
      {others : List Clause} (hname : field ≠ "") (hoperator : Path.isOperator field = false)
      (hfield : ReadsField field condition filter) (hrest : Reads nesting rest others) :
      Reads nesting ((field, condition) :: rest) ((field, filter) :: others)

/-- An operand is taken as a scalar when it is one. -/
theorem scalarOperand_eq_ok_iff {field operator : String} {operand result : Json} :
    scalarOperand field operator operand = .ok result ↔ operand.isScalar = true ∧ operand = result := by
  rw [scalarOperand]
  split
  · next h => simp [h]
  · next h => simp [h]

/-- The operands of a list are taken when all of them are scalars, and as they are. -/
theorem mapM_scalarOperand_eq_ok_iff {field operator : String} {operands results : List Json} :
    operands.mapM (scalarOperand field operator) = .ok results ↔
      (∀ operand ∈ operands, operand.isScalar = true) ∧ operands = results := by
  simp only [Outcome.mapM_eq_ok_iff, scalarOperand_eq_ok_iff]
  constructor
  · intro h
    induction h with
    | nil => exact ⟨fun _ h => absurd h List.not_mem_nil, rfl⟩
    | cons hfirst _ ih => exact ⟨List.forall_mem_cons.mpr ⟨hfirst.1, ih.1⟩, by rw [hfirst.2, ih.2]⟩
  · intro h
    obtain ⟨hscalars, rfl⟩ := h
    exact List.forall₂_same.mpr fun operand hoperand => ⟨hscalars operand hoperand, rfl⟩

/-- An operator is accepted with the operands that go with it. -/
theorem condition_eq_ok_iff {field operator : String} {operand : Json} {filter : Filter} :
    condition field operator operand = .ok filter ↔ Tests field operator operand filter := by
  constructor
  · intro h
    rw [condition.eq_def] at h
    split at h
    · next heq =>
      obtain ⟨result, htaken, rfl⟩ := Outcome.map_eq_ok_iff.mp h
      obtain ⟨hscalar, rfl⟩ := scalarOperand_eq_ok_iff.mp htaken
      exact heq ▸ .eq hscalar
    · split at h
      · next hmember =>
        split at h
        · next operands =>
          obtain ⟨results, htaken, rfl⟩ := Outcome.map_eq_ok_iff.mp h
          obtain ⟨hscalars, rfl⟩ := mapM_scalarOperand_eq_ok_iff.mp htaken
          rcases hmember with rfl | rfl
          · exact .membership .isIn hscalars
          · exact .membership .notIn hscalars
        · contradiction
      · split at h
        · next op hop =>
          obtain ⟨result, htaken, rfl⟩ := Outcome.map_eq_ok_iff.mp h
          obtain ⟨hscalar, rfl⟩ := scalarOperand_eq_ok_iff.mp htaken
          exact Comparison.ofOperator?_eq_some_iff.mp hop ▸ .compare op hscalar
        · contradiction
  · intro h
    cases h with
    | eq hscalar =>
      rw [condition.eq_def, if_pos rfl]
      exact Outcome.map_eq_ok_iff.mpr ⟨_, scalarOperand_eq_ok_iff.mpr ⟨hscalar, rfl⟩, rfl⟩
    | compare op hscalar =>
      have heq : op.operator ≠ "$eq" := by cases op <;> decide
      have hmember : ¬ (op.operator = "$in" ∨ op.operator = "$nin") := by cases op <;> decide
      rw [condition.eq_def, if_neg heq, if_neg hmember, Comparison.ofOperator?_operator]
      exact Outcome.map_eq_ok_iff.mpr ⟨_, scalarOperand_eq_ok_iff.mpr ⟨hscalar, rfl⟩, rfl⟩
    | membership kind hscalars =>
      have heq : kind.operator ≠ "$eq" := by cases kind <;> decide
      have hmember : kind.operator = "$in" ∨ kind.operator = "$nin" := by cases kind <;> decide
      rw [condition.eq_def, if_neg heq, if_pos hmember]
      refine Outcome.map_eq_ok_iff.mpr ⟨_, mapM_scalarOperand_eq_ok_iff.mpr ⟨hscalars, rfl⟩, ?_⟩
      cases kind <;> rfl

/-- An accepted operator is written like one. -/
theorem Tests.isOperator {field operator : String} {operand : Json} {filter : Filter}
    (h : Tests field operator operand filter) : Path.isOperator operator = true := by
  cases h with
  | eq => decide
  | compare op => cases op <;> decide
  | membership kind => cases kind <;> decide

/-- An operator that combines documents is written like one. -/
theorem Combines.isOperator {operator : String} {combine : List Filter → Filter} (h : Combines operator combine) :
    Path.isOperator operator = true := by
  cases h <;> decide

/-- Operators are read one by one. -/
theorem mapM_condition_eq_ok_iff {field : String} {operators : List (String × Json)} {filters : List Filter} :
    (operators.mapM fun entry => condition field entry.1 entry.2) = .ok filters ↔
      List.Forall₂ (fun entry filter => Tests field entry.1 entry.2 filter) operators filters := by
  simp only [Outcome.mapM_eq_ok_iff, condition_eq_ok_iff]

/-- A condition on a field is accepted when it is a scalar or a list of accepted operators. -/
theorem fieldCondition_eq_ok_iff {field : String} {value : Json} {filter : Filter} :
    fieldCondition field value = .ok filter ↔ ReadsField field value filter := by
  constructor
  · intro h
    rw [fieldCondition.eq_def] at h
    split at h
    · next operators =>
      split at h
      · contradiction
      · next haccepted =>
        obtain ⟨filters, hfilters, rfl⟩ := Outcome.map_eq_ok_iff.mp h
        have hsome : operators ≠ [] := fun hnil => haccepted (.inl (List.isEmpty_iff.mpr hnil))
        exact .operators hsome (mapM_condition_eq_ok_iff.mp hfilters)
    · contradiction
    · next hobject harray =>
      obtain rfl := Except.ok.inj h
      refine .scalar ?_
      cases value with
      | array elements => exact absurd rfl (harray elements)
      | object fields => exact absurd rfl (hobject fields)
      | _ => rfl
  · intro h
    cases h with
    | scalar hscalar =>
      cases value with
      | array elements => contradiction
      | object fields => contradiction
      | _ => rfl
    | @operators operators filters hsome htests =>
      have hall : operators.all (fun entry => Path.isOperator entry.1) = true := by
        rw [List.all_eq_true]
        exact ((List.forall₂_and_left operators filters).mp
          (htests.imp fun _ _ htest => ⟨htest.isOperator, htest⟩)).1
      rw [fieldCondition, if_neg (by simp [hsome, hall])]
      exact Outcome.map_eq_ok_iff.mpr ⟨filters, mapM_condition_eq_ok_iff.mpr htests, rfl⟩

/-- An entry is accepted as a condition when its key is no operator and its value an accepted condition. -/
theorem leaf_eq_ok_iff {key : String} {value : Json} {filter : Filter} :
    leaf key value = .ok filter ↔
      key ≠ "" ∧ Path.isOperator key = false ∧ ReadsField key value filter := by
  rw [leaf, ← fieldCondition_eq_ok_iff]
  split
  · next hempty => simp [hempty]
  · next hname =>
    split
    · next hoperator => simp [hoperator]
    · next hoperator => simp [hname, hoperator]

/-- A document inside a combination is accepted when one more combination may stand around it. -/
theorem part_eq_ok_iff {nesting : Nat} {operator : String} {document : Json} {filter : Filter} :
    part nesting operator document = .ok filter ↔
      ∃ fields found, document = .object fields ∧ nesting < maxNesting ∧
        clauses (nesting + 1) fields = .ok found ∧ filter = partFilter found := by
  cases document with
  | object fields =>
    rw [part]
    split
    · next hdeep => simp; omega
    · next hnesting =>
      rw [Outcome.map_eq_ok_iff]
      constructor
      · intro h
        obtain ⟨found, hfound, rfl⟩ := h
        exact ⟨fields, found, rfl, Nat.not_lt.mp hnesting, hfound, rfl⟩
      · intro h
        obtain ⟨fields', found, hfields, -, hfound, rfl⟩ := h
        obtain rfl := Json.object.inj hfields
        exact ⟨found, hfound, rfl⟩
  | _ => simp [part]

/-- Documents inside a combination are read one by one, each into clauses of its own. -/
theorem partList_eq_ok_iff {nesting : Nat} {operator : String} {documents : List Json} {filters : List Filter} :
    partList nesting operator documents = .ok filters ↔
      ∃ found : List (List (String × Json) × List Clause),
        (∀ part ∈ found, nesting < maxNesting ∧ clauses (nesting + 1) part.1 = .ok part.2) ∧
        documents = (found.map fun part => .object part.1) ∧ filters = found.map fun part => partFilter part.2 := by
  constructor
  · intro h
    induction documents generalizing filters with
    | nil =>
      rw [partList] at h
      exact ⟨[], by simp, rfl, (Except.ok.inj h).symm⟩
    | cons document documents ih =>
      rw [partList] at h
      obtain ⟨filter, hfilter, h⟩ := Outcome.bind_eq_ok_iff.mp h
      obtain ⟨others, hothers, h⟩ := Outcome.bind_eq_ok_iff.mp h
      obtain rfl := Except.ok.inj h
      obtain ⟨fields, first, rfl, hnesting, hfirst, rfl⟩ := part_eq_ok_iff.mp hfilter
      obtain ⟨found, hfound, rfl, rfl⟩ := ih hothers
      exact ⟨(fields, first) :: found, List.forall_mem_cons.mpr ⟨⟨hnesting, hfirst⟩, hfound⟩, rfl, rfl⟩
  · intro h
    obtain ⟨found, hfound, rfl, rfl⟩ := h
    induction found with
    | nil => rfl
    | cons first found ih =>
      obtain ⟨⟨hnesting, hfirst⟩, hfound⟩ := List.forall_mem_cons.mp hfound
      have hpart : part nesting operator (.object first.1) = .ok (partFilter first.2) :=
        part_eq_ok_iff.mpr ⟨first.1, first.2, rfl, hnesting, hfirst, rfl⟩
      rw [List.map_cons, partList, hpart, ih hfound]
      rfl

/-- A combination is accepted when it is a list of at least one accepted object. -/
theorem parts_eq_ok_iff {nesting : Nat} {operator : String} {value : Json} {filters : List Filter} :
    parts nesting operator value = .ok filters ↔
      ∃ found : List (List (String × Json) × List Clause), found ≠ [] ∧
        (∀ part ∈ found, nesting < maxNesting ∧ clauses (nesting + 1) part.1 = .ok part.2) ∧
        value = .array (found.map fun part => .object part.1) ∧ filters = found.map fun part => partFilter part.2 := by
  constructor
  · intro h
    cases value with
    | array documents =>
      rw [parts] at h
      split at h
      · contradiction
      · next hsome =>
        obtain ⟨found, hfound, rfl, rfl⟩ := partList_eq_ok_iff.mp h
        exact ⟨found, by simpa using hsome, hfound, rfl, rfl⟩
    | _ => contradiction
  · intro h
    obtain ⟨found, hsome, hfound, rfl, rfl⟩ := h
    rw [parts, if_neg (by simpa using hsome)]
    exact partList_eq_ok_iff.mpr ⟨found, hfound, rfl, rfl⟩

/-- An entry is accepted as a combination or as a condition on a field. -/
theorem entryFilter_eq_ok_iff {nesting : Nat} {key : String} {value : Json} {filter : Filter} :
    entryFilter nesting key value = .ok filter ↔
      (∃ combine filters, Combines key combine ∧ parts nesting key value = .ok filters ∧ filter = combine filters) ∨
        leaf key value = .ok filter := by
  rw [entryFilter]
  constructor
  · intro h
    split at h
    · next heq =>
      obtain ⟨filters, hfilters, rfl⟩ := Outcome.map_eq_ok_iff.mp h
      exact .inl ⟨.all, filters, heq ▸ .all, hfilters, rfl⟩
    · split at h
      · next heq =>
        obtain ⟨filters, hfilters, rfl⟩ := Outcome.map_eq_ok_iff.mp h
        exact .inl ⟨.any, filters, heq ▸ .any, hfilters, rfl⟩
      · exact .inr h
  · intro h
    rcases h with ⟨combine, filters, hcombine, hfilters, rfl⟩ | hleaf
    · cases hcombine with
      | all => exact Outcome.map_eq_ok_iff.mpr ⟨filters, hfilters, rfl⟩
      | any => exact Outcome.map_eq_ok_iff.mpr ⟨filters, hfilters, rfl⟩
    · have hoperator := (leaf_eq_ok_iff.mp hleaf).2.1
      have hand : key ≠ "$and" := fun heq => absurd (heq ▸ hoperator) (by decide)
      have hor : key ≠ "$or" := fun heq => absurd (heq ▸ hoperator) (by decide)
      rw [if_neg hand, if_neg hor, hleaf]

/-- The clauses of an accepted document are read by the rules. -/
theorem reads_of_clauses (nesting : Nat) (fields : List (String × Json)) {found : List Clause}
    (h : clauses nesting fields = .ok found) : Reads nesting fields found := by
  match fields with
  | [] =>
    rw [clauses] at h
    exact Except.ok.inj h ▸ .nil nesting
  | (key, value) :: rest =>
    rw [clauses_cons] at h
    obtain ⟨filter, hfilter, h⟩ := Outcome.bind_eq_ok_iff.mp h
    obtain ⟨others, hothers, h⟩ := Outcome.bind_eq_ok_iff.mp h
    obtain rfl := Except.ok.inj h
    have hrest : Reads nesting rest others := reads_of_clauses nesting rest hothers
    rcases entryFilter_eq_ok_iff.mp hfilter with ⟨combine, filters, hcombine, hfilters, rfl⟩ | hleaf
    · obtain ⟨parts, hsome, hparts, hvalue, rfl⟩ := parts_eq_ok_iff.mp hfilters
      obtain ⟨first, hfirst⟩ := List.exists_mem_of_ne_nil parts hsome
      rw [hvalue]
      exact .combination hcombine hsome (hparts first hfirst).1
        (fun part hpart => reads_of_clauses (nesting + 1) part.1 (hparts part hpart).2) hrest
    · obtain ⟨hname, hoperator, hfield⟩ := leaf_eq_ok_iff.mp hleaf
      exact .field hname hoperator hfield hrest
termination_by sizeOf fields
decreasing_by
  · rw [List.cons.sizeOf_spec]
    omega
  · have hlt := List.sizeOf_lt_of_mem (List.mem_map_of_mem (f := fun part => Json.object part.1) hpart)
    simp only [hvalue, List.cons.sizeOf_spec, Prod.mk.sizeOf_spec, Json.array.sizeOf_spec,
      Json.object.sizeOf_spec] at hlt ⊢
    omega

/-- A document is accepted exactly when its clauses are read by the rules. -/
theorem clauses_eq_ok_iff {nesting : Nat} {fields : List (String × Json)} {found : List Clause} :
    clauses nesting fields = .ok found ↔ Reads nesting fields found := by
  constructor
  · exact reads_of_clauses nesting fields
  · intro h
    induction h with
    | nil => rw [clauses]
    | @combination nesting operator combine parts rest others hcombine hsome hnesting _ _ hparts hrest =>
      have hentry : entryFilter nesting operator (.array (parts.map fun part => .object part.1)) =
          .ok (combine (parts.map fun part => partFilter part.2)) :=
        entryFilter_eq_ok_iff.mpr
          (.inl ⟨combine, _, hcombine,
            parts_eq_ok_iff.mpr ⟨parts, hsome, fun part hpart => ⟨hnesting, hparts part hpart⟩, rfl, rfl⟩, rfl⟩)
      rw [clauses_cons, hentry, hrest]
      rfl
    | @field nesting field condition filter rest others hname hoperator hfield _ hrest =>
      have hentry : entryFilter nesting field condition = .ok filter :=
        entryFilter_eq_ok_iff.mpr (.inr (leaf_eq_ok_iff.mpr ⟨hname, hoperator, hfield⟩))
      rw [clauses_cons, hentry, hrest]
      rfl

/-- An accepted text is an object with distinct keys, whose clauses are read by the rules. -/
theorem parse_eq_ok {text : String} {clauses : List Clause} (h : parse text = .ok clauses) :
    ∃ fields, Json.parse text = .ok (.object fields) ∧ (Keyed.keys fields).Nodup ∧
      Keyed.keys clauses = Keyed.keys fields ∧ Reads 0 fields clauses := by
  obtain ⟨document, hread, hclauses⟩ := Outcome.bind_eq_ok_iff.mp h
  have hread := Outcome.mapError_eq_ok_iff.mp hread
  cases document with
  | object fields =>
    have hformed : (Json.object fields).WellFormed := Json.wellFormed_of_parse hread
    exact ⟨fields, hread, hformed.1, keys_ofJson hclauses, reads_of_clauses 0 fields hclauses⟩
  | _ => contradiction

end Override

end Listing
