import Mathlib.Data.List.Forall2

/-!
# Results that may be failures

A chain of steps succeeds exactly when every step does, and reading a list succeeds exactly when
every element can be read. Successful runs are taken apart by these equivalences.
-/

namespace Listing.Outcome

variable {ε α β : Type}

/-- Two steps succeed when the first one does and the second one does with its result. -/
theorem bind_eq_ok_iff {first : Except ε α} {next : α → Except ε β} {result : β} :
    first >>= next = .ok result ↔ ∃ value, first = .ok value ∧ next value = .ok result := by
  cases first with
  | error e => simp [bind, Except.bind]
  | ok value => simp [bind, Except.bind]

/-- A result that is only changed afterwards is there when the first one is. -/
theorem map_eq_ok_iff {first : Except ε α} {f : α → β} {result : β} :
    first.map f = .ok result ↔ ∃ value, first = .ok value ∧ f value = result := by
  cases first with
  | error e => simp [Except.map]
  | ok value => simp [Except.map]

/-- Two steps fail when the first one does or the second one does with its result. -/
theorem bind_eq_error_iff {first : Except ε α} {next : α → Except ε β} {e : ε} :
    first >>= next = .error e ↔ first = .error e ∨ ∃ value, first = .ok value ∧ next value = .error e := by
  cases first with
  | error e' => simp [bind, Except.bind]
  | ok value => simp [bind, Except.bind]

/-- A result that is only changed afterwards is missing when the first one is. -/
theorem map_eq_error_iff {first : Except ε α} {f : α → β} {e : ε} : first.map f = .error e ↔ first = .error e := by
  cases first with
  | error e' => simp [Except.map]
  | ok value => simp [Except.map]

/-- Renaming failures leaves successes alone. -/
theorem mapError_eq_ok_iff {δ : Type} {first : Except ε α} {f : ε → δ} {result : α} :
    first.mapError f = .ok result ↔ first = .ok result := by
  cases first with
  | error e => simp [Except.mapError]
  | ok value => simp [Except.mapError]

/-- A list is read when each of its elements is. -/
theorem mapM_eq_ok_iff {read : α → Except ε β} {values : List α} {results : List β} :
    values.mapM read = .ok results ↔ List.Forall₂ (fun value result => read value = .ok result) values results := by
  induction values generalizing results with
  | nil =>
    rw [List.mapM_nil, List.forall₂_nil_left_iff]
    exact ⟨fun h => (Except.ok.inj h).symm, fun h => congrArg Except.ok h.symm⟩
  | cons value values ih =>
    rw [List.mapM_cons, bind_eq_ok_iff, List.forall₂_cons_left_iff]
    constructor
    · intro h
      obtain ⟨result, hresult, h⟩ := h
      obtain ⟨rest, hrest, h⟩ := bind_eq_ok_iff.mp h
      exact ⟨result, rest, hresult, ih.mp hrest, (Except.ok.inj h).symm⟩
    · intro h
      obtain ⟨result, rest, hresult, hrest, rfl⟩ := h
      exact ⟨result, hresult, bind_eq_ok_iff.mpr ⟨rest, ih.mpr hrest, rfl⟩⟩

/-- A list in two parts is read when both parts are. -/
theorem mapM_append_eq_ok_iff {read : α → Except ε β} {values more : List α} {results : List β} :
    (values ++ more).mapM read = .ok results ↔
      ∃ first second, values.mapM read = .ok first ∧ more.mapM read = .ok second ∧ results = first ++ second := by
  rw [List.mapM_append, bind_eq_ok_iff]
  constructor
  · intro h
    obtain ⟨first, hfirst, h⟩ := h
    obtain ⟨second, hsecond, h⟩ := bind_eq_ok_iff.mp h
    exact ⟨first, second, hfirst, hsecond, (Except.ok.inj h).symm⟩
  · intro h
    obtain ⟨first, second, hfirst, hsecond, rfl⟩ := h
    exact ⟨first, hfirst, bind_eq_ok_iff.mpr ⟨second, hsecond, rfl⟩⟩

/-- Every result of a list that is read comes from one of its elements. -/
theorem exists_of_mem_results {read : α → Except ε β} {values : List α} {results : List β}
    (h : values.mapM read = .ok results) {result : β} (hresult : result ∈ results) :
    ∃ value ∈ values, read value = .ok result := by
  induction mapM_eq_ok_iff.mp h with
  | nil => exact absurd hresult List.not_mem_nil
  | cons hfirst hrest ih =>
    rcases List.mem_cons.mp hresult with rfl | hresult
    · exact ⟨_, List.mem_cons_self, hfirst⟩
    · obtain ⟨value, hvalue, hread⟩ := ih (mapM_eq_ok_iff.mpr hrest) hresult
      exact ⟨value, List.mem_cons_of_mem _ hvalue, hread⟩

/-- Every element of a list that is read has one of the results. -/
theorem exists_of_mem_values {read : α → Except ε β} {values : List α} {results : List β}
    (h : values.mapM read = .ok results) {value : α} (hvalue : value ∈ values) :
    ∃ result ∈ results, read value = .ok result := by
  induction mapM_eq_ok_iff.mp h with
  | nil => exact absurd hvalue List.not_mem_nil
  | cons hfirst hrest ih =>
    rcases List.mem_cons.mp hvalue with rfl | hvalue
    · exact ⟨_, List.mem_cons_self, hfirst⟩
    · obtain ⟨result, hresult, hread⟩ := ih (mapM_eq_ok_iff.mpr hrest) hvalue
      exact ⟨result, List.mem_cons_of_mem _ hresult, hread⟩

/-- A list is not read because of the first element that is not. -/
theorem mapM_eq_error_iff {read : α → Except ε β} {values : List α} {e : ε} :
    values.mapM read = .error e ↔
      ∃ before value after, values = before ++ value :: after ∧ (∀ other ∈ before, ∃ result, read other = .ok result) ∧
        read value = .error e := by
  constructor
  · intro h
    induction values with
    | nil => contradiction
    | cons value values ih =>
      rw [List.mapM_cons, bind_eq_error_iff] at h
      rcases h with h | ⟨result, hresult, h⟩
      · exact ⟨[], value, values, rfl, by simp, h⟩
      · rcases bind_eq_error_iff.mp h with h | ⟨results, -, h⟩
        · obtain ⟨before, bad, after, rfl, hbefore, hbad⟩ := ih h
          exact ⟨value :: before, bad, after, rfl, List.forall_mem_cons.mpr ⟨⟨result, hresult⟩, hbefore⟩, hbad⟩
        · contradiction
  · rintro ⟨before, value, after, rfl, hbefore, hvalue⟩
    induction before with
    | nil =>
      rw [List.nil_append, List.mapM_cons, hvalue]
      rfl
    | cons first before ih =>
      obtain ⟨⟨result, hresult⟩, hbefore⟩ := List.forall_mem_cons.mp hbefore
      rw [List.cons_append, List.mapM_cons]
      exact bind_eq_error_iff.mpr (.inr ⟨result, hresult, bind_eq_error_iff.mpr (.inl (ih hbefore))⟩)

/-- A list that is not read has an element that is not. -/
theorem exists_of_mapM_eq_error {read : α → Except ε β} {values : List α} {e : ε}
    (h : values.mapM read = .error e) : ∃ value ∈ values, read value = .error e := by
  obtain ⟨before, value, after, rfl, -, hvalue⟩ := mapM_eq_error_iff.mp h
  exact ⟨value, List.mem_append_right _ List.mem_cons_self, hvalue⟩

/-- A list is read if each of its elements can be. -/
theorem exists_mapM_eq_ok {read : α → Except ε β} {values : List α}
    (h : ∀ value ∈ values, ∃ result, read value = .ok result) : ∃ results, values.mapM read = .ok results := by
  cases hread : values.mapM read with
  | ok results => exact ⟨results, rfl⟩
  | error e =>
    obtain ⟨value, hvalue, herror⟩ := exists_of_mapM_eq_error hread
    obtain ⟨result, hresult⟩ := h value hvalue
    rw [hresult] at herror
    contradiction

end Listing.Outcome
