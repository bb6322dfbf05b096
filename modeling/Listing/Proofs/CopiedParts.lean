import Listing.Proofs.PresentedDocuments

/-!
# What a projection copies

A projection writes the requested paths of a document one after the other into a growing object. What stands
there in the end does not depend on how it grew: under every key there is the whole value of the document if the
key itself was requested, else an object with what was requested inside of it, if any of that leads to something.
So the result is a part of the document, no later path takes away what an earlier one has written, and the order
of the paths is seen in the order of the keys only.
-/

namespace Listing

open Listing.Path

namespace Json

/-- A value is a part of another one when the objects in it may lack some of the entries, at any depth, and
everything else is equal. -/
inductive PartOf : Json → Json → Prop where
  | refl (value : Json) : PartOf value value
  | object {part whole : Keyed Json}
      (h : ∀ key ∈ Keyed.keys part, Option.Rel PartOf (Keyed.get? part key) (Keyed.get? whole key)) :
      PartOf (.object part) (.object whole)

/-- Under each of its keys a part has a part of what the whole has there. -/
theorem PartOf.exists_get? {part whole : Keyed Json} (h : (Json.object part).PartOf (.object whole)) {key : String}
    {value : Json} (hget : Keyed.get? part key = some value) :
    ∃ inner, Keyed.get? whole key = some inner ∧ value.PartOf inner := by
  cases h with
  | refl => exact ⟨value, hget, .refl value⟩
  | object h =>
    have hrel := h key (List.mem_map_of_mem (Keyed.mem_of_get? hget))
    rw [hget] at hrel
    generalize Keyed.get? whole key = found at hrel
    cases hrel with
    | some hrel => exact ⟨_, rfl, hrel⟩

/-- Two values are equal up to the order of the keys inside objects, at any depth. -/
inductive Reordered : Json → Json → Prop where
  | refl (value : Json) : Reordered value value
  | array {elements others : List Json} (h : List.Forall₂ Reordered elements others) :
      Reordered (.array elements) (.array others)
  | object {fields others : Keyed Json} (hkeys : (Keyed.keys fields).Perm (Keyed.keys others))
      (hvalues : ∀ key, Option.Rel Reordered (Keyed.get? fields key) (Keyed.get? others key)) :
      Reordered (.object fields) (.object others)

/-- Optional values are related when none is there or related ones are. -/
theorem rel_iff {relation : Json → Json → Prop} {value other : Option Json} :
    Option.Rel relation value other ↔
      value = none ∧ other = none ∨ ∃ inner otherInner, value = some inner ∧ other = some otherInner ∧
        relation inner otherInner := by
  constructor
  · intro h
    cases h with
    | none => exact .inl ⟨rfl, rfl⟩
    | some h => exact .inr ⟨_, _, rfl, rfl, h⟩
  · rintro (⟨rfl, rfl⟩ | ⟨inner, otherInner, rfl, rfl, h⟩)
    · exact .none
    · exact .some h

section

variable {relation next : Json → Json → Prop} {value other : Option Json}

/-- Every optional value is related to itself when all values are. -/
theorem rel_refl (h : ∀ value, relation value value) (value : Option Json) : Option.Rel relation value value := by
  cases value with
  | none => exact .none
  | some value => exact .some (h value)

/-- Related optional values are related in another way when those that are there are. -/
theorem rel_imp (h : Option.Rel relation value other)
    (hnext : ∀ inner otherInner, value = some inner → relation inner otherInner → next inner otherInner) :
    Option.Rel next value other := by
  cases h with
  | none => exact .none
  | some h => exact .some (hnext _ _ rfl h)

/-- What related optional values lead to is related when it is for those that are there. -/
theorem rel_bind (h : Option.Rel relation value other) {step otherStep : Json → Option Json}
    (hstep : ∀ inner otherInner, value = some inner → relation inner otherInner →
      Option.Rel next (step inner) (otherStep otherInner)) :
    Option.Rel next (value.bind step) (other.bind otherStep) := by
  cases h with
  | none => exact .none
  | some h => exact hstep _ _ rfl h

end

/-- Values that are equal up to the order of keys have such values in their fields. -/
theorem Reordered.field? {value other : Json} (h : value.Reordered other) (key : String) :
    Option.Rel Reordered (value.field? key) (other.field? key) := by
  cases h with
  | refl => exact rel_refl .refl _
  | array _ => exact .none
  | object _ hvalues => exact hvalues key

/-- Keys lead on to such values. -/
theorem Reordered.descend {value other : Json} (h : value.Reordered other) (keys : List String) :
    Option.Rel Reordered (Path.descend value keys) (Path.descend other keys) := by
  induction keys generalizing value other with
  | nil => exact .some h
  | cons key keys ih => exact rel_bind (h.field? key) fun _ _ _ hinner => ih hinner

/-- Induction over a value, with the induction hypothesis for the values of its fields. -/
theorem induction_field {motive : Json → Prop}
    (h : ∀ value : Json, (∀ key inner, value.field? key = some inner → motive inner) → motive value) (value : Json) :
    motive value := by
  induction value using Json.induction with
  | object fields ih => exact h _ fun key inner hfield => ih (key, inner) (Keyed.mem_of_get? hfield)
  | _ => exact h _ fun _ _ hfield => absurd hfield (Option.some_ne_none _).symm

end Json

namespace Projection

/-- Copy the value at the end of some keys of a document, if there is one. -/
def copy (document : Json) (fields : Keyed Json) (keys : List String) : Keyed Json :=
  match descend document keys with
  | some value => insertAt fields keys value
  | none => fields

/-- Copy what several keys lead to. -/
def copyAll (document : Json) (requests : List (List String)) : Keyed Json := requests.foldl (copy document) []

/-- What is requested inside a field: the rest of the keys that begin with it. -/
def within (key : String) (requests : List (List String)) : List (List String) :=
  requests.filterMap fun
    | [] => none
    | first :: rest => if first = key then some rest else none

/-- What is kept of a value: all of it if it is requested itself, else an object with what is requested inside,
if any of that leads to something. -/
def kept (value : Json) (requests : List (List String)) : Option Json :=
  if [] ∈ requests then some value
  else if ∃ keys ∈ requests, (descend value keys).isSome then some (.object (copyAll value requests))
  else none

/-- The keys of the rest are requested inside a field. -/
theorem mem_within {key : String} {requests : List (List String)} {rest : List String} :
    rest ∈ within key requests ↔ key :: rest ∈ requests := by
  simp only [within, List.mem_filterMap]
  constructor
  · rintro ⟨keys, hkeys, hrest⟩
    cases keys with
    | nil => contradiction
    | cons first keys =>
      simp only [Option.ite_none_right_eq_some, Option.some.injEq] at hrest
      obtain ⟨rfl, rfl⟩ := hrest
      exact hkeys
  · intro h
    exact ⟨key :: rest, h, if_pos rfl⟩

/-- A further request with the key is a further request inside the field, and any other is not. -/
theorem within_append_singleton (key : String) (requests : List (List String)) (first : String) (rest : List String) :
    within key (requests ++ [first :: rest]) =
      if first = key then within key requests ++ [rest] else within key requests := by
  rw [within, List.filterMap_append, ← within]
  split
  · next heq => simp [heq]
  · next heq => simp [heq]

/-- The last request is copied after the others. -/
theorem copyAll_append_singleton (document : Json) (requests : List (List String)) (keys : List String) :
    copyAll document (requests ++ [keys]) = copy document (copyAll document requests) keys := by
  simp [copyAll]

/-- Nothing is copied when no request leads to anything. -/
theorem copyAll_eq_nil {document : Json} {requests : List (List String)}
    (h : ¬ ∃ keys ∈ requests, (descend document keys).isSome) : copyAll document requests = [] := by
  induction requests using List.reverseRecOn with
  | nil => rfl
  | append_singleton requests keys ih =>
    have hnone : descend document keys = none := by
      rw [← Option.not_isSome_iff_eq_none]
      exact fun hsome => h ⟨keys, by simp, hsome⟩
    rw [copyAll_append_singleton, copy, hnone]
    exact ih fun ⟨others, hothers, hsome⟩ => h ⟨others, List.mem_append_left _ hothers, hsome⟩

/-! ### What stands under a key -/

/-- What stands under a key after one more request inside the field, given what stood there before. -/
def keptWith (inner : Json) (written : Option Json) (rest : List String) : Option Json :=
  match descend inner rest with
  | none => written
  | some value =>
    some (if rest = [] then value else .object (insertAt ((written.map Json.fields).getD []) rest value))

/-- One more request writes this under its first key. -/
theorem get?_copy {document inner : Json} {key : String} (hfield : document.field? key = some inner)
    (fields : Keyed Json) (rest : List String) :
    Keyed.get? (copy document fields (key :: rest)) key = keptWith inner (Keyed.get? fields key) rest := by
  have hdescend : descend document (key :: rest) = descend inner rest := by
    rw [descend, hfield, Option.bind_some]
  rw [copy, keptWith, hdescend]
  cases descend inner rest with
  | none => rfl
  | some value => cases rest <;> simp [insertAt, Keyed.get?_insert]

/-- A request of something inside is written into an object. -/
theorem keptWith_of_ne_nil {inner value : Json} {rest : List String} (hdescend : descend inner rest = some value)
    (hrest : rest ≠ []) (written : Option Json) :
    keptWith inner written rest = some (.object (insertAt ((written.map Json.fields).getD []) rest value)) := by
  simp [keptWith, hdescend, hrest]

/-- One more request keeps this of a value. -/
theorem kept_append_singleton (inner : Json) (requests : List (List String)) (rest : List String) :
    kept inner (requests ++ [rest]) = keptWith inner (kept inner requests) rest := by
  cases hdescend : descend inner rest with
  | none =>
    have hrest : rest ≠ [] := fun heq => by simp [heq, descend] at hdescend
    simp [kept, keptWith, hrest, or_and_right, exists_or, hdescend, copyAll_append_singleton, copy]
  | some value =>
    by_cases hrest : rest = []
    · obtain rfl : inner = value := by simpa [hrest, descend] using hdescend
      simp [kept, keptWith, hrest, descend]
    · have hsome : ∃ keys ∈ requests ++ [rest], (descend inner keys).isSome := ⟨rest, by simp, by simp [hdescend]⟩
      rw [keptWith_of_ne_nil hdescend hrest]
      by_cases hwhole : [] ∈ requests
      · -- the whole value has the one that is written at its place already
        obtain ⟨key, keys, rfl⟩ := List.exists_cons_of_ne_nil hrest
        rw [kept, if_pos (List.mem_append_left _ hwhole), kept, if_pos hwhole, Option.map_some, Option.getD_some,
          insertAt_of_descend hdescend, ← eq_object_of_descend_cons hdescend]
      · have hwritten : ((kept inner requests).map Json.fields).getD [] = copyAll inner requests := by
          rw [kept, if_neg hwhole]
          split
          · rfl
          · next hnone => exact (copyAll_eq_nil hnone).symm
        rw [hwritten, kept, if_neg (by simp [hwhole, Ne.symm hrest]), if_pos hsome, copyAll_append_singleton, copy,
          hdescend]

/-- Under a key stands what is kept of the field. -/
theorem get?_copyAll (document : Json) (requests : List (List String)) (key : String) :
    Keyed.get? (copyAll document requests) key =
      (document.field? key).bind fun inner => kept inner (within key requests) := by
  induction requests using List.reverseRecOn with
  | nil => cases document.field? key <;> rfl
  | append_singleton requests keys ih =>
    rw [copyAll_append_singleton]
    cases keys with
    | nil =>
      have hwithin : within key (requests ++ [[]]) = within key requests := by simp [within]
      rw [hwithin, ← ih]
      rfl
    | cons first rest =>
      rw [within_append_singleton]
      by_cases heq : first = key
      · subst heq
        rw [if_pos rfl]
        cases hfield : document.field? first with
        | none =>
          rw [hfield] at ih
          rw [copy, descend, hfield]
          exact ih
        | some inner =>
          rw [hfield, Option.bind_some] at ih
          rw [get?_copy hfield, ih, Option.bind_some, kept_append_singleton]
      · rw [if_neg heq, ← ih, copy]
        split
        · exact get?_insertAt_of_ne _ heq _ _
        · rfl

/-- What is kept is the whole value, or an object with what is requested inside. -/
theorem kept_eq_some {inner value : Json} {requests : List (List String)} (h : kept inner requests = some value) :
    [] ∈ requests ∧ value = inner ∨
      value = .object (copyAll inner requests) ∧
        ∃ key keys, key :: keys ∈ requests ∧ (descend inner (key :: keys)).isSome := by
  rw [kept] at h
  split at h
  · next hwhole => exact .inl ⟨hwhole, (Option.some.inj h).symm⟩
  · next hwhole =>
    split at h
    · next hsome =>
      obtain ⟨keys, hkeys, hsome⟩ := hsome
      obtain ⟨key, rest, rfl⟩ := List.exists_cons_of_ne_nil fun heq => hwhole (heq ▸ hkeys)
      exact .inr ⟨(Option.some.inj h).symm, key, rest, hkeys, hsome⟩
    · contradiction

/-- Something is kept of a value when a request leads to something. -/
theorem isSome_kept_iff {inner : Json} {requests : List (List String)} :
    (kept inner requests).isSome ↔ ∃ keys ∈ requests, (descend inner keys).isSome := by
  rw [kept]
  split
  · next hwhole => simpa using ⟨[], hwhole, rfl⟩
  · split <;> simp_all

/-- A key leads from what is copied to what is kept of the field. -/
theorem descend_copyAll_cons (document : Json) (requests : List (List String)) (key : String) (keys : List String) :
    descend (.object (copyAll document requests)) (key :: keys) =
      (document.field? key).bind fun inner => (kept inner (within key requests)).bind (descend · keys) := by
  rw [descend, Json.field?, Json.fields, get?_copyAll]
  cases document.field? key <;> rfl

/-- What is kept of a value has what was requested inside of it. -/
theorem descend_kept {inner : Json} {requests : List (List String)} {keys : List String} (h : keys ∈ requests) :
    (kept inner requests).bind (descend · keys) = descend inner keys := by
  induction keys generalizing inner requests with
  | nil => rw [kept, if_pos h, Option.bind_some]
  | cons key keys ih =>
    cases hkept : kept inner requests with
    | none =>
      have hnone : ¬ (descend inner (key :: keys)).isSome := fun hsome => by
        simpa [hkept] using isSome_kept_iff.mpr ⟨_, h, hsome⟩
      exact (Option.not_isSome_iff_eq_none.mp hnone).symm
    | some value =>
      rw [Option.bind_some]
      obtain ⟨-, rfl⟩ | ⟨rfl, -⟩ := kept_eq_some hkept
      · rfl
      · rw [descend_copyAll_cons, descend]
        exact congrArg _ (funext fun next => ih (mem_within.mpr h))

/-- What is copied of a document has what was requested. -/
theorem descend_copyAll {document : Json} {requests : List (List String)} {key : String} {keys : List String}
    (h : key :: keys ∈ requests) :
    descend (.object (copyAll document requests)) (key :: keys) = descend document (key :: keys) := by
  rw [descend_copyAll_cons, descend]
  exact congrArg _ (funext fun inner => descend_kept (mem_within.mpr h))

/-- What is copied of a document is a part of it. -/
theorem partOf_copyAll (document : Json) (requests : List (List String)) :
    (Json.object (copyAll document requests)).PartOf (.object document.fields) := by
  induction document using Json.induction_field generalizing requests with
  | h document ih =>
    refine .object fun key hkey => ?_
    have hsome : Keyed.get? (copyAll document requests) key ≠ none := fun hnone =>
      Keyed.get?_eq_none_iff.mp hnone hkey
    rw [get?_copyAll] at hsome ⊢
    obtain ⟨value, hvalue⟩ := Option.ne_none_iff_exists'.mp hsome
    obtain ⟨inner, hfield, hkept⟩ := Option.bind_eq_some_iff.mp hvalue
    have hget : Keyed.get? document.fields key = some inner := hfield
    rw [hvalue, hget]
    obtain ⟨-, rfl⟩ | ⟨rfl, next, keys, -, hdescend⟩ := kept_eq_some hkept
    · exact .some (.refl value)
    · obtain ⟨found, hfound⟩ := Option.isSome_iff_exists.mp hdescend
      rw [eq_object_of_descend_cons hfound] at hfield ⊢
      exact .some (ih key _ hfield (within key requests))

/-- A value without fields inside of what is kept was requested, or is inside of something that was. -/
theorem exists_prefix_of_kept {inner value leaf : Json} {requests : List (List String)} {keys : List String}
    (hkept : kept inner requests = some value) (hdescend : descend value keys = some leaf) (hleaf : leaf.fields = []) :
    ∃ request ∈ requests, (descend inner request).isSome ∧ request <+: keys := by
  induction keys generalizing inner value requests with
  | nil =>
    obtain ⟨hwhole, -⟩ | ⟨rfl, key, keys, hkeys, hsome⟩ := kept_eq_some hkept
    · exact ⟨[], hwhole, rfl, List.nil_prefix⟩
    · -- an object that was made for what is inside of it has an entry
      obtain rfl := Option.some.inj hdescend
      obtain ⟨found, hfound⟩ := Option.isSome_iff_exists.mp hsome
      obtain ⟨next, hnext, hrest⟩ := Option.bind_eq_some_iff.mp hfound
      have hentry := get?_copyAll inner requests key
      have hinside := isSome_kept_iff.mpr ⟨keys, mem_within.mpr hkeys, Option.isSome_of_mem hrest⟩
      rw [hnext, Option.bind_some, show copyAll inner requests = [] from hleaf] at hentry
      rw [← hentry] at hinside
      contradiction
  | cons key keys ih =>
    obtain ⟨hwhole, -⟩ | ⟨rfl, -⟩ := kept_eq_some hkept
    · exact ⟨[], hwhole, rfl, List.nil_prefix⟩
    · rw [descend_copyAll_cons] at hdescend
      obtain ⟨next, hnext, hvalue⟩ := Option.bind_eq_some_iff.mp hdescend
      obtain ⟨value, hvalue, hdescend⟩ := Option.bind_eq_some_iff.mp hvalue
      obtain ⟨request, hrequest, hsome, hprefix⟩ := ih hvalue hdescend
      refine ⟨key :: request, mem_within.mp hrequest, ?_, List.cons_prefix_cons.mpr ⟨rfl, hprefix⟩⟩
      rw [descend, hnext, Option.bind_some]
      exact hsome

/-- A value without fields inside of what is copied was requested, or is inside of something that was. -/
theorem exists_prefix_of_copyAll {document leaf : Json} {requests : List (List String)} {keys : List String}
    (hkeys : keys ≠ []) (hdescend : descend (.object (copyAll document requests)) keys = some leaf)
    (hleaf : leaf.fields = []) : ∃ request ∈ requests, (descend document request).isSome ∧ request <+: keys := by
  by_cases hsome : ∃ request ∈ requests, (descend document request).isSome
  · by_cases hwhole : [] ∈ requests
    · exact ⟨[], hwhole, rfl, List.nil_prefix⟩
    · exact exists_prefix_of_kept (by rw [kept, if_neg hwhole, if_pos hsome]) hdescend hleaf
  · obtain ⟨key, keys, rfl⟩ := List.exists_cons_of_ne_nil hkeys
    rw [copyAll_eq_nil hsome] at hdescend
    contradiction

/-! ### Order and repetition of requests -/

/-- Writing at the end of a path keeps the keys distinct. -/
theorem nodup_keys_insertAt {fields : Keyed Json} (h : (Keyed.keys fields).Nodup) (keys : List String) (value : Json) :
    (Keyed.keys (insertAt fields keys value)).Nodup := by
  match keys with
  | [] => exact h
  | [_] => exact Keyed.nodup_keys_insert h _ _
  | _ :: _ :: _ => exact Keyed.nodup_keys_insert h _ _

/-- No key repeats in what is copied. -/
theorem nodup_keys_copyAll (document : Json) (requests : List (List String)) :
    (Keyed.keys (copyAll document requests)).Nodup := by
  induction requests using List.reverseRecOn with
  | nil => exact List.nodup_nil
  | append_singleton requests keys ih =>
    rw [copyAll_append_singleton, copy]
    split
    · exact nodup_keys_insertAt ih _ _
    · exact ih

/-- The same requests copy the same but for the order of keys, in whatever order and however often they are made, and
in whatever order the keys of the document are. -/
theorem reordered_copyAll {document other : Json} (hdocument : document.Reordered other)
    {requests others : List (List String)} (h : ∀ keys, keys ∈ others ↔ keys ∈ requests) :
    (Json.object (copyAll document others)).Reordered (.object (copyAll other requests)) := by
  induction document using Json.induction_field generalizing other requests others with
  | h document ih =>
    have hnone {value found : Option Json} (hrel : Option.Rel Json.Reordered value found) :
        value = none ↔ found = none := by
      cases hrel <;> simp
    have hvalues (key : String) : Option.Rel Json.Reordered (Keyed.get? (copyAll document others) key)
        (Keyed.get? (copyAll other requests) key) := by
      rw [get?_copyAll, get?_copyAll]
      refine Json.rel_bind (hdocument.field? key) fun inner found hvalue hinner => ?_
      have hwithin (keys : List String) : keys ∈ within key others ↔ keys ∈ within key requests := by
        rw [mem_within, mem_within, h]
      have hsome (keys : List String) : (descend inner keys).isSome ↔ (descend found keys).isSome := by
        rw [Option.isSome_iff_ne_none, Option.isSome_iff_ne_none, ne_eq, hnone (hinner.descend keys)]
      simp only [kept, hwithin, hsome]
      split
      · exact .some hinner
      · split
        · exact .some (ih key inner hvalue hinner hwithin)
        · exact .none
    refine .object ?_ hvalues
    rw [List.perm_ext_iff_of_nodup (nodup_keys_copyAll document others) (nodup_keys_copyAll other requests)]
    intro key
    rw [← not_iff_not, ← Keyed.get?_eq_none_iff, ← Keyed.get?_eq_none_iff]
    exact hnone (hvalues key)

/-- Documents from which the requests lead to the same values have the same copied. -/
theorem copyAll_congr {document other : Json} {requests : List (List String)}
    (h : ∀ keys ∈ requests, descend other keys = descend document keys) :
    copyAll other requests = copyAll document requests :=
  List.foldl_ext _ _ _ fun fields keys hkeys => by rw [copy, copy, h keys hkeys]

end Projection

end Listing
