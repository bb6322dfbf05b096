import Listing.Projection
import Listing.Proofs.LastPerKey
import Listing.Proofs.Pieces

/-!
# Lists of fields

The fields of a request are read token by token: a trimmed token is put behind those before it unless it is empty or
there already. What is kept of the tokens so far are their names, each at its first place, and a further token keeps it
so. The names are read back from the list that is made of them, and naming them again adds nothing.
-/

namespace Listing.Projection

/-- The tokens between the commas of a list, trimmed. -/
def tokens (fields : String) : List String := (Text.split ',' fields).map Text.trim

/-- What is kept after a further token: a new name comes last. -/
def keep (kept : List String) (token : String) : List String :=
  if token = "" ∨ token ∈ kept then kept else kept ++ [token]

/-- Whether some names are those of some tokens, each at its first place. -/
structure FirstPlaces (tokens names : List String) : Prop where
  /-- No name repeats. -/
  nodup : names.Nodup
  /-- The names are the tokens that are not empty. -/
  mem_iff : ∀ name, name ∈ names ↔ name ∈ tokens ∧ name ≠ ""
  /-- They have the order of their first places. -/
  ordered : names.Pairwise fun first second => tokens.idxOf first < tokens.idxOf second

/-- A further token is kept at its first place. -/
theorem firstPlaces_keep {tokens names : List String} (h : FirstPlaces tokens names) (token : String) :
    FirstPlaces (tokens ++ [token]) (keep names token) := by
  have hmem {name : String} (hname : name ∈ names) : name ∈ tokens := ((h.mem_iff name).mp hname).1
  -- the tokens before the new one keep their first places
  have hordered : names.Pairwise fun first second =>
      (tokens ++ [token]).idxOf first < (tokens ++ [token]).idxOf second := by
    refine h.ordered.imp_of_mem fun hfirst hsecond hlt => ?_
    rwa [List.idxOf_append_of_mem (hmem hfirst), List.idxOf_append_of_mem (hmem hsecond)]
  rw [keep]
  split
  · next hold =>
    refine ⟨h.nodup, fun name => ?_, hordered⟩
    have hname := h.mem_iff name
    grind
  · next hnew =>
    rw [not_or] at hnew
    have htoken : token ∉ tokens := fun htoken => hnew.2 ((h.mem_iff token).mpr ⟨htoken, hnew.1⟩)
    refine ⟨?_, fun name => ?_, ?_⟩
    · exact List.nodup_append.mpr ⟨h.nodup, List.nodup_singleton _, by grind⟩
    · have hname := h.mem_iff name
      grind
    · refine List.pairwise_append.mpr ⟨hordered, List.pairwise_singleton _ _, fun first hfirst second hsecond => ?_⟩
      rw [List.mem_singleton.mp hsecond, List.idxOf_append_of_mem (hmem hfirst), List.idxOf_append_of_notMem htoken]
      exact (List.idxOf_lt_length_iff.mpr (hmem hfirst)).trans_le (Nat.le_add_right _ _)

/-- What is kept of all tokens are their names, each at its first place. -/
theorem firstPlaces_foldl_keep (tokens : List String) : FirstPlaces tokens (tokens.foldl keep []) := by
  induction tokens using List.reverseRecOn with
  | nil => exact ⟨List.nodup_nil, by simp, .nil⟩
  | append_singleton tokens token ih =>
    rw [List.foldl_append, List.foldl_cons, List.foldl_nil]
    exact firstPlaces_keep ih token

/-- The fields of a list are what is kept of its tokens. -/
theorem parse_eq_foldl (fields : String) : parse fields = (tokens fields).foldl keep [] := by
  rw [parse, ← tokens]
  induction tokens fields using List.reverseRecOn with
  | nil => rfl
  | append_singleton tokens token ih =>
    rw [List.filter_append, List.foldl_append, ← ih, List.foldl_cons, List.foldl_nil]
    by_cases hempty : token = ""
    · simp [keep, hempty]
    · rw [List.filter_cons_of_pos (by simpa using hempty), List.filter_nil, Keyed.eraseDups_append_singleton]
      simp [keep, hempty, List.mem_eraseDups]

/-- Tokens that are empty or kept already add nothing. -/
theorem foldl_keep_of_kept {tokens names : List String} (h : ∀ token ∈ tokens, token = "" ∨ token ∈ names) :
    tokens.foldl keep names = names := by
  induction tokens with
  | nil => rfl
  | cons token rest ih =>
    obtain ⟨htoken, hrest⟩ := List.forall_mem_cons.mp h
    rw [List.foldl_cons, keep, if_pos htoken, ih hrest]

/-- Tokens that are not empty and do not repeat are all kept. -/
theorem foldl_keep_of_new {tokens names : List String} (hnodup : (names ++ tokens).Nodup)
    (hne : ∀ token ∈ tokens, token ≠ "") : tokens.foldl keep names = names ++ tokens := by
  induction tokens generalizing names with
  | nil => rw [List.foldl_nil, List.append_nil]
  | cons token rest ih =>
    obtain ⟨htoken, hrest⟩ := List.forall_mem_cons.mp hne
    have hnew : token ∉ names := fun hmem => (List.nodup_append.mp hnodup).2.2 token hmem token List.mem_cons_self rfl
    rw [← List.singleton_append, ← List.append_assoc] at hnodup
    rw [List.foldl_cons, keep, if_neg (not_or.mpr ⟨htoken, hnew⟩), ih hnodup hrest, List.append_assoc,
      List.singleton_append]

/-- Whether a text can be kept of a list. -/
structure IsName (name : String) : Prop where
  /-- It is not empty. -/
  ne_empty : name ≠ ""
  /-- It has no blanks at its ends. -/
  trimmed : Text.trim name = name
  /-- It has no comma in it. -/
  no_comma : ',' ∉ name.toList

/-- The fields of a list are its trimmed tokens without empty ones, each at its first place. -/
theorem firstPlaces_parse (fields : String) : FirstPlaces (tokens fields) (parse fields) := by
  rw [parse_eq_foldl]
  exact firstPlaces_foldl_keep (tokens fields)

/-- The fields of a list are names. -/
theorem isName_of_mem_parse {fields name : String} (h : name ∈ parse fields) : IsName name := by
  obtain ⟨htoken, hne⟩ := ((firstPlaces_parse fields).mem_iff name).mp h
  obtain ⟨piece, hpiece, rfl⟩ := List.mem_map.mp htoken
  refine ⟨hne, Text.trim_trim piece, fun hcomma => ?_⟩
  rw [Text.toList_trim] at hcomma
  exact Text.not_mem_of_mem_split hpiece ((Text.trimChars_infix piece.toList).subset hcomma)

/-- Names that do not repeat are read back from the list that is made of them. -/
theorem parse_intercalate {names : List String} (hnodup : names.Nodup) (hnames : ∀ name ∈ names, IsName name) :
    parse (",".intercalate names) = names := by
  by_cases hsome : names = []
  · subst hsome
    decide
  · have hsplit : Text.split ',' (",".intercalate names) = names :=
      Text.split_intercalate ',' hsome fun name hname => (hnames name hname).no_comma
    have htokens : tokens (",".intercalate names) = names := by
      rw [tokens, hsplit]
      exact (List.map_congr_left fun name hname => (hnames name hname).trimmed).trans (List.map_id names)
    rw [parse_eq_foldl, htokens]
    exact foldl_keep_of_new hnodup fun name hname => (hnames name hname).ne_empty

/-- A list that goes on after a comma has the tokens of both parts. -/
theorem tokens_append (fields more : String) : tokens (fields ++ "," ++ more) = tokens fields ++ tokens more := by
  have hcomma : "," = String.singleton ',' := rfl
  rw [tokens, hcomma, Text.split_append, List.map_append, tokens, tokens]

/-- The fields of a list are a set in the order of first places. They are the trimmed tokens between the commas without
empty ones, no field repeats, and each stands where its first token stands among the others. A field is not empty, has no
blanks at its ends and no comma in it, so that the same fields are read from the list that is made of them. Going on with
more tokens after a comma changes nothing exactly when each of them is empty or named already. -/
theorem fields_kept_at_first_places (fields : String) :
    FirstPlaces (tokens fields) (parse fields) ∧
    (∀ name ∈ parse fields, IsName name) ∧
    parse (",".intercalate (parse fields)) = parse fields ∧
    ∀ more, parse (fields ++ "," ++ more) = parse fields ↔
      ∀ token ∈ tokens more, token = "" ∨ token ∈ parse fields := by
  have hplaces := firstPlaces_parse fields
  have hnames : ∀ name ∈ parse fields, IsName name := fun name => isName_of_mem_parse
  refine ⟨hplaces, hnames, parse_intercalate hplaces.nodup hnames, fun more => ⟨fun h token htoken => ?_, fun h => ?_⟩⟩
  · rw [or_iff_not_imp_left, ← h]
    intro hne
    refine ((firstPlaces_parse (fields ++ "," ++ more)).mem_iff token).mpr ⟨?_, hne⟩
    rw [tokens_append]
    exact List.mem_append_right _ htoken
  · rw [parse_eq_foldl, tokens_append, List.foldl_append, ← parse_eq_foldl]
    exact foldl_keep_of_kept h

/-- A name and an address are asked for once, whatever blanks and repetitions the list has. -/
theorem fields_of_name_and_email :
    let fields := " name ,,email, name"
    parse fields = ["name", "email"] ∧ IsName "email" ∧ parse "name,email" = ["name", "email"] ∧
      parse (fields ++ "," ++ " email,,name\t") = ["name", "email"] := by
  intro fields
  have hread : parse fields = ["name", "email"] := by decide +kernel
  obtain ⟨-, hnames, hback, hmore⟩ := fields_kept_at_first_places fields
  rw [hread] at hnames hback hmore
  exact ⟨hread, hnames "email" (by simp), hback, (hmore " email,,name\t").mpr (by decide +kernel)⟩

end Listing.Projection
