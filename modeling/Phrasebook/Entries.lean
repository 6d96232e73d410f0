/-!
# Named entries

Lists of named values in the order of their names. `Entries.lookup_put` describes setting an entry through
looking one up, and `Entries.lookup_ofList` setting many.
-/

namespace Phrasebook

/-- Values by name, each name once and names in code point order when built with `put`. -/
abbrev Entries (α : Type) := List (String × α)

namespace Entries

variable {α : Type}

/-- Set the value of a name, replacing what the name had. -/
def put (name : String) (value : α) : Entries α → Entries α
  | [] => [(name, value)]
  | (n, v) :: rest =>
    if name = n then (name, value) :: rest
    else if name < n then (name, value) :: (n, v) :: rest
    else (n, v) :: put name value rest

/-- Set entries one after another, so that the last one given for a name stays. -/
def ofList (entries : List (String × α)) : Entries α :=
  entries.foldl (fun table entry => put entry.1 entry.2 table) []

/-- Looking up in a list is decided at its first pair, or goes on behind it. -/
theorem lookup_cons {κ : Type} [BEq κ] [LawfulBEq κ] [DecidableEq κ] (n m : κ) (v : α) (rest : List (κ × α)) :
    List.lookup n ((m, v) :: rest) = if n = m then some v else List.lookup n rest := by
  by_cases h : n = m
  · simp [h]
  · have : (n == m) = false := by simpa using h
    rw [List.lookup_cons, this, if_neg h]

/-- Setting a name changes what that name has and nothing else. -/
theorem lookup_put (name n : String) (value : α) (table : Entries α) :
    List.lookup n (put name value table) = if n = name then some value else List.lookup n table := by
  induction table with
  | nil => simp [put, lookup_cons]
  | cons entry rest ih =>
    obtain ⟨m, v⟩ := entry
    unfold put
    split
    · rename_i h
      simp only [lookup_cons, ← h]
      split <;> rfl
    · rename_i h
      split
      · simp only [lookup_cons]
      · simp only [lookup_cons, ih]
        by_cases hm : n = m
        · have : ¬ m = name := fun e => h e.symm
          simp [hm, this]
        · simp [hm]

/-- Of all entries put into a table the last one with a name counts, and behind them what was there before. -/
theorem lookup_foldl_put (n : String) (entries : List (String × α)) (table : Entries α) :
    List.lookup n (entries.foldl (fun table entry => put entry.1 entry.2 table) table) =
      (List.lookup n entries.reverse).or (List.lookup n table) := by
  induction entries generalizing table with
  | nil => simp
  | cons entry entries ih =>
    rw [List.foldl_cons, ih, lookup_put, List.reverse_cons, List.lookup_append, Option.or_assoc, lookup_cons]
    split <;> simp

/-- Of the entries with one name the last one is found. -/
theorem lookup_ofList (n : String) (entries : List (String × α)) :
    List.lookup n (ofList entries) = List.lookup n entries.reverse := by
  rw [ofList, lookup_foldl_put, List.lookup_nil, Option.or_none]

/-- If entries with one name are the same, it does not matter which one is found. -/
theorem lookup_eq_some_iff {entries : List (String × α)}
    (h : ∀ {n : String} {v w : α}, (n, v) ∈ entries → (n, w) ∈ entries → v = w) {n : String} {v : α} :
    List.lookup n entries = some v ↔ (n, v) ∈ entries := by
  have hmem {w : α} (hlookup : List.lookup n entries = some w) : (n, w) ∈ entries := by
    obtain ⟨before, after, rfl, -⟩ := List.lookup_eq_some_iff.1 hlookup
    simp
  refine ⟨hmem, fun hv => ?_⟩
  have hsome : (List.lookup n entries).isSome = true := List.lookup_isSome_iff.2 ⟨(n, v), hv, beq_self_eq_true n⟩
  obtain ⟨w, hw⟩ := Option.isSome_iff_exists.1 hsome
  rw [hw, h hv (hmem hw)]

end Entries

end Phrasebook
