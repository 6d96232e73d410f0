import Phrasebook.Proofs.Reference.Tree

/-!
# Failed readings

A reading fails with the problem of the first key, depth first and from left to right, that cannot be read. Here
is what one level of reading adds: its own key has no text (`Library.result_readWithin_succ_eq_error_iff`), or the
first of its markers that cannot be followed fails (`Library.result_expandPieces_eq_error_iff`).
-/

namespace Phrasebook

namespace Traced

variable {α β : Type}

/-- Going on fails when the first part fails or the second one does. -/
theorem result_andThen_eq_error_iff {t : Traced α} {f : α → Traced β} {problem : Problem} :
    (t.andThen f).result = .error problem ↔
      t.result = .error problem ∨ ∃ a, t.result = .ok a ∧ (f a).result = .error problem := by
  unfold andThen
  cases h : t.result with
  | ok a => simp
  | error problem => simp

end Traced

namespace Library

variable {library : Library} {locale : Locale}

/-- Putting a text together fails with the problem of the first marker that cannot be followed. -/
theorem result_expandPieces_eq_error_iff {home : ModuleId} {follow : ModuleId → Key → Traced (List Char)}
    {pieces : List Piece} {problem : Problem} :
    (expandPieces locale home follow pieces).result = .error problem ↔
      ∃ before address after, Piece.references home pieces = before ++ address :: after ∧
        (∀ earlier ∈ before, ∃ reading, (follow earlier.moduleId earlier.key).result = .ok reading) ∧
        (follow address.moduleId address.key).result = .error problem := by
  -- on the pieces: a literal never fails, and behind a marker that was followed the rest may
  induction pieces with
  | nil => simp [expandPieces, Piece.references]
  | cons piece pieces ih =>
    cases piece with
    | literal text =>
      simp only [expandPieces, Traced.result_andThen_eq_error_iff, Traced.result_done, Piece.references, reduceCtorEq,
        and_false, exists_false, or_false, ih]
    | marker inner =>
      simp only [expandPieces, Traced.result_after, Traced.result_andThen_eq_error_iff, Traced.result_done,
        Piece.references, reduceCtorEq, and_false, exists_false, or_false, ih]
      constructor
      · rintro (hfirst | ⟨reading, hread, before, address, after, hsplit, hbefore, hproblem⟩)
        · exact ⟨[], (Target.ofInner inner).address home, _, rfl, by simp, hfirst⟩
        · refine ⟨(Target.ofInner inner).address home :: before, address, after, by rw [hsplit]; rfl, ?_, hproblem⟩
          simpa using ⟨⟨reading, hread⟩, hbefore⟩
      · rintro ⟨before, address, after, hsplit, hbefore, hproblem⟩
        cases before with
        | nil =>
          obtain ⟨rfl, rfl⟩ := List.cons_eq_cons.1 hsplit
          exact .inl hproblem
        | cons first before =>
          obtain ⟨rfl, hrest⟩ := List.cons_eq_cons.1 hsplit
          obtain ⟨⟨reading, hread⟩, hbefore⟩ := List.forall_mem_cons.1 hbefore
          exact .inr ⟨reading, hread, before, address, after, hrest, hbefore, hproblem⟩

/-- One level of reading fails where its key has no text, or where its text cannot be put together. -/
theorem result_readWithin_succ_eq_error_iff {room : Nat} {chain : List String} {address : Address}
    {problem : Problem} :
    (library.readWithin locale (room + 1) chain address.moduleId address.key).result = .error problem ↔
      (library.node? ⟨locale, address.moduleId⟩ address.key = none ∧
        problem = .keyMissing ⟨locale, address.moduleId⟩ address.key) ∨
      (∃ entries, library.node? ⟨locale, address.moduleId⟩ address.key = some (.table entries) ∧
        problem = .keyPartial ⟨locale, address.moduleId⟩ address.key) ∨
      ∃ raw, library.node? ⟨locale, address.moduleId⟩ address.key = some (.text raw) ∧
        (expandPieces locale address.moduleId
          (library.readWithin locale room (chain ++ [addressLabel address.moduleId address.key]))
          (Marker.decompose raw.toList)).result = .error problem := by
  rw [readWithin, Traced.result_after, ← node?]
  cases library.node? ⟨locale, address.moduleId⟩ address.key with
  | none => simp [Traced.failed, eq_comm]
  | some node =>
    cases node with
    | text raw => simp
    | table entries => simp [Traced.failed, eq_comm]

end Library

end Phrasebook
