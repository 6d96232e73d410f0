/-!
# Distinct elements

`firstOccurrences` keeps the first of each group of equal elements and the order of what it keeps.
-/

namespace Phrasebook

/-- Keep the first occurrence of each element. -/
def firstOccurrences {α : Type} [DecidableEq α] : List α → List α
  | [] => []
  | x :: xs => x :: (firstOccurrences xs).filter (· ≠ x)

/-- The elements kept are the elements given. -/
@[simp] theorem mem_firstOccurrences {α : Type} [DecidableEq α] {a : α} {xs : List α} :
    a ∈ firstOccurrences xs ↔ a ∈ xs := by
  induction xs with
  | nil => simp [firstOccurrences]
  | cons x xs ih =>
    by_cases h : a = x
    · simp [firstOccurrences, h]
    · simp [firstOccurrences, h, ih]

/-- No element is kept twice. -/
theorem nodup_firstOccurrences {α : Type} [DecidableEq α] (xs : List α) :
    (firstOccurrences xs).Nodup := by
  induction xs with
  | nil => simp [firstOccurrences]
  | cons x xs ih =>
    rw [firstOccurrences, List.nodup_cons]
    exact ⟨by simp, ih.sublist List.filter_sublist⟩

/-- Where no element repeats, all are kept. -/
theorem firstOccurrences_of_nodup {α : Type} [DecidableEq α] {xs : List α} (h : xs.Nodup) :
    firstOccurrences xs = xs := by
  induction xs with
  | nil => rfl
  | cons x xs ih =>
    obtain ⟨hx, hxs⟩ := List.nodup_cons.1 h
    have hkept : xs.filter (· ≠ x) = xs := by
      refine List.filter_eq_self.2 fun y hy => ?_
      simpa using fun heq : y = x => hx (heq ▸ hy)
    rw [firstOccurrences, ih hxs, hkept]

end Phrasebook
