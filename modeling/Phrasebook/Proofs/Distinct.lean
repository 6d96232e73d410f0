import Mathlib.Data.List.Basic
import Phrasebook.Distinct

/-!
# The order of distinct elements

Main statement: `firstOccurrences_in_order`. The first occurrences in a list are in the order in which they stand
there, so they are the list without repetitions that a scan gives which keeps what it has not seen.
-/

namespace Phrasebook

variable {α : Type} [DecidableEq α]

/-- What is kept stands in the order in which it stood. -/
theorem firstOccurrences_sublist (xs : List α) : (firstOccurrences xs).Sublist xs := by
  induction xs with
  | nil => exact List.Sublist.refl []
  | cons x xs ih => exact (List.filter_sublist.trans ih).cons_cons x

/-- Nothing is dropped exactly if there was no repetition. -/
theorem firstOccurrences_eq_self_iff {xs : List α} : firstOccurrences xs = xs ↔ xs.Nodup := by
  constructor
  · intro heq
    rw [← heq]
    exact nodup_firstOccurrences xs
  · exact firstOccurrences_of_nodup

/-- Behind a list only those elements are kept that do not occur in it. -/
theorem firstOccurrences_append (xs ys : List α) :
    firstOccurrences (xs ++ ys) = firstOccurrences xs ++ (firstOccurrences ys).filter (· ∉ xs) := by
  induction xs with
  | nil => simp [firstOccurrences]
  | cons x xs ih =>
    have hfilter : ((firstOccurrences ys).filter (· ∉ xs)).filter (· ≠ x) =
        (firstOccurrences ys).filter (· ∉ x :: xs) := by
      rw [List.filter_filter]
      exact List.filter_congr fun y _ => by simp
    calc firstOccurrences (x :: xs ++ ys)
      _ = x :: (firstOccurrences xs ++ (firstOccurrences ys).filter (· ∉ xs)).filter (· ≠ x) := by
        rw [List.cons_append, firstOccurrences, ih]
      _ = firstOccurrences (x :: xs) ++ (firstOccurrences ys).filter (· ∉ x :: xs) := by
        rw [List.filter_append, hfilter, firstOccurrences, List.cons_append]

/-! ## Order -/

section Order

variable {x y z : α} {xs ys : List α}

/-- Behind a common first element it matters only for other elements which of two comes first. -/
theorem idxOf_cons_lt_congr (h : z ≠ x → z ≠ y → (xs.idxOf x < xs.idxOf y ↔ ys.idxOf x < ys.idxOf y)) :
    (z :: xs).idxOf x < (z :: xs).idxOf y ↔ (z :: ys).idxOf x < (z :: ys).idxOf y := by
  by_cases hy : z = y
  · subst hy
    simp
  · rw [List.idxOf_cons_ne xs hy, List.idxOf_cons_ne ys hy]
    by_cases hx : z = x
    · subst hx
      simp
    · rw [List.idxOf_cons_ne xs hx, List.idxOf_cons_ne ys hx, Nat.succ_lt_succ_iff, Nat.succ_lt_succ_iff]
      exact h hx hy

/-- Leaving out other elements does not change which of two elements comes first. -/
theorem idxOf_filter_lt_iff {keep : α → Bool} (hx : keep x = true) (hy : keep y = true) (xs : List α) :
    (xs.filter keep).idxOf x < (xs.filter keep).idxOf y ↔ xs.idxOf x < xs.idxOf y := by
  induction xs with
  | nil => simp
  | cons z xs ih =>
    by_cases hz : keep z = true
    · rw [List.filter_cons_of_pos hz]
      exact idxOf_cons_lt_congr fun _ _ => ih
    · have hzx : z ≠ x := fun heq => hz (heq ▸ hx)
      have hzy : z ≠ y := fun heq => hz (heq ▸ hy)
      rw [List.filter_cons_of_neg hz, ih, List.idxOf_cons_ne xs hzx, List.idxOf_cons_ne xs hzy, Nat.succ_lt_succ_iff]

/-- Of two elements the one comes first that occurs first. -/
theorem idxOf_firstOccurrences_lt_iff (xs : List α) :
    (firstOccurrences xs).idxOf x < (firstOccurrences xs).idxOf y ↔ xs.idxOf x < xs.idxOf y := by
  induction xs with
  | nil => simp [firstOccurrences]
  | cons z xs ih =>
    rw [firstOccurrences]
    refine idxOf_cons_lt_congr fun hx hy => ?_
    rw [idxOf_filter_lt_iff (by simpa using hx.symm) (by simpa using hy.symm), ih]

end Order

/-! ## Scanning -/

/-- A scan that keeps what it has not seen gives what was seen, and then the first occurrences of what was not. The
elements that were seen are the newest first. -/
theorem eraseDupsBy_loop_eq (xs seen : List α) :
    List.eraseDupsBy.loop (· == ·) xs seen = seen.reverse ++ (firstOccurrences xs).filter (· ∉ seen) := by
  induction xs generalizing seen with
  | nil => simp [List.eraseDupsBy.loop, firstOccurrences]
  | cons x xs ih =>
    rw [List.eraseDupsBy.loop, firstOccurrences, ih, ih]
    by_cases hx : x ∈ seen
    · have hany : (seen.any fun y => x == y) = true := by simpa using hx
      have hrest (y : α) : (decide (y ∉ seen) && decide (y ≠ x)) = decide (y ∉ seen) := by
        by_cases hy : y = x <;> simp [hy, hx]
      rw [hany, List.filter_cons_of_neg (by simpa using hx), List.filter_filter]
      simp only [hrest]
    · have hany : (seen.any fun y => x == y) = false :=
        Bool.eq_false_iff.2 fun hany => hx (by simpa using hany)
      have hrest (y : α) : (decide (y ∉ seen) && decide (y ≠ x)) = decide (y ∉ x :: seen) := by
        by_cases hy : y = x <;> simp [hy]
      rw [hany, List.filter_cons_of_pos (by simpa using hx), List.filter_filter]
      simp only [hrest, List.reverse_cons, List.append_assoc, List.singleton_append]

/-- Keeping first occurrences is the deduplication of the core library. -/
theorem firstOccurrences_eq_eraseDups (xs : List α) : firstOccurrences xs = xs.eraseDups := by
  rw [List.eraseDups, List.eraseDupsBy, eraseDupsBy_loop_eq]
  simp

/-- **First occurrences are kept in order.** The first occurrences in a list are a part of it without repetitions and
with the same elements, and an element stands before another one exactly if it occurs first in the list. Keeping them
again changes nothing, and exactly the lists without repetitions are kept as a whole. Behind a list only what does not
occur in it is kept. A scan that keeps what it has not seen gives the same. -/
theorem firstOccurrences_in_order (xs ys : List α) :
    (firstOccurrences xs).Sublist xs ∧ (firstOccurrences xs).Nodup ∧ (∀ x, x ∈ firstOccurrences xs ↔ x ∈ xs) ∧
      (∀ x y, (firstOccurrences xs).idxOf x < (firstOccurrences xs).idxOf y ↔ xs.idxOf x < xs.idxOf y) ∧
      firstOccurrences (firstOccurrences xs) = firstOccurrences xs ∧
      (firstOccurrences xs = xs ↔ xs.Nodup) ∧
      firstOccurrences (xs ++ ys) = firstOccurrences xs ++ (firstOccurrences ys).filter (· ∉ xs) ∧
      firstOccurrences xs = xs.eraseDups := by
  refine ⟨firstOccurrences_sublist xs, nodup_firstOccurrences xs, fun x => mem_firstOccurrences,
    fun x y => idxOf_firstOccurrences_lt_iff xs, ?_, firstOccurrences_eq_self_iff, firstOccurrences_append xs ys,
    firstOccurrences_eq_eraseDups xs⟩
  exact firstOccurrences_of_nodup (nodup_firstOccurrences xs)

example : firstOccurrences ["en", "pt", "en", "de", "pt"] = ["en", "pt", "de"] := by decide

end Phrasebook
