import Phrasebook.Proofs.Localizer.Transparency
import Phrasebook.Proofs.Reference.Lasting
import Phrasebook.Proofs.Store.Change

/-!
# Reading again

A session loads more and more, and never unloads (`performAll_grows`). So what a key reads to at some moment of a
session is what it reads to ever after, unless the reading missed a key of a pair that was not loaded yet. Main
statement: `read_again`.
-/

namespace Phrasebook.Localizer

variable {α : Type}

/-- A command loads more and leaves the depth. -/
theorem perform_grows (localizer : Localizer α) (command : Command) :
    localizer.library.Grows (localizer.perform command).1.library := by
  cases command with
  | change change => exact (localizer.change_grows change).1
  | ask question =>
    obtain ⟨templates, heq⟩ := localizer.ask_eq question
    rw [perform, heq]
    exact .refl localizer.library

/-- A session loads more and leaves the depth. -/
theorem performAll_grows (localizer : Localizer α) (commands : List Command) :
    localizer.library.Grows (localizer.performAll commands).1.library := by
  induction commands generalizing localizer with
  | nil => exact .refl localizer.library
  | cons command commands ih => exact (localizer.perform_grows command).trans (ih _)

/-- Telling handlers and doing what they ask for changes no reading, also of pairs that are selected no more. -/
theorem result_read_run (localizer : Localizer α) (tasks : List Task) (pair : Pair) (key : Key) :
    let later := { localizer with store := (localizer.store.run tasks).1 }
    (later.library.read pair key).result = (localizer.library.read pair key).result := by
  intro later
  have hsame : ∀ other, later.library.resource? other = localizer.library.resource? other :=
    localizer.store.resource?_run tasks
  exact Library.result_read_congr hsame rfl pair key

/-- **What was read is read again.** At any moment of a session and at any later one, a key that has a text, that
is a table, that begins a chain that is too long or that misses a key of a loaded pair reads to the same result.
So only the lack of a key of a pair that is not loaded may pass. Selecting other locales or modules changes no
reading at all. -/
theorem read_again (blueprint : Blueprint α) (commands later : List Command) (pair : Pair) (key : Key) :
    let now := (blueprint.build.performAll commands).1
    let reading := (now.library.read pair key).result
    let again := ((now.performAll later).1.library.read pair key).result
    (∀ text, reading = .ok text → again = .ok text) ∧
    (∀ other found, reading = .error (.keyPartial other found) → again = .error (.keyPartial other found)) ∧
    (∀ locale chain, reading = .error (.cyclicReference locale chain) →
      again = .error (.cyclicReference locale chain)) ∧
    (∀ other missing, reading = .error (.keyMissing other missing) → now.store.isLoaded other = true →
      again = .error (.keyMissing other missing)) ∧
    (again ≠ reading →
      ∃ other missing, reading = .error (.keyMissing other missing) ∧ now.store.isLoaded other = false) ∧
    (∀ locales, ((now.setLocales locales).1.library.read pair key).result = reading) ∧
    ∀ modules, ((now.setModules modules).1.library.read pair key).result = reading := by
  intro now reading again
  have hgrows : now.library.Grows (now.performAll later).1.library := now.performAll_grows later
  -- the results that last differ only in why they miss no key of a pair that is not loaded
  have hsame (hloaded : ∀ other missing, reading = .error (.keyMissing other missing) →
      now.store.isLoaded other = true) : again = reading :=
    hgrows.result_read_eq hloaded
  refine ⟨fun text hread => ?_, fun other found hread => ?_, fun locale chain hread => ?_,
    fun other missing hread hloaded => ?_, fun hchanged => ?_,
    fun locales => now.result_read_run [.act (.setLocales locales)] pair key,
    fun modules => now.result_read_run [.act (.setModules modules)] pair key⟩
  · exact (hsame (by simp [hread])).trans hread
  · exact (hsame (by simp [hread])).trans hread
  · exact (hsame (by simp [hread])).trans hread
  · refine (hsame fun other' missing' hread' => ?_).trans hread
    obtain ⟨rfl, rfl⟩ : other = other' ∧ missing = missing' := by simpa using hread.symm.trans hread'
    exact hloaded
  · by_contra hnone
    refine hchanged (hsame fun other missing hread => ?_)
    by_contra hunloaded
    exact hnone ⟨other, missing, hread, Bool.of_not_eq_true hunloaded⟩

end Phrasebook.Localizer
