import Phrasebook.Proofs.Store.Change
import Phrasebook.Proofs.Store.WaitingRoom

/-!
# Loads settle once

The cell of a pair, its future and the load that the notify hook was handed agree over every run: the hook is handed
one load for each pair, that load comes to the same resource whenever it is awaited, and this is the resource that
the store has from the end of the load on. Main statement: `WaitingRoom.settles_once`.
-/

namespace Phrasebook

open Store Event

/-- A hooked pair has one load and one notifier, and the load was started. -/
theorem Store.Ledger.hooked_once {store : Store} {events : List Event} (h : Ledger store events) {pair : Pair}
    (hmem : Event.hooked pair ∈ events) :
    events.count (.hooked pair) = 1 ∧ events.count (.scheduled pair) = 1 ∧ store.isRequested pair = true := by
  have hhooked := h.count_hooked pair
  have hscheduled := h.count_scheduled pair
  -- the ledger counts one hook call for a pair with a notifier and none for others
  have hpositive : 0 < events.count (.hooked pair) := List.count_pos_iff.2 hmem
  have hnotifies : store.notifies pair = true := by
    by_contra hnot
    rw [Bool.not_eq_true] at hnot
    rw [hhooked, hnot] at hpositive
    exact Nat.lt_irrefl 0 hpositive
  have hrequested : store.isRequested pair = true := (Bool.and_eq_true_iff.1 hnotifies).2
  rw [hnotifies] at hhooked
  rw [hrequested] at hscheduled
  exact ⟨hhooked, hscheduled, hrequested⟩

namespace WaitingRoom

/-- **Loads settle once.** Over every run the cell of a pair holds what its future came to, and nothing before that. A
resource that is there stays; it is what the loader gives, or the empty table if the loader fails. A load that the
notify hook was handed is the only one of its pair and comes to the same resource whenever it is awaited. Replacing
the locales or the modules settles no load, and with handlers that only listen it leaves the other half of the
selection as it was. -/
theorem settles_once (loader : Loader) (hook background : Bool) (moves : List Move) :
    let run := (fresh loader hook background).performAll moves
    let store := run.1.store
    (∀ pair, store.resource? pair = store.output? pair) ∧
    (∀ pair resource, store.resource? pair = some resource →
      resource = loader.settlement pair ∧
        ∀ later, (run.1.performAll later).1.store.resource? pair = some resource) ∧
    (∀ pair, Event.hooked pair ∈ run.2 →
      run.2.count (.hooked pair) = 1 ∧ run.2.count (.scheduled pair) = 1 ∧
        ∀ later, ((run.1.performAll later).1.store.resolve pair).2.2 = some (loader.settlement pair)) ∧
    (∀ locales, let changed := (store.setLocales locales).1
      (∀ pair, changed.resource? pair = store.resource? pair ∧ changed.isLoaded pair = store.isLoaded pair) ∧
        (store.Listening → changed.selection = { store.selection with locales := firstOccurrences locales })) ∧
    ∀ modules, let changed := (store.setModules modules).1
      (∀ pair, changed.resource? pair = store.resource? pair ∧ changed.isLoaded pair = store.isLoaded pair) ∧
        (store.Listening → changed.selection = { store.selection with modules := firstOccurrences modules }) := by
  intro run store
  have hsettles : Settles store := settles_performAll loader hook background moves
  have hledger : Ledger store run.2 := ledger_performAll loader hook background moves
  have hloader : store.loader = loader := loader_performAll (fresh loader hook background) moves
  -- both changes run one task, and whatever is run meanwhile settles nothing
  have hkeeps (tasks : List Task) (pair : Pair) : (store.run tasks).1.resource? pair = store.resource? pair ∧
      (store.run tasks).1.isLoaded pair = store.isLoaded pair :=
    ⟨store.resource?_run tasks pair, store.isLoaded_run tasks pair⟩
  refine ⟨hsettles.agrees.resource?_eq, fun pair resource hresource => ⟨?_, fun later => ?_⟩, fun pair hmem => ?_,
    fun locales => ?_, fun modules => ?_⟩
  · rw [← hloader]
    exact hsettles.resource hresource
  · exact (run.1.steps_performAll later).resource?_eq_some hresource
  · obtain ⟨hhooked, hscheduled, hrequested⟩ := hledger.hooked_once hmem
    refine ⟨hhooked, hscheduled, fun later => ?_⟩
    -- `later` is arbitrary, so the load may be over already or be driven to its end by this await
    have hsteps := run.1.steps_performAll later
    rw [← hloader, ← loader_performAll run.1 later]
    exact (hsettles.history hsteps).resolve_eq (hsteps.isRequested hrequested)
  · exact ⟨hkeeps [.act (.setLocales locales)], fun h => h.selection_run_act rfl⟩
  · exact ⟨hkeeps [.act (.setModules modules)], fun h => h.selection_run_act rfl⟩

end WaitingRoom

end Phrasebook
