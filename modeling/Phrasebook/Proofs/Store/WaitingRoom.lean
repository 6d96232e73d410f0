import Phrasebook.Proofs.Store.Ledger
import Phrasebook.Proofs.Store.Settlement

/-!
# Waiting rooms

A waiting room is a store together with the waits that were begun on it. Its moves come in any order: the
selection changes, loads are driven, handlers come and go, waits begin and are polled. For the store a move is a
history like any other (`steps_perform`). Each wait keeps account of the pairs that were selected when it began:
the loads of the ones it has dropped are over (`Wait.Tracks`, `exists_tracks_performAll`).
-/

namespace Phrasebook

/-- A store, and the waits that were begun on it; a wait is known by its place. -/
structure WaitingRoom where
  store : Store
  waits : List Wait := []

namespace WaitingRoom

/-- One move in a waiting room. -/
inductive Move where
  /-- The selection is changed, or loads are driven. -/
  | store (command : Store.Command)
  | subscribe (handler : Handler)
  | unsubscribe (id : Nat)
  /-- Begin to wait for what is selected. -/
  | wait
  /-- Poll the wait at a place. -/
  | resume (place : Nat)
  deriving DecidableEq, Repr

/-- A waiting room with a store that nothing was asked of. -/
def fresh (loader : Loader) (hook background : Bool) : WaitingRoom :=
  { store := .fresh loader hook background }

/-- Change the store, and keep what happened. -/
def withStore (room : WaitingRoom) (changed : Store × List Event) : WaitingRoom × List Event :=
  ({ room with store := changed.1 }, changed.2)

/-- Make a move. -/
def perform (room : WaitingRoom) : Move → WaitingRoom × List Event
  | .store command => room.withStore (room.store.perform command)
  | .subscribe handler => room.withStore (room.store.subscribe handler)
  | .unsubscribe id => room.withStore ((room.store.unsubscribe id).1, [])
  | .wait => ({ room with waits := room.waits ++ [room.store.beginWait] }, [])
  | .resume place =>
    match room.waits[place]? with
    | none => (room, [])
    | some wait =>
      let polled := room.store.resume wait
      ({ store := polled.1, waits := room.waits.set place polled.2.2 }, polled.2.1)

/-- Make moves one after another. -/
def performAll (room : WaitingRoom) : List Move → WaitingRoom × List Event
  | [] => (room, [])
  | move :: moves =>
    let first := room.perform move
    let rest := performAll first.1 moves
    (rest.1, first.2 ++ rest.2)

open Store

/-! ## What moves do to the store -/

/-- For the store a move is a history. -/
theorem steps_perform (room : WaitingRoom) (move : Move) :
    History Step room.store (room.perform move).2 (room.perform move).1.store := by
  cases move with
  | store command => exact Store.steps_perform room.store command
  | subscribe handler => exact steps_subscribe room.store handler
  | unsubscribe id => exact steps_unsubscribe room.store id
  | wait => exact .refl room.store
  | resume place =>
    rw [perform]
    split
    · exact .refl room.store
    · exact (drives_pollEach room.store _).mono Step.drive

/-- So are moves one after another, in any order. -/
theorem steps_performAll (room : WaitingRoom) (moves : List Move) :
    History Step room.store (room.performAll moves).2 (room.performAll moves).1.store := by
  induction moves generalizing room with
  | nil => exact .refl room.store
  | cons move moves ih => exact (room.steps_perform move).trans (ih _)

/-- Over every run of moves loads settle. -/
theorem settles_performAll (loader : Loader) (hook background : Bool) (moves : List Move) :
    Settles ((fresh loader hook background).performAll moves).1.store :=
  (Settles.fresh loader hook background).history (steps_performAll (fresh loader hook background) moves)

/-- Over every run of moves the ledger is in order. -/
theorem ledger_performAll (loader : Loader) (hook background : Bool) (moves : List Move) :
    Ledger ((fresh loader hook background).performAll moves).1.store
      ((fresh loader hook background).performAll moves).2 := by
  have hfresh := Ledger.fresh loader hook background
  simpa using hfresh.history ((fresh loader hook background).steps_performAll moves)

/-- Moves keep the loader. -/
theorem loader_performAll (room : WaitingRoom) (moves : List Move) :
    (room.performAll moves).1.store.loader = room.store.loader :=
  (room.steps_performAll moves).loader_eq

end WaitingRoom

/-! ## What waits keep account of -/

/-- A wait for a list of pairs: all of them have a record, and the loads of those that the wait has dropped are
over. -/
structure Wait.Tracks (wait : Wait) (pairs : List Pair) (store : Store) : Prop where
  requested : ∀ pair ∈ pairs, store.isRequested pair = true
  pending_eq : ∃ keep : Pair → Bool, wait.pending = pairs.filter keep
  dropped : ∀ pair ∈ pairs, pair ∉ wait.pending → store.isOver pair = true

namespace Wait.Tracks

open Store

variable {wait : Wait} {pairs : List Pair} {store final : Store} {events : List Event}

/-- A wait is only for pairs for which it was begun. -/
theorem subset (h : wait.Tracks pairs store) {pair : Pair} (hpair : pair ∈ wait.pending) : pair ∈ pairs := by
  obtain ⟨keep, hkeep⟩ := h.pending_eq
  rw [hkeep] at hpair
  exact (List.mem_filter.1 hpair).1

/-- A wait that is over has seen all of its loads over. -/
theorem isOver (h : wait.Tracks pairs store) (hover : wait.isOver = true) {pair : Pair} (hpair : pair ∈ pairs) :
    store.isOver pair = true := by
  have hnil : wait.pending = [] := List.isEmpty_iff.1 hover
  exact h.dropped pair hpair (by rw [hnil]; exact List.not_mem_nil)

/-- What the store does meanwhile does not upset the account, as no record is lost and no load begins anew. -/
theorem history (h : wait.Tracks pairs store) (hsteps : History Step store events final) :
    wait.Tracks pairs final where
  requested pair hpair := hsteps.isRequested (h.requested pair hpair)
  pending_eq := h.pending_eq
  dropped pair hpair hmem := hsteps.isOver (h.dropped pair hpair hmem)

/-- Polling the wait keeps the account. -/
theorem resume (h : wait.Tracks pairs store) : (store.resume wait).2.2.Tracks pairs (store.resume wait).1 := by
  have hsteps : History Step store _ (store.resume wait).1 := (drives_resume store wait).mono Step.drive
  constructor
  case requested => exact (h.history hsteps).requested
  case pending_eq =>
    obtain ⟨keep, hkeep⟩ := h.pending_eq
    refine ⟨fun pair => !(store.resume wait).1.isOver pair && keep pair, ?_⟩
    rw [← List.filter_filter, ← hkeep]
    rfl
  case dropped =>
    intro pair hpair hmem
    by_cases hpending : pair ∈ wait.pending
    · -- it was polled just now and dropped because its load is over
      exact isOver_of_dropped hpending hmem
    · exact (h.history hsteps).dropped pair hpair hpending

/-- A wait is over after a poll exactly if all of its loads are over then. -/
theorem isOver_resume_iff (h : wait.Tracks pairs store) :
    (store.resume wait).2.2.isOver = true ↔ ∀ pair ∈ pairs, (store.resume wait).1.isOver pair = true := by
  constructor
  · exact fun hover pair hpair => h.resume.isOver hover hpair
  · intro hall
    refine List.isEmpty_iff.2 (List.eq_nil_iff_forall_not_mem.2 fun pair hpair => ?_)
    have hopen := (mem_pending_resume.1 hpair).2
    rw [hall pair (h.subset (mem_pending_resume.1 hpair).1)] at hopen
    simp at hopen

/-- A poll of a wait leaves the loads of all pairs alone that the wait is not for. -/
theorem progress?_resume (h : wait.Tracks pairs store) {pair : Pair} (hpair : pair ∉ pairs) :
    (store.resume wait).1.progress? pair = store.progress? pair :=
  progress?_pollEach fun hmem => hpair (h.subset hmem)

end Wait.Tracks

namespace WaitingRoom

/-- A wait begins with an account of all selected pairs, provided that they all have a record. -/
theorem tracks_beginWait {store : Store} (h : ∀ pair ∈ store.selection.pairs, store.isRequested pair = true) :
    store.beginWait.pending = store.selection.pairs ∧ store.beginWait.Tracks store.selection.pairs store := by
  have hpending : store.beginWait.pending = store.selection.pairs := List.filter_eq_self.2 h
  refine ⟨hpending, h, ⟨store.isRequested, rfl⟩, fun pair hpair hmem => ?_⟩
  exact absurd (hpending ▸ hpair) hmem

/-- A move leaves a wait where it is, and its account in order. -/
theorem exists_tracks_perform {room : WaitingRoom} {place : Nat} {wait : Wait} {pairs : List Pair}
    (hwait : room.waits[place]? = some wait) (htracks : wait.Tracks pairs room.store) (move : Move) :
    ∃ wait', (room.perform move).1.waits[place]? = some wait' ∧
      wait'.Tracks pairs (room.perform move).1.store := by
  have hkept := htracks.history (room.steps_perform move)
  cases move with
  | store command => exact ⟨wait, hwait, hkept⟩
  | subscribe handler => exact ⟨wait, hwait, hkept⟩
  | unsubscribe id => exact ⟨wait, hwait, hkept⟩
  | wait =>
    have hlt : place < room.waits.length := (List.getElem?_eq_some_iff.1 hwait).1
    exact ⟨wait, by rw [perform, List.getElem?_append_left hlt, hwait], hkept⟩
  | resume polled =>
    rw [perform] at hkept ⊢
    cases hpolled : room.waits[polled]? with
    | none => exact ⟨wait, hwait, htracks⟩
    | some other =>
      simp only [hpolled] at hkept ⊢
      -- the poll is of this wait or of another one, which stands at another place
      by_cases heq : polled = place
      · obtain rfl := heq
        obtain rfl : other = wait := Option.some.inj (hpolled.symm.trans hwait)
        have hlt : polled < room.waits.length := (List.getElem?_eq_some_iff.1 hwait).1
        exact ⟨_, List.getElem?_set_self hlt, htracks.resume⟩
      · exact ⟨wait, by rw [List.getElem?_set_ne heq, hwait], hkept⟩

/-- Moves leave a wait where it is, and its account in order. -/
theorem exists_tracks_performAll {room : WaitingRoom} {place : Nat} {wait : Wait} {pairs : List Pair}
    (hwait : room.waits[place]? = some wait) (htracks : wait.Tracks pairs room.store) (moves : List Move) :
    ∃ wait', (room.performAll moves).1.waits[place]? = some wait' ∧
      wait'.Tracks pairs (room.performAll moves).1.store := by
  induction moves generalizing room wait with
  | nil => exact ⟨wait, hwait, htracks⟩
  | cons move moves ih =>
    obtain ⟨wait', hwait', htracks'⟩ := exists_tracks_perform hwait htracks move
    exact ih hwait' htracks'

end WaitingRoom

end Phrasebook
