import Phrasebook.Store.Basic

/-!
# Waiting for loads

A wait is for the pairs that are selected when it begins. Polling it polls the futures that it has not seen over,
one after another, and drops those that are over then. Between two polls of a wait the loads of the background
advance a little. Each poll brings every awaited load one step further, so a wait never takes more polls than
the slowest of its loads.
-/

namespace Phrasebook

/-- A wait that was begun: the pairs whose futures it has not seen over yet. -/
structure Wait where
  pending : List Pair
  deriving DecidableEq, Repr

/-- Whether a wait has seen all of its futures over. -/
def Wait.isOver (wait : Wait) : Bool :=
  wait.pending.isEmpty

namespace Store

/-- The pairs to wait for: the selected pairs that have a record now. -/
def barrier (store : Store) : List Pair :=
  store.selection.pairs.filter store.isRequested

/-- Poll the futures of pairs in order. -/
def pollEach (store : Store) : List Pair → Store × List Event
  | [] => (store, [])
  | pair :: pairs =>
    let first := store.poll pair
    let rest := pollEach first.1 pairs
    (rest.1, first.2 ++ rest.2)

/-- How many loads advance in the background before whoever waits is asked again. -/
def burstLength : Nat := 61

/-- Let the loads of the background take up to `steps` steps; a load that is not over queues up again. -/
def advance (store : Store) : Nat → Store × List Event
  | 0 => (store, [])
  | steps + 1 =>
    match store.queue with
    | [] => (store, [])
    | pair :: queue =>
      let first := { store with queue }.poll pair
      let requeued :=
        if first.1.isOver pair then first.1 else { first.1 with queue := first.1.queue ++ [pair] }
      let rest := advance requeued steps
      (rest.1, first.2 ++ rest.2)

/-- Let the loads of the background advance for a number of turns. -/
def yield (store : Store) : Nat → Store × List Event
  | 0 => (store, [])
  | turns + 1 =>
    let first := store.advance burstLength
    let rest := yield first.1 turns
    (rest.1, first.2 ++ rest.2)

/-- Begin to wait for the pairs that are selected now. -/
def beginWait (store : Store) : Wait :=
  ⟨store.barrier⟩

/-- Poll a wait: poll each future that it has not seen over, and drop those that are over then. -/
def resume (store : Store) (wait : Wait) : Store × List Event × Wait :=
  let polled := store.pollEach wait.pending
  (polled.1, polled.2, ⟨wait.pending.filter fun pair => !polled.1.isOver pair⟩)

/-- Poll a wait until it is over, for at most `rounds` rounds after the first. -/
def finish (store : Store) (wait : Wait) : Nat → Store × List Event × Wait
  | 0 => store.resume wait
  | rounds + 1 =>
    let polled := store.resume wait
    if polled.2.2.isOver then polled
    else
      let advanced := polled.1.advance burstLength
      let rest := finish advanced.1 polled.2.2 rounds
      (rest.1, polled.2.1 ++ advanced.2 ++ rest.2.1, rest.2.2)

/-- Await the futures of pairs, all of them together. -/
def await (store : Store) (pairs : List Pair) : Store × List Event :=
  let finished := store.finish ⟨pairs⟩ (store.loader.patience pairs)
  (finished.1, finished.2.1)

/-- Wait for the pairs that are selected now. -/
def wait (store : Store) : Store × List Event :=
  store.await store.beginWait.pending

/-- Await the future of a pair: what is left, what happened, and what the future came to. -/
def resolve (store : Store) (pair : Pair) : Store × List Event × Option Resource :=
  let awaited := store.await [pair]
  (awaited.1, awaited.2, awaited.1.output? pair)

end Store

end Phrasebook
