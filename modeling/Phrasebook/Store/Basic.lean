import Phrasebook.Event
import Phrasebook.Store.Loader

/-!
# The store

The store holds the selection, one record for each pair that was ever selected, and the subscriptions.
Records are never dropped, so the resource of a pair is loaded once. A record has a future, which all who
await the load share, and a cell, which the future fills when it is over and which whoever reads looks into.
Loads advance only when their futures are polled.
-/

namespace Phrasebook

/-- How far the future of a load has come. -/
inductive Progress where
  /-- The load will be asked in vain so many times. -/
  | pending (polls : Nat)
  /-- The load is over, and whoever awaits it gets this; a failed one comes to the empty table. -/
  | settled (output : Resource)
  deriving DecidableEq, Repr

/-- What a future that is over came to. -/
def Progress.output? : Progress → Option Resource
  | .pending _ => none
  | .settled output => some output

/-- The record of a load. -/
structure LoadRecord where
  /-- The future that is shared by all who await the load. -/
  future : Progress
  /-- The cell that is filled once, when the load ends. -/
  cell : Option Resource := none
  deriving DecidableEq, Repr

namespace LoadRecord

/-- One question to the future was in vain. -/
def tick (record : LoadRecord) (polls : Nat) : LoadRecord :=
  { record with future := .pending polls }

/-- The load ends: the cell takes what it came to unless it is full, and the future gives it to all. -/
def settle (record : LoadRecord) (resource : Resource) : LoadRecord where
  future := .settled resource
  cell := record.cell.or (some resource)

end LoadRecord

/-- What a handler does to the store in the course of a call. -/
inductive Action where
  | setLocales (locales : List Locale)
  | setModules (modules : List ModuleId)
  /-- Remove the newest subscription with a label. -/
  | unsubscribe (label : String)
  deriving DecidableEq, Repr

/-- A subscription's handler: its label, and what it does in its coming calls, one after another. -/
structure Handler where
  label : String
  script : List (List Action) := []
  deriving DecidableEq, Repr

/-- Loads and keeps resources for a changing selection. -/
structure Store where
  loader : Loader
  /-- Whether an access notifier is built for each pair. -/
  hook : Bool := false
  /-- Whether loads also advance while something else is awaited. -/
  background : Bool := false
  selection : Selection := {}
  /-- The records, in the order in which the pairs were first selected. -/
  records : List (Pair × LoadRecord) := []
  /-- Loads that advance in the background, the next one first. -/
  queue : List Pair := []
  /-- The handlers of all subscriptions ever made; a subscription is known by its place here. -/
  handlers : List Handler := []
  /-- The subscriptions that are not removed, oldest first. -/
  registered : List Nat := []

namespace Store

/-- The record of a pair. -/
def record? (store : Store) (pair : Pair) : Option LoadRecord :=
  store.records.lookup pair

/-- How far the future of a pair has come. -/
def progress? (store : Store) (pair : Pair) : Option Progress :=
  (store.record? pair).map LoadRecord.future

/-- What the future of a pair came to, if it is over. -/
def output? (store : Store) (pair : Pair) : Option Resource :=
  (store.progress? pair).bind Progress.output?

/-- Whether the future of a pair is over. -/
def isOver (store : Store) (pair : Pair) : Bool :=
  (store.output? pair).isSome

/-- What the cell of a pair holds. -/
def resource? (store : Store) (pair : Pair) : Option Resource :=
  (store.record? pair).bind LoadRecord.cell

/-- Whether the cell of a pair is filled. -/
def isLoaded (store : Store) (pair : Pair) : Bool :=
  (store.resource? pair).isSome

/-- Whether a load was ever started for a pair. -/
def isRequested (store : Store) (pair : Pair) : Bool :=
  (store.record? pair).isSome

/-- Whether a pair has an access notifier. -/
def notifies (store : Store) (pair : Pair) : Bool :=
  store.hook && store.isRequested pair

/-- How many loads are over. -/
def settledCount (store : Store) : Nat :=
  store.records.countP fun record => record.2.future.output?.isSome

/-- The selected pairs without a record. -/
def unrequested (store : Store) : List Pair :=
  store.selection.pairs.filter fun pair => !store.isRequested pair

/-- Start the loads that the selection lacks, and tell about each. -/
def reconcile (store : Store) : Store × List Event :=
  let started := store.unrequested
  ({ store with
      records := store.records ++ started.map fun pair => (pair, { future := .pending (store.loader.delay pair) })
      queue := if store.background then store.queue ++ started else store.queue },
    started.flatMap fun pair => .scheduled pair :: if store.hook then [.hooked pair] else [])

/-- Change the record of a pair, if there is one. -/
def updateRecord (store : Store) (pair : Pair) (change : LoadRecord → LoadRecord) : Store :=
  { store with records := store.records.map fun (key, record) =>
      if key = pair then (key, change record) else (key, record) }

/-- What the load of a pair comes to, and what it tells. -/
def outcome (store : Store) (pair : Pair) : Resource × List Event :=
  let asked := if store.loader.announces then [Event.asked pair] else []
  match store.loader.load pair with
  | .ok resource => (resource, asked ++ [.loaded pair])
  | .error fault => (Resource.empty, asked ++ [.loadFailed (.loadFailure pair fault.message)])

/-- Poll the future of a pair: ask its load for the result. -/
def poll (store : Store) (pair : Pair) : Store × List Event :=
  match store.progress? pair with
  | some (.pending polls) =>
    let opening :=
      if polls = store.loader.delay pair then (store.loader.opens pair).toList.map Event.opening else []
    match polls with
    | 0 =>
      let (resource, events) := store.outcome pair
      (store.updateRecord pair (·.settle resource), opening ++ events)
    | polls + 1 => (store.updateRecord pair (·.tick polls), opening)
  | _ => (store, [])

end Store

end Phrasebook
