import Mathlib.Data.List.Nodup
import Phrasebook.Proofs.Store.Agreement

/-!
# The ledger of a store

What a store has told so far and what it holds now account for each other: the loads it scheduled are its
records, each of them once, and a load is over exactly if its end was told. `Ledger` states this and every
step keeps it (`Ledger.step`). Main statement: over every run from a fresh store the records are the pairs of
all selections held, with one load and one notifier each (`records_performAll`).
-/

namespace Phrasebook

/-- What a store tells about the load of a pair. -/
inductive Stage where
  | scheduled
  | hooked
  | asked
  /-- The load is over, in success or in failure. -/
  | settled
  deriving DecidableEq, Repr

namespace Event

/-- The stage that a load has come to, if the event is about a load. -/
def stage? : Event → Option (Stage × Pair)
  | .scheduled pair => some (.scheduled, pair)
  | .hooked pair => some (.hooked, pair)
  | .asked pair => some (.asked, pair)
  | .loaded pair => some (.settled, pair)
  | .loadFailed (.loadFailure pair _) => some (.settled, pair)
  | _ => none

/-- The pairs that come to a stage, in the order of the events. -/
def pairsAt (stage : Stage) (events : List Event) : List Pair :=
  events.filterMap fun event => (event.stage?.filter fun told => told.1 = stage).map Prod.snd

/-- No events, no pairs. -/
@[simp] theorem pairsAt_nil (stage : Stage) : pairsAt stage [] = [] := rfl

/-- The pairs of later events come behind those of earlier ones. -/
@[simp] theorem pairsAt_append (stage : Stage) (events later : List Event) :
    pairsAt stage (events ++ later) = pairsAt stage events ++ pairsAt stage later :=
  List.filterMap_append

/-- What is told about each pair in turn brings the pairs in turn to a stage. -/
theorem pairsAt_flatMap (stage : Stage) (tell : Pair → List Event) (pairs : List Pair) :
    pairsAt stage (pairs.flatMap tell) = pairs.flatMap fun pair => pairsAt stage (tell pair) := by
  simp [pairsAt, List.filterMap_flatMap]

/-- An event that tells one stage is counted by the pairs that come to it. -/
theorem count_eq_count_pairsAt {stage : Stage} {pair : Pair} {told : Event}
    (htold : ∀ event, event.stage? = some (stage, pair) ↔ event = told) (events : List Event) :
    events.count told = (pairsAt stage events).count pair := by
  rw [pairsAt, List.count_filterMap, List.count]
  refine List.countP_congr fun event _ => ?_
  rw [beq_iff_eq, ← htold, beq_iff_eq, Option.map_eq_some_iff]
  constructor
  · intro h
    exact ⟨(stage, pair), by simp [h], rfl⟩
  · rintro ⟨⟨stage', pair'⟩, h, rfl⟩
    obtain ⟨hevent, hstage⟩ := Option.filter_eq_some_iff.1 h
    rw [hevent]
    simpa using hstage

/-- Which events bring a pair to a stage: one for each stage but the last, which a load reaches in success or in
failure. -/
theorem stage?_eq_some_iff (event : Event) (stage : Stage) (pair : Pair) :
    event.stage? = some (stage, pair) ↔
      match stage with
      | .scheduled => event = .scheduled pair
      | .hooked => event = .hooked pair
      | .asked => event = .asked pair
      | .settled => event = .loaded pair ∨ ∃ reason, event = .loadFailed (.loadFailure pair reason) := by
  cases event with
  | loadFailed problem => cases problem <;> cases stage <;> simp [stage?]
  | _ => cases stage <;> simp [stage?]

/-- Calling handlers brings no load any further. -/
theorem pairsAt_of_isDelivery {events : List Event} (h : ∀ event ∈ events, event.isDelivery = true)
    (stage : Stage) : pairsAt stage events = [] := by
  refine List.filterMap_eq_nil_iff.2 fun event hmem => ?_
  have hdelivery := h event hmem
  cases event <;> simp_all [isDelivery, stage?]

/-- Opening a file brings a load to no stage. -/
theorem pairsAt_opening (stage : Stage) (paths : List String) : pairsAt stage (paths.map opening) = [] := by
  simp [pairsAt, stage?]

end Event

/-- Without repetitions among locales and modules there are none among the pairs. -/
theorem Selection.nodup_pairs {selection : Selection} (hlocales : selection.locales.Nodup)
    (hmodules : selection.modules.Nodup) : selection.pairs.Nodup := by
  refine List.nodup_flatMap.2 ⟨fun locale _ => hmodules.map fun _ _ h => (Pair.mk.inj h).2, ?_⟩
  refine hlocales.imp fun {locale locale'} hne => ?_
  rintro pair hpair hpair'
  obtain ⟨_, _, rfl⟩ := List.mem_map.1 hpair
  obtain ⟨_, _, heq⟩ := List.mem_map.1 hpair'
  exact hne (Pair.mk.inj heq).1.symm

namespace Store

open Event

/-! ## What steps tell -/

/-- Selecting schedules the pairs that lack a record, in the order of the selection. -/
theorem pairsAt_select (store : Store) (selection : Selection) :
    pairsAt .scheduled (store.select selection).2 = unrequested { store with selection } ∧
      pairsAt .hooked (store.select selection).2 =
        (if store.hook then unrequested { store with selection } else []) ∧
      pairsAt .asked (store.select selection).2 = [] ∧ pairsAt .settled (store.select selection).2 = [] := by
  simp only [select, reconcile, pairsAt_flatMap]
  cases store.hook with
  | true => simp [pairsAt, stage?]
  | false => simp [pairsAt, stage?]

/-- The end of a load is told once, after the question to the loader if the loader tells about that. -/
theorem pairsAt_outcome (store : Store) (pair : Pair) :
    pairsAt .scheduled (store.outcome pair).2 = [] ∧ pairsAt .hooked (store.outcome pair).2 = [] ∧
      pairsAt .asked (store.outcome pair).2 = (if store.loader.announces then [pair] else []) ∧
      pairsAt .settled (store.outcome pair).2 = [pair] := by
  simp only [outcome]
  cases store.loader.announces with
  | true => cases store.loader.load pair <;> simp [pairsAt, stage?]
  | false => cases store.loader.load pair <;> simp [pairsAt, stage?]

/-- A poll in vain ends no load. -/
theorem output?_tick {store : Store} {pair : Pair} {polls : Nat}
    (h : store.progress? pair = some (.pending polls)) (left : Nat) (other : Pair) :
    (store.updateRecord pair (·.tick left)).output? other = store.output? other := by
  have hfuture (record : LoadRecord) : (record.tick left).future = .pending left := rfl
  rw [output?, output?, progress?_updateRecord hfuture]
  by_cases heq : other = pair
  · rw [if_pos heq, heq, h]
    rfl
  · rw [if_neg heq]

/-- The last poll of a load ends it and no other. -/
theorem isOver_settle {store : Store} {pair : Pair} {polls : Nat}
    (h : store.progress? pair = some (.pending polls)) (resource : Resource) (other : Pair) :
    ((store.updateRecord pair (·.settle resource)).isOver other).toNat =
      (store.isOver other).toNat + [pair].count other := by
  have hfuture (record : LoadRecord) : (record.settle resource).future = .settled resource := rfl
  rw [isOver, isOver, output?, output?, progress?_updateRecord hfuture]
  by_cases heq : other = pair
  · simp [heq, h, Progress.output?]
  · simp [heq, Ne.symm heq]

/-! ## The ledger -/

/-- All that a store has told accounts for what it holds. -/
structure Ledger (store : Store) (events : List Event) : Prop where
  /-- The records are the loads that were scheduled, in that order. -/
  scheduled : pairsAt .scheduled events = store.records.map Prod.fst
  /-- The hook built a notifier for each record. -/
  hooked : pairsAt .hooked events = if store.hook then store.records.map Prod.fst else []
  /-- The loader is asked when a load is about to be over. -/
  asked : pairsAt .asked events = if store.loader.announces then pairsAt .settled events else []
  /-- A load that is over ended once. -/
  settled : ∀ pair, (pairsAt .settled events).count pair = (store.isOver pair).toNat
  /-- No pair has two records. -/
  nodup : (store.records.map Prod.fst).Nodup
  locales_nodup : store.selection.locales.Nodup
  modules_nodup : store.selection.modules.Nodup
  /-- What is selected has a record. -/
  selected : ∀ pair ∈ store.selection.pairs, store.isRequested pair = true

namespace Ledger

variable {store final : Store} {events told : List Event}

/-- Of a store that nothing was asked of there is nothing to tell. -/
theorem fresh (loader : Loader) (hook background : Bool) : Ledger (Store.fresh loader hook background) [] where
  scheduled := rfl
  hooked := by simp [Store.fresh]
  asked := by simp
  settled pair := rfl
  nodup := List.nodup_nil
  locales_nodup := List.nodup_nil
  modules_nodup := List.nodup_nil
  selected pair h := by simp [Store.fresh] at h

/-- Steps that tell nothing about loads and leave loads alone keep the ledger. -/
theorem quiet (h : Ledger store events) (hquiet : ∀ stage, pairsAt stage told = [])
    (hhook : final.hook = store.hook) (hloader : final.loader = store.loader)
    (hselection : final.selection = store.selection)
    (hrecords : final.records.map Prod.fst = store.records.map Prod.fst)
    (hover : ∀ pair, final.isOver pair = store.isOver pair) : Ledger final (events ++ told) where
  scheduled := by rw [pairsAt_append, hquiet, List.append_nil, hrecords, h.scheduled]
  hooked := by rw [pairsAt_append, hquiet, List.append_nil, hrecords, hhook, h.hooked]
  asked := by rw [pairsAt_append, pairsAt_append, hquiet, hquiet, List.append_nil, List.append_nil, hloader, h.asked]
  settled pair := by rw [pairsAt_append, hquiet, List.append_nil, hover, h.settled]
  nodup := by rw [hrecords]; exact h.nodup
  locales_nodup := by rw [hselection]; exact h.locales_nodup
  modules_nodup := by rw [hselection]; exact h.modules_nodup
  selected pair hpair := by
    rw [hselection] at hpair
    exact (isRequested_congr hrecords pair).trans (h.selected pair hpair)

/-- A load that ends is told once and settles its pair. -/
theorem settle (h : Ledger store events) {pair : Pair} (hpending : store.progress? pair = some (.pending 0))
    (opening : List String) :
    Ledger (store.updateRecord pair (·.settle (store.outcome pair).1))
      (events ++ (opening.map Event.opening ++ (store.outcome pair).2)) := by
  obtain ⟨hscheduled, hhooked, hasked, hsettled⟩ := pairsAt_outcome store pair
  have hrecords := map_fst_updateRecord store pair (·.settle (store.outcome pair).1)
  have htold (stage : Stage) : pairsAt stage (events ++ (opening.map Event.opening ++ (store.outcome pair).2)) =
      pairsAt stage events ++ pairsAt stage (store.outcome pair).2 := by
    rw [pairsAt_append, pairsAt_append, pairsAt_opening, List.nil_append]
  constructor
  case scheduled => rw [htold, hscheduled, List.append_nil, hrecords, h.scheduled]
  case hooked =>
    rw [htold, hhooked, List.append_nil, hrecords]
    exact h.hooked
  case asked =>
    have hloader : (store.updateRecord pair (·.settle (store.outcome pair).1)).loader = store.loader := rfl
    rw [htold, htold, hasked, hsettled, h.asked, hloader]
    split <;> simp
  case settled =>
    intro other
    rw [htold, hsettled, List.count_append, h.settled, isOver_settle hpending]
  case nodup =>
    rw [hrecords]
    exact h.nodup
  case locales_nodup => exact h.locales_nodup
  case modules_nodup => exact h.modules_nodup
  case selected =>
    intro other hother
    exact (isRequested_congr hrecords other).trans (h.selected other hother)

/-- Selecting schedules what has no record yet and gives it one. -/
theorem select (h : Ledger store events) {selection : Selection} (hlocales : selection.locales.Nodup)
    (hmodules : selection.modules.Nodup) :
    Ledger (store.select selection).1 (events ++ (store.select selection).2) := by
  obtain ⟨hscheduled, hhooked, hasked, hsettled⟩ := pairsAt_select store selection
  have hrecords : (store.select selection).1.records.map Prod.fst =
      store.records.map Prod.fst ++ unrequested { store with selection } := by
    simp [Store.select, reconcile, Function.comp_def]
  have hover (pair : Pair) : (store.select selection).1.isOver pair = store.isOver pair := by
    rw [isOver, isOver, output?_select]
  constructor
  case scheduled => rw [pairsAt_append, hscheduled, hrecords, h.scheduled]
  case hooked =>
    have hhook : (store.select selection).1.hook = store.hook := rfl
    rw [pairsAt_append, hhooked, hrecords, h.hooked, hhook]
    split <;> simp
  case asked =>
    rw [pairsAt_append, pairsAt_append, hasked, hsettled, List.append_nil, List.append_nil]
    exact h.asked
  case settled =>
    intro pair
    rw [pairsAt_append, hsettled, List.append_nil, hover, h.settled]
  case nodup =>
    rw [hrecords, List.nodup_append']
    -- a pair that gets a record now had none before
    refine ⟨h.nodup, (Selection.nodup_pairs hlocales hmodules).filter _, fun pair hold hnew => ?_⟩
    rw [← isRequested_iff] at hold
    have hlacking : (!store.isRequested pair) = true := (List.mem_filter.1 hnew).2
    rw [hold] at hlacking
    simp at hlacking
  case locales_nodup => exact hlocales
  case modules_nodup => exact hmodules
  case selected =>
    intro pair hpair
    exact (isRequested_select store selection pair).2 (.inr hpair)

/-- Every step keeps the ledger. -/
theorem step (h : Ledger store events) (hstep : Step store told final) : Ledger final (events ++ told) := by
  cases hstep with
  | drive driven =>
    cases driven with
    | poll pair =>
      -- of all polls only the last one of a load tells about it
      rcases hpair : store.progress? pair with _ | (_ | polls) | settled
      · rw [poll_of_none hpair]
        simpa using h
      · obtain ⟨opening, hpoll⟩ := poll_of_pending_zero hpair
        rw [hpoll]
        exact h.settle hpair opening
      · obtain ⟨opening, hpoll⟩ := poll_of_pending_succ hpair
        rw [hpoll]
        refine h.quiet (fun stage => pairsAt_opening stage _) rfl rfl rfl (map_fst_updateRecord store pair _) ?_
        intro other
        rw [isOver, isOver, output?_tick hpair]
      · rw [poll_of_settled hpair]
        simpa using h
    | enqueue queue => exact h.quiet (fun _ => rfl) rfl rfl rfl rfl fun _ => rfl
  | setLocales locales => exact h.select (nodup_firstOccurrences locales) h.modules_nodup
  | setModules modules => exact h.select h.locales_nodup (nodup_firstOccurrences modules)
  | deliver handlers registered quiet =>
    exact h.quiet (fun stage => pairsAt_of_isDelivery quiet stage) rfl rfl rfl rfl fun _ => rfl

/-- Every history keeps the ledger. -/
theorem history (h : Ledger store events) (hsteps : History Step store told final) :
    Ledger final (events ++ told) := by
  induction hsteps generalizing events with
  | refl => simpa using h
  | head hstep _ ih =>
    rw [← List.append_assoc]
    exact ih (h.step hstep)

/-- A pair has one record if it has any. -/
theorem count_records (h : Ledger store events) (pair : Pair) :
    (store.records.map Prod.fst).count pair = (store.isRequested pair).toNat := by
  rw [h.nodup.count]
  simp only [← isRequested_iff]
  cases store.isRequested pair <;> rfl

/-- A load is scheduled once for each pair that has a record. -/
theorem count_scheduled (h : Ledger store events) (pair : Pair) :
    events.count (.scheduled pair) = (store.isRequested pair).toNat := by
  rw [count_eq_count_pairsAt (fun event => stage?_eq_some_iff event .scheduled pair), h.scheduled, h.count_records]

/-- A notifier is built once for each pair that has one. -/
theorem count_hooked (h : Ledger store events) (pair : Pair) :
    events.count (.hooked pair) = (store.notifies pair).toNat := by
  rw [count_eq_count_pairsAt (fun event => stage?_eq_some_iff event .hooked pair), h.hooked, notifies]
  cases store.hook with
  | true => exact h.count_records pair
  | false => rfl

/-- The loader is asked once for each load that is over, if it tells about that. -/
theorem count_asked (h : Ledger store events) (pair : Pair) :
    events.count (.asked pair) = (store.loader.announces && store.isOver pair).toNat := by
  rw [count_eq_count_pairsAt (fun event => stage?_eq_some_iff event .asked pair), h.asked]
  cases store.loader.announces with
  | true => exact h.settled pair
  | false => rfl

end Ledger

/-! ## Runs from a fresh store -/

/-- Over every run from the beginning the ledger is in order. -/
theorem ledger_performAll (loader : Loader) (hook background : Bool) (commands : List Command) :
    Ledger ((fresh loader hook background).performAll commands).1
      ((fresh loader hook background).performAll commands).2 := by
  simpa using (Ledger.fresh loader hook background).history (steps_performAll _ commands)

/-- Driving loads schedules none. -/
theorem Ledger.pairsAt_drives {store final : Store} {events told : List Event} (h : Ledger store events)
    (hdrives : History Drive store told final) :
    pairsAt .scheduled told = [] ∧ pairsAt .hooked told = [] := by
  have hfinal := h.history (hdrives.mono Step.drive)
  obtain ⟨records, queue, hfst, rfl⟩ := hdrives.drives_eq
  -- no record is added, so the ledgers before and after list the same pairs
  have hscheduled := hfinal.scheduled
  have hhooked := hfinal.hooked
  rw [pairsAt_append, h.scheduled, hfst, List.append_right_eq_self] at hscheduled
  rw [pairsAt_append, h.hooked, hfst, List.append_right_eq_self] at hhooked
  exact ⟨hscheduled, hhooked⟩

/-- A command schedules the pairs of its selection that have no record, locale by locale. -/
theorem Ledger.pairsAt_perform {store : Store} {events : List Event} (h : Ledger store events)
    (hregistered : store.registered = []) (command : Command) :
    pairsAt .scheduled (store.perform command).2 =
        (command.select store.selection).pairs.filter (fun pair => !store.isRequested pair) ∧
      pairsAt .hooked (store.perform command).2 =
        if store.hook then (command.select store.selection).pairs.filter (fun pair => !store.isRequested pair)
        else [] := by
  rcases perform_cases hregistered command with hselect | ⟨hkeep, hdrives⟩
  · obtain ⟨hscheduled, hhooked, -⟩ := pairsAt_select store (command.select store.selection)
    rw [hselect]
    exact ⟨hscheduled, hhooked⟩
  · -- the command keeps the selection, and all of that has records already
    have hnone : store.selection.pairs.filter (fun pair => !store.isRequested pair) = [] := by
      refine List.filter_eq_nil_iff.2 fun pair hpair => ?_
      simp [h.selected pair hpair]
    obtain ⟨hscheduled, hhooked⟩ := h.pairsAt_drives hdrives
    rw [hscheduled, hhooked, hkeep, hnone, ite_self]
    exact ⟨rfl, rfl⟩

/-- A run holds only selections without repetitions. -/
theorem nodup_of_mem_held {store : Store} (h : store.registered = []) {commands : List Command}
    (hlocales : store.selection.locales.Nodup) (hmodules : store.selection.modules.Nodup)
    {selection : Selection} (hheld : selection ∈ store.held commands) :
    selection.locales.Nodup ∧ selection.modules.Nodup := by
  induction commands generalizing store with
  | nil =>
    obtain rfl := List.mem_singleton.1 hheld
    exact ⟨hlocales, hmodules⟩
  | cons command commands ih =>
    rcases List.mem_cons.1 hheld with rfl | hheld
    · exact ⟨hlocales, hmodules⟩
    · refine ih (registered_perform h command) ?_ ?_ hheld
      · rw [selection_perform h]
        cases command with
        | setLocales locales => exact nodup_firstOccurrences locales
        | _ => exact hlocales
      · rw [selection_perform h]
        cases command with
        | setModules modules => exact nodup_firstOccurrences modules
        | _ => exact hmodules

/-- **Every pair ever selected has one load.** Over every run from a fresh store the records are the pairs of
all selections held, which are free of repetitions and follow from the commands alone; no record is lost, and
what is selected has one. Each record comes from one scheduled load, with one notifier if there is a hook, and
its load asks and ends once at most. A command schedules what its selection lacks, locale by locale. What the
store tells on request agrees with that. -/
theorem records_performAll (loader : Loader) (hook background : Bool) (commands : List Command) :
    let initial := fresh loader hook background
    let run := initial.performAll commands
    let store := run.1
    (initial.held commands = commands.scanl Command.select {} ∧
      ∀ selection ∈ initial.held commands, selection.locales.Nodup ∧ selection.modules.Nodup) ∧
    (∀ pair, store.isRequested pair = true ↔
      ∃ selection ∈ initial.held commands, pair.locale ∈ selection.locales ∧ pair.moduleId ∈ selection.modules) ∧
    (∀ later pair, store.isRequested pair = true → (store.performAll later).1.isRequested pair = true) ∧
    (∀ locale ∈ store.selection.locales, ∀ moduleId ∈ store.selection.modules,
      store.isRequested ⟨locale, moduleId⟩ = true) ∧
    (∀ pair, run.2.count (.scheduled pair) = (store.isRequested pair).toNat ∧
      run.2.count (.hooked pair) = (hook && store.isRequested pair).toNat ∧
      run.2.count (.asked pair) = (loader.announces && store.isLoaded pair).toNat ∧
      (pairsAt .settled run.2).count pair = (store.isLoaded pair).toNat) ∧
    (∀ command, let selection := command.select store.selection
      let lacking := (selection.locales.flatMap fun locale => selection.modules.map fun moduleId =>
        (⟨locale, moduleId⟩ : Pair)).filter fun pair => !store.isRequested pair
      (store.perform command).1.selection = selection ∧
        pairsAt .scheduled (store.perform command).2 = lacking ∧
        pairsAt .hooked (store.perform command).2 = if hook then lacking else []) ∧
    ∀ pair, ((store.resource? pair).isSome = true ↔ store.isLoaded pair = true) ∧
      (store.isLoaded pair = true → store.isRequested pair = true) ∧
      (store.notifies pair = true ↔ store.isRequested pair = true ∧ hook = true) := by
  intro initial run store
  have hinitial : initial.registered = [] := rfl
  have hledger : Ledger store run.2 := ledger_performAll loader hook background commands
  have hagrees : store.Agrees := agrees_performAll loader hook background commands
  obtain ⟨records, queue, hstore⟩ := performAll_eq hinitial commands
  have hregistered : store.registered = [] := congrArg Store.registered hstore
  have hhook : store.hook = hook := congrArg Store.hook hstore
  have hloader : store.loader = loader := congrArg Store.loader hstore
  have hrequested (pair : Pair) : store.isRequested pair = true ↔
      ∃ selection ∈ initial.held commands, pair ∈ selection.pairs := by
    rw [isRequested_performAll hinitial (Ledger.fresh loader hook background).selected]
    exact or_iff_right (by simp [initial, fresh, isRequested, record?])
  refine ⟨⟨held_eq_scanl hinitial commands, fun selection => nodup_of_mem_held hinitial .nil .nil⟩,
    ?_, ?_, ?_, ?_, ?_, ?_⟩
  · simpa only [Selection.mem_pairs] using hrequested
  · exact fun later pair h => (steps_performAll store later).isRequested h
  · exact fun locale hlocale moduleId hmodule =>
      hledger.selected ⟨locale, moduleId⟩ (Selection.mem_pairs.2 ⟨hlocale, hmodule⟩)
  · intro pair
    -- the ledger counts futures that are over, and the cells agree with them
    rw [hagrees.isLoaded_eq]
    refine ⟨hledger.count_scheduled pair, ?_, ?_, hledger.settled pair⟩
    · rw [hledger.count_hooked, notifies, hhook]
    · rw [hledger.count_asked, hloader]
  · intro command
    refine ⟨selection_perform hregistered command, ?_⟩
    rw [← hhook]
    exact hledger.pairsAt_perform hregistered command
  · intro pair
    refine ⟨Iff.rfl, isRequested_of_isLoaded, ?_⟩
    rw [notifies, Bool.and_eq_true, hhook, and_comm]

end Store

end Phrasebook
