import Phrasebook.Store.Delivery
import Phrasebook.Store.Waiting

/-!
# Steps of a store

Whatever is asked of a store comes down to a few kinds of steps: a load is driven, the locales or the modules
are replaced, or handlers are dealt with. A `History` joins steps and what they tell, and every operation of a
store is one (`drives_await`, `drives_yield`, `steps_run`), so what each step keeps, every operation keeps.
First of all, a resource that is there stays (`History.resource?_eq_some`).
-/

namespace Phrasebook

/-- Whether an event is about subscriptions and not about loads. -/
def Event.isDelivery : Event → Bool
  | .delivered _ _ => true
  | .unsubscribed _ _ => true
  | _ => false

/-- Whether an event is about loads. -/
def Event.isLoading : Event → Bool
  | .scheduled _ | .hooked _ | .opening _ | .asked _ | .loaded _ | .loadFailed _ => true
  | _ => false

namespace Store

/-! ## What the operations do to records -/

variable {store : Store} {pair : Pair}

/-- A pair is requested exactly if it is among the pairs of the records. -/
theorem isRequested_iff : store.isRequested pair = true ↔ pair ∈ store.records.map Prod.fst := by
  simp only [isRequested, record?, List.lookup_isSome_iff, List.mem_map, beq_iff_eq]
  exact exists_congr fun record => and_congr_right fun _ => eq_comm

/-- Only the pairs of the records count, not how far their loads have come. -/
theorem isRequested_congr {store final : Store} (h : final.records.map Prod.fst = store.records.map Prod.fst)
    (pair : Pair) : final.isRequested pair = store.isRequested pair := by
  rw [Bool.eq_iff_iff, isRequested_iff, isRequested_iff, h]

/-- A pair has a record exactly if it has a future. -/
theorem isRequested_eq_isSome_progress? (store : Store) (pair : Pair) :
    store.isRequested pair = (store.progress? pair).isSome := by
  rw [isRequested, progress?, Option.isSome_map]

/-- A load whose cell is filled was started. -/
theorem isRequested_of_isLoaded (h : store.isLoaded pair = true) : store.isRequested pair = true := by
  rw [isRequested]
  rw [isLoaded, resource?] at h
  cases hrecord : store.record? pair with
  | none => simp [hrecord] at h
  | some record => rfl

/-- A future gives a resource exactly if it has come to it. -/
theorem output?_eq_some_iff {output : Resource} :
    store.output? pair = some output ↔ store.progress? pair = some (.settled output) := by
  rw [output?]
  rcases store.progress? pair with _ | polls | settled <;> simp [Progress.output?]

/-- Among records made for pairs, those pairs have theirs and no other pair has one. -/
theorem lookup_map_pair (pairs : List Pair) (record : Pair → LoadRecord) (pair : Pair) :
    (pairs.map fun p => (p, record p)).lookup pair = if pair ∈ pairs then some (record pair) else none := by
  induction pairs with
  | nil => rfl
  | cons head tail ih =>
    rw [List.map_cons, Entries.lookup_cons, ih]
    by_cases h : pair = head
    · simp [h]
    · simp [h]

/-- Selecting gives the selected pairs a record and leaves those alone that have one. -/
theorem record?_select (store : Store) (selection : Selection) (pair : Pair) :
    (store.select selection).1.record? pair =
      (store.record? pair).or
        (if pair ∈ selection.pairs then some { future := .pending (store.loader.delay pair) } else none) := by
  have hstarted : pair ∈ unrequested { store with selection } ↔
      pair ∈ selection.pairs ∧ store.record? pair = none := by
    -- a record is made for a selected pair exactly if there is none
    simp [unrequested, isRequested, record?]
  simp only [select, reconcile, record?, List.lookup_append, lookup_map_pair, hstarted]
  cases store.records.lookup pair with
  | none => simp
  | some record => simp

/-- A load that is started is asked as often as the loader wants for its pair. -/
theorem progress?_select (store : Store) (selection : Selection) (pair : Pair) :
    (store.select selection).1.progress? pair =
      (store.progress? pair).or
        (if pair ∈ selection.pairs then some (.pending (store.loader.delay pair)) else none) := by
  rw [progress?, progress?, record?_select]
  cases store.record? pair with
  | none => by_cases h : pair ∈ selection.pairs <;> simp [h]
  | some record => rfl

/-- Selecting fills no cell. -/
@[simp] theorem resource?_select (store : Store) (selection : Selection) (pair : Pair) :
    (store.select selection).1.resource? pair = store.resource? pair := by
  rw [resource?, resource?, record?_select]
  cases store.record? pair with
  | none => by_cases h : pair ∈ selection.pairs <;> simp [h]
  | some record => rfl

/-- Selecting brings no future to its end. -/
@[simp] theorem output?_select (store : Store) (selection : Selection) (pair : Pair) :
    (store.select selection).1.output? pair = store.output? pair := by
  rw [output?, output?, progress?_select]
  cases store.progress? pair with
  | none => by_cases h : pair ∈ selection.pairs <;> simp [h, Progress.output?]
  | some progress => rfl

/-- After selecting, the selected pairs have a record besides those that had one before. -/
theorem isRequested_select (store : Store) (selection : Selection) (pair : Pair) :
    (store.select selection).1.isRequested pair = true ↔
      store.isRequested pair = true ∨ pair ∈ selection.pairs := by
  rw [isRequested, isRequested, record?_select]
  cases store.record? pair with
  | none => by_cases h : pair ∈ selection.pairs <;> simp [h]
  | some record => simp

/-- Only the record of the pair changes, and only if there is one. -/
theorem record?_updateRecord (store : Store) (pair other : Pair) (change : LoadRecord → LoadRecord) :
    (store.updateRecord pair change).record? other =
      if other = pair then (store.record? other).map change else store.record? other := by
  simp only [updateRecord, record?]
  -- record by record; a pair may be listed twice here, so both the key and the pair asked for are compared
  induction store.records with
  | nil => simp
  | cons entry records ih =>
    obtain ⟨key, record⟩ := entry
    rw [List.map_cons, Entries.lookup_cons]
    by_cases hkey : key = pair
    · subst hkey
      rw [if_pos rfl, Entries.lookup_cons, ih]
      by_cases hother : other = key
      · simp [hother]
      · simp [hother]
    · rw [if_neg hkey, Entries.lookup_cons, ih]
      by_cases hother : other = key
      · have : other ≠ pair := fun h => hkey (hother.symm.trans h)
        simp [hother, hkey]
      · simp [hother]

/-- What becomes of a future does not depend on the cell beside it. -/
theorem progress?_updateRecord {change : LoadRecord → LoadRecord} {progress : Progress}
    (hchange : ∀ record, (change record).future = progress) (store : Store) (pair other : Pair) :
    (store.updateRecord pair change).progress? other =
      if other = pair then (store.progress? other).map fun _ => progress else store.progress? other := by
  rw [progress?, progress?, record?_updateRecord]
  by_cases h : other = pair
  · rw [if_pos h, if_pos h]
    cases store.record? other with
    | none => rfl
    | some record => simp [hchange]
  · rw [if_neg h, if_neg h]

/-- Changing a record changes no pair and no order. -/
theorem map_fst_updateRecord (store : Store) (pair : Pair) (change : LoadRecord → LoadRecord) :
    (store.updateRecord pair change).records.map Prod.fst = store.records.map Prod.fst := by
  rw [updateRecord, List.map_map]
  refine List.map_congr_left fun record _ => ?_
  by_cases h : record.1 = pair
  · simp [h]
  · simp [h]

/-! ### Polling -/

/-- The last poll of a future ends its load. -/
theorem poll_of_pending_zero (h : store.progress? pair = some (.pending 0)) :
    ∃ opening : List String, store.poll pair =
      (store.updateRecord pair (·.settle (store.outcome pair).1),
        opening.map Event.opening ++ (store.outcome pair).2) := by
  simp only [poll, h]
  split
  · exact ⟨_, rfl⟩
  · exact ⟨[], rfl⟩

/-- Any other poll of a future brings its load one step further. -/
theorem poll_of_pending_succ {polls : Nat} (h : store.progress? pair = some (.pending (polls + 1))) :
    ∃ opening : List String, store.poll pair =
      (store.updateRecord pair (·.tick polls), opening.map Event.opening) := by
  simp only [poll, h]
  split
  · exact ⟨_, rfl⟩
  · exact ⟨[], rfl⟩

/-- Polling a future that is over does nothing. -/
theorem poll_of_settled {output : Resource} (h : store.progress? pair = some (.settled output)) :
    store.poll pair = (store, []) := by
  simp only [poll, h]

/-- Polling a pair without a record does nothing. -/
theorem poll_of_none (h : store.progress? pair = none) : store.poll pair = (store, []) := by
  simp only [poll, h]

/-- A poll changes the record of its pair, if anything: a filled cell stays as it is, and a future that is over has
no further to go. -/
theorem poll_cases (store : Store) (pair : Pair) :
    (store.poll pair).1 = store ∨ ∃ change : LoadRecord → LoadRecord,
      (store.poll pair).1 = store.updateRecord pair change ∧ store.output? pair = none ∧
        ∀ record resource, record.cell = some resource → (change record).cell = some resource := by
  rcases h : store.progress? pair with _ | (_ | polls) | output
  · exact .inl (by rw [poll_of_none h])
  · obtain ⟨opening, hpoll⟩ := poll_of_pending_zero h
    refine .inr ⟨(·.settle (store.outcome pair).1), by rw [hpoll], by rw [output?, h]; rfl, ?_⟩
    intro record resource hcell
    simp [LoadRecord.settle, hcell]
  · obtain ⟨opening, hpoll⟩ := poll_of_pending_succ h
    exact .inr ⟨(·.tick polls), by rw [hpoll], by rw [output?, h]; rfl, fun record resource hcell => hcell⟩
  · exact .inl (by rw [poll_of_settled h])

/-- Polling changes records only: the pairs with a record stay the same, and so does all that is no record. -/
theorem poll_eq (store : Store) (pair : Pair) :
    ∃ records : List (Pair × LoadRecord), records.map Prod.fst = store.records.map Prod.fst ∧
      (store.poll pair).1 = { store with records } := by
  rcases poll_cases store pair with hpoll | ⟨change, hpoll, -, -⟩
  · rw [hpoll]
    exact ⟨_, rfl, rfl⟩
  · rw [hpoll]
    exact ⟨_, map_fst_updateRecord store pair change, rfl⟩

/-- A cell that is filled keeps what it holds when a future is polled. -/
theorem resource?_poll_eq_some {other : Pair} {resource : Resource}
    (h : store.resource? other = some resource) : (store.poll pair).1.resource? other = some resource := by
  rcases poll_cases store pair with hpoll | ⟨change, hpoll, -, hkeep⟩
  · rwa [hpoll]
  · rw [hpoll, resource?, record?_updateRecord]
    obtain ⟨record, hrecord, hcell⟩ := Option.bind_eq_some_iff.1 h
    by_cases heq : other = pair
    · rw [if_pos heq, hrecord]
      exact hkeep record resource hcell
    · rw [if_neg heq, hrecord]
      exact hcell

/-- A future that is over keeps what it came to when one is polled. -/
theorem output?_poll_eq_some {other : Pair} {output : Resource}
    (h : store.output? other = some output) : (store.poll pair).1.output? other = some output := by
  rcases poll_cases store pair with hpoll | ⟨change, hpoll, hnone, -⟩
  · rwa [hpoll]
  · -- the record that changes is of a pending load, and `other` has none
    have hne : other ≠ pair := by
      rintro rfl
      simp [h] at hnone
    rwa [hpoll, output?, progress?, record?_updateRecord, if_neg hne]

/-! ## Steps and histories -/

/-- Loads are driven: one is polled, or loads queue up differently. -/
inductive Drive : Store → List Event → Store → Prop
  | poll (store : Store) (pair : Pair) : Drive store (store.poll pair).2 (store.poll pair).1
  | enqueue (store : Store) (queue : List Pair) : Drive store [] { store with queue }

/-- One step of a store, with what it tells. -/
inductive Step : Store → List Event → Store → Prop
  | drive {start final : Store} {events : List Event} (driven : Drive start events final) :
      Step start events final
  | setLocales (store : Store) (locales : List Locale) :
      Step store (store.select (store.selection.withLocales locales)).2
        (store.select (store.selection.withLocales locales)).1
  | setModules (store : Store) (modules : List ModuleId) :
      Step store (store.select (store.selection.withModules modules)).2
        (store.select (store.selection.withModules modules)).1
  /-- Handlers are registered, called or removed. -/
  | deliver (store : Store) (handlers : List Handler) (registered : List Nat) {events : List Event}
      (quiet : ∀ event ∈ events, event.isDelivery = true) :
      Step store events { store with handlers, registered }

/-- A history of a store: steps of a kind one after another, with all that they tell. -/
inductive History (Kind : Store → List Event → Store → Prop) : Store → List Event → Store → Prop
  | refl (store : Store) : History Kind store [] store
  | head {start middle final : Store} {events later : List Event} (step : Kind start events middle)
      (rest : History Kind middle later final) : History Kind start (events ++ later) final

namespace History

variable {Kind Other : Store → List Event → Store → Prop} {start middle final : Store}
  {events later : List Event}

/-- One step is a history. -/
theorem single (step : Kind start events final) : History Kind start events final := by
  simpa using head step (refl final)

/-- Histories can be put one behind the other. -/
theorem trans (h : History Kind start events middle) (h' : History Kind middle later final) :
    History Kind start (events ++ later) final := by
  induction h with
  | refl => exact h'
  | head step _ ih => simpa [List.append_assoc] using head step (ih h')

/-- Steps that are also steps of another kind make a history of that kind. -/
theorem mono (hkind : ∀ {start events final}, Kind start events final → Other start events final)
    (h : History Kind start events final) : History Other start events final := by
  induction h with
  | refl => exact refl _
  | head step _ ih => exact head (hkind step) ih

/-- What is so of all that steps tell, is so of all that a history tells. -/
theorem forall_told {P : Event → Prop}
    (told : ∀ {start events final}, Kind start events final → ∀ event ∈ events, P event)
    (h : History Kind start events final) : ∀ event ∈ events, P event := by
  induction h with
  | refl => simp
  | head step _ ih => exact List.forall_mem_append.2 ⟨told step, ih⟩

/-- What every step keeps, a history keeps. -/
theorem induct {P : Store → Prop}
    (keep : ∀ {start events final}, Kind start events final → P start → P final)
    (h : History Kind start events final) (hstart : P start) : P final := by
  induction h with
  | refl => exact hstart
  | head step _ ih => exact ih (keep step hstart)

end History

/-! ### Waiting drives loads -/

/-- Polling pairs one after another drives loads. -/
theorem drives_pollEach (store : Store) (pairs : List Pair) :
    History Drive store (store.pollEach pairs).2 (store.pollEach pairs).1 := by
  induction pairs generalizing store with
  | nil => exact .refl store
  | cons pair pairs ih => exact (History.single (.poll store pair)).trans (ih _)

/-- So does the background, which takes a load from the queue and puts it back if it is not over. -/
theorem drives_advance (store : Store) (steps : Nat) :
    History Drive store (store.advance steps).2 (store.advance steps).1 := by
  induction steps generalizing store with
  | zero => exact .refl store
  | succ steps ih =>
    rw [advance]
    split
    · exact .refl store
    · rename_i pair queue _
      -- off the queue, polled, and back on it unless the load is over: three drives, then the rest
      have hpolled := (History.single (Drive.enqueue store queue)).trans
        (History.single (Drive.poll { store with queue } pair))
      have hrequeued (polled : Store) : History Drive polled [] (if polled.isOver pair then polled
          else { polled with queue := polled.queue ++ [pair] }) := by
        split
        · exact .refl polled
        · exact .single (.enqueue polled _)
      exact hpolled.trans ((hrequeued _).trans (ih _))

/-- Polling a wait polls the futures that it has not seen over. -/
theorem drives_resume (store : Store) (wait : Wait) :
    History Drive store (store.resume wait).2.1 (store.resume wait).1 :=
  drives_pollEach store wait.pending

/-- Polling a wait until it is over drives loads, those of the background between two polls included. -/
theorem drives_finish (store : Store) (wait : Wait) (rounds : Nat) :
    History Drive store (store.finish wait rounds).2.1 (store.finish wait rounds).1 := by
  induction rounds generalizing store wait with
  | zero => exact drives_resume store wait
  | succ rounds ih =>
    rw [finish]
    split
    · exact drives_resume store wait
    · exact ((drives_resume store wait).trans (drives_advance _ burstLength)).trans (ih _ _)

/-- Awaiting pairs drives loads. -/
theorem drives_await (store : Store) (pairs : List Pair) :
    History Drive store (store.await pairs).2 (store.await pairs).1 :=
  drives_finish store ⟨pairs⟩ _

/-- Leaving the background to itself drives loads. -/
theorem drives_yield (store : Store) (turns : Nat) :
    History Drive store (store.yield turns).2 (store.yield turns).1 := by
  induction turns generalizing store with
  | zero => exact .refl store
  | succ turns ih => exact (drives_advance store burstLength).trans (ih _)

/-! ### Delivery is a history -/

/-- The selection that an action puts in place of the present one, if it does. -/
def chosen? (store : Store) : Action → Option Selection
  | .setLocales locales => some (store.selection.withLocales locales)
  | .setModules modules => some (store.selection.withModules modules)
  | .unsubscribe _ => none

/-- An action that chooses a selection selects it and sets off the calls that tell about it. -/
theorem act_of_chosen {store : Store} {action : Action} {selection : Selection}
    (h : store.chosen? action = some selection) :
    store.act action =
      ((store.select selection).1, (store.select selection).1.calls, (store.select selection).2) := by
  cases action with
  | setLocales locales =>
    obtain rfl := Option.some.inj h
    rfl
  | setModules modules =>
    obtain rfl := Option.some.inj h
    rfl
  | unsubscribe label => simp [chosen?] at h

/-- Calling a handler is a step at most. -/
theorem steps_answer (store : Store) (id : Nat) (selection : Selection) :
    History Step store (store.answer id selection).2.2 (store.answer id selection).1 := by
  have hquiet (label : String) : ∀ event ∈ [Event.delivered label selection], event.isDelivery = true := by
    simp [Event.isDelivery]
  unfold answer
  split
  · exact .refl store
  · rename_i handler _
    split
    · exact .single (.deliver store store.handlers store.registered (hquiet handler.label))
    · exact .single (.deliver store _ store.registered (hquiet handler.label))

/-- An action is a step. -/
theorem steps_act (store : Store) (action : Action) :
    History Step store (store.act action).2.2 (store.act action).1 := by
  have hquiet (label : String) (removed : Bool) :
      ∀ event ∈ [Event.unsubscribed label removed], event.isDelivery = true := by
    simp [Event.isDelivery]
  cases action with
  | setLocales locales => exact .single (.setLocales store locales)
  | setModules modules => exact .single (.setModules store modules)
  | unsubscribe label =>
    simp only [act]
    split
    · exact .single (.deliver store store.handlers store.registered (hquiet label false))
    · exact .single (.deliver store store.handlers _ (hquiet label _))

/-- Doing tasks is a history, whatever the handlers do in their calls. -/
theorem steps_run (store : Store) (tasks : List Task) :
    History Step store (store.run tasks).2 (store.run tasks).1 := by
  -- along the recursion of `run`, since a task sets off tasks that come before the others
  induction store, tasks using run.induct with
  | case1 store =>
    rw [run]
    exact .refl store
  | case2 store id selection tasks step ih =>
    rw [run]
    exact (steps_answer store id selection).trans ih
  | case3 store action tasks step ih =>
    rw [run]
    exact (steps_act store action).trans ih

/-- Subscribing is a history: the handler is registered and then called. -/
theorem steps_subscribe (store : Store) (handler : Handler) :
    History Step store (store.subscribe handler).2 (store.subscribe handler).1 := by
  have hquiet : ∀ event ∈ ([] : List Event), event.isDelivery = true := by simp
  exact (History.single (.deliver store _ _ hquiet)).trans (steps_run _ _)

/-- Removing a subscription is a step that tells nothing. -/
theorem steps_unsubscribe (store : Store) (id : Nat) : History Step store [] (store.unsubscribe id).1 :=
  .single (.deliver store store.handlers _ (by simp))

/-! ## What histories keep -/

variable {start final : Store} {events : List Event}

/-- Driving loads leaves everything but the records and the queue alone. -/
theorem Drive.eq (h : Drive start events final) :
    ∃ (records : List (Pair × LoadRecord)) (queue : List Pair),
      records.map Prod.fst = start.records.map Prod.fst ∧ final = { start with records, queue } := by
  cases h with
  | poll pair =>
    obtain ⟨records, hfst, hpoll⟩ := poll_eq start pair
    exact ⟨records, start.queue, hfst, hpoll⟩
  | enqueue queue => exact ⟨start.records, queue, rfl, rfl⟩

/-- Driving loads tells about loads only. -/
theorem Drive.isLoading (h : Drive start events final) : ∀ event ∈ events, event.isLoading = true := by
  have hopening (paths : List String) : ∀ event ∈ paths.map Event.opening, event.isLoading = true := by
    simp [Event.isLoading]
  cases h with
  | poll pair =>
    rcases hpair : start.progress? pair with _ | (_ | polls) | settled
    · simp [poll_of_none hpair]
    · obtain ⟨opening, hpoll⟩ := poll_of_pending_zero hpair
      rw [hpoll]
      refine List.forall_mem_append.2 ⟨hopening opening, ?_⟩
      simp only [outcome]
      cases start.loader.announces <;> cases start.loader.load pair <;> simp [Event.isLoading]
    · obtain ⟨opening, hpoll⟩ := poll_of_pending_succ hpair
      rw [hpoll]
      exact hopening opening
    · simp [poll_of_settled hpair]
  | enqueue queue => simp

/-- Selecting tells about loads only. -/
theorem isLoading_select (store : Store) (selection : Selection) :
    ∀ event ∈ (store.select selection).2, event.isLoading = true := by
  intro event hmem
  obtain ⟨pair, -, htold⟩ := List.mem_flatMap.1 hmem
  rcases List.mem_cons.1 htold with rfl | hhooked
  · rfl
  · split at hhooked
    · rw [List.mem_singleton.1 hhooked]
      rfl
    · simp at hhooked

/-- A step tells about loads or about subscriptions. -/
theorem Step.isLoading_or_isDelivery (h : Step start events final) :
    ∀ event ∈ events, event.isLoading = true ∨ event.isDelivery = true := by
  cases h with
  | drive driven => exact fun event hmem => .inl (driven.isLoading event hmem)
  | setLocales locales => exact fun event hmem => .inl (isLoading_select start _ event hmem)
  | setModules modules => exact fun event hmem => .inl (isLoading_select start _ event hmem)
  | deliver handlers registered quiet => exact fun event hmem => .inr (quiet event hmem)

/-- A resource that is there stays: no step empties a cell or fills it anew. -/
theorem History.resource?_eq_some (h : History Step start events final) {resource : Resource}
    (hstart : start.resource? pair = some resource) : final.resource? pair = some resource := by
  refine h.induct (P := fun store => store.resource? pair = some resource) (fun step hresource => ?_) hstart
  cases step with
  | drive driven =>
    cases driven with
    | poll => exact resource?_poll_eq_some hresource
    | enqueue => exact hresource
  | setLocales => rwa [resource?_select]
  | setModules => rwa [resource?_select]
  | deliver => exact hresource

/-- A future that is over stays over, and gives the same to all. -/
theorem History.output?_eq_some (h : History Step start events final) {output : Resource}
    (hstart : start.output? pair = some output) : final.output? pair = some output := by
  refine h.induct (P := fun store => store.output? pair = some output) (fun step houtput => ?_) hstart
  cases step with
  | drive driven =>
    cases driven with
    | poll => exact output?_poll_eq_some houtput
    | enqueue => exact houtput
  | setLocales => rwa [output?_select]
  | setModules => rwa [output?_select]
  | deliver => exact houtput

/-- A record that is there stays. -/
theorem History.isRequested (h : History Step start events final) (hstart : start.isRequested pair = true) :
    final.isRequested pair = true := by
  refine h.induct (P := fun store => store.isRequested pair = true) (fun step hrequested => ?_) hstart
  cases step with
  | drive driven =>
    obtain ⟨records, queue, hfst, rfl⟩ := driven.eq
    exact (isRequested_congr hfst pair).trans hrequested
  | setLocales => exact (isRequested_select _ _ _).2 (.inl hrequested)
  | setModules => exact (isRequested_select _ _ _).2 (.inl hrequested)
  | deliver => exact hrequested

end Store

end Phrasebook
