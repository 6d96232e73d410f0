import Phrasebook.Proofs.Store.Subscription

/-!
# The course of a session

Handlers can act on the store while they are called, so a change can begin while another one is still being told.
`Store.course` writes down every single thing that is done in a session, with the state that it finds and all that
waits behind it, and a session is nothing but its course (`course_serveAll`). What one errand can do is said once
(`take_cases`): it makes a choice and sets off the calls that tell it, or it makes a subscription, or it calls nobody.
-/

namespace Phrasebook.Store

/-- Something to be done in a session: a task that a request has set off, or a request. -/
inductive Errand where
  | task (task : Task)
  | request (request : Request)
  deriving DecidableEq, Repr

namespace Errand

/-- The selection with which an errand calls a subscription, if it does. -/
def call? (id : Nat) : Errand → Option Selection
  | .task (.call other selection) => if other = id then some selection else none
  | _ => none

/-- The selection that an errand chooses in place of the present one, if it does. -/
def choice? (selection : Selection) : Errand → Option Selection
  | .task (.act (.setLocales locales)) => some (selection.withLocales locales)
  | .task (.act (.setModules modules)) => some (selection.withModules modules)
  | _ => none

end Errand

/-- The selections with which errands call a subscription, in order. -/
def callsOf (id : Nat) (errands : List Errand) : List Selection :=
  errands.filterMap (Errand.call? id)

/-- The calls among errands come in the order of the errands. -/
@[simp] theorem callsOf_append (id : Nat) (errands later : List Errand) :
    callsOf id (errands ++ later) = callsOf id errands ++ callsOf id later :=
  List.filterMap_append

/-- The first errand is a call or adds nothing to the calls. -/
theorem callsOf_cons (id : Nat) (errand : Errand) (errands : List Errand) :
    callsOf id (errand :: errands) = (errand.call? id).toList ++ callsOf id errands := by
  rw [callsOf, List.filterMap_cons]
  cases errand.call? id <;> rfl

/-- The action that a command comes down to, if it changes the selection. -/
def Command.action? : Command → Option Action
  | .setLocales locales => some (.setLocales locales)
  | .setModules modules => some (.setModules modules)
  | .poll _ | .await _ | .yield _ => none

/-- Do an errand: the new state, what has to be done before all that waits, and what happens at once. -/
def take (store : Store) : Errand → Store × List Errand × List Event
  | .task (.call id selection) =>
    let step := store.answer id selection
    (step.1, step.2.1.map fun action => .task (.act action), step.2.2)
  | .task (.act action) =>
    let step := store.act action
    (step.1, step.2.1.map .task, step.2.2)
  | .request (.command command) =>
    match command.action? with
    | some action => (store, [.task (.act action)], [])
    | none =>
      let step := store.perform command
      (step.1, [], step.2)
  | .request (.subscribe handler) =>
    (store.join handler, [.task (.call store.handlers.length store.selection)], [])
  | .request (.unsubscribe id) => ((store.unsubscribe id).1, [], [])

/-! ## What an errand can do -/

/-- An errand that leaves the selection and makes no subscription: handlers may be removed, and nobody is called
next. -/
structure Quiet (store next : Store) (setOff : List Errand) : Prop where
  selection_eq : next.selection = store.selection
  registered_sublist : next.registered.Sublist store.registered
  length_eq : next.handlers.length = store.handlers.length
  acts : ∀ errand ∈ setOff, ∃ action, errand = .task (.act action)

variable {store : Store}

/-- A quiet errand sets off no calls. -/
theorem Quiet.callsOf {next : Store} {setOff : List Errand} (h : Quiet store next setOff) (id : Nat) :
    callsOf id setOff = [] := by
  refine List.filterMap_eq_nil_iff.2 fun errand hmem => ?_
  obtain ⟨action, rfl⟩ := h.acts errand hmem
  rfl

/-- Calling a handler is quiet: what the handler asks for is done later, as actions. -/
theorem quiet_answer (store : Store) (id : Nat) (selection : Selection) :
    Quiet store (store.take (.task (.call id selection))).1 (store.take (.task (.call id selection))).2.1 := by
  have hacts (actions : List Action) :
      ∀ errand ∈ actions.map fun action => Errand.task (.act action), ∃ action, errand = .task (.act action) := by
    simp
  simp only [take, answer]
  split
  · exact ⟨rfl, .refl _, rfl, hacts []⟩
  · split
    · exact ⟨rfl, .refl _, rfl, hacts []⟩
    · exact ⟨rfl, .refl _, List.length_set, hacts _⟩

/-- Selecting tells the registered subscriptions and leaves the handlers alone. -/
theorem calls_select (store : Store) (selection : Selection) :
    (store.select selection).1.calls = store.registered.map fun id => .call id selection :=
  rfl

/-- An errand makes a choice and sets off the calls that tell it, or it makes a subscription and sets off its first
call, or it is quiet. -/
theorem take_cases (store : Store) (errand : Errand) :
    (∃ selection, errand.choice? store.selection = some selection ∧
        (store.take errand).1 = (store.select selection).1 ∧
        (store.take errand).2.1 = store.registered.map fun id => .task (.call id selection)) ∨
      (∃ handler, errand = .request (.subscribe handler) ∧ (store.take errand).1 = store.join handler ∧
        (store.take errand).2.1 = [.task (.call store.handlers.length store.selection)]) ∨
      errand.choice? store.selection = none ∧ Quiet store (store.take errand).1 (store.take errand).2.1 := by
  -- commands that only drive loads touch neither the selection nor the subscriptions
  have hdrives {events : List Event} {next : Store} (h : History Drive store events next) : Quiet store next [] := by
    obtain ⟨records, queue, -, rfl⟩ := h.drives_eq
    exact ⟨rfl, .refl _, rfl, by simp⟩
  cases errand with
  | task task =>
    cases task with
    | call id selection => exact .inr (.inr ⟨rfl, quiet_answer store id selection⟩)
    | act action =>
      cases action with
      | setLocales locales => exact .inl ⟨_, rfl, rfl, by simp [take, act, calls_select]⟩
      | setModules modules => exact .inl ⟨_, rfl, rfl, by simp [take, act, calls_select]⟩
      | unsubscribe label =>
        refine .inr (.inr ⟨rfl, ?_⟩)
        simp only [take, act]
        split
        · exact ⟨rfl, .refl _, rfl, by simp⟩
        · exact ⟨rfl, List.filter_sublist, rfl, by simp⟩
  | request request =>
    cases request with
    | command command =>
      refine .inr (.inr ⟨rfl, ?_⟩)
      cases command with
      | setLocales locales => exact ⟨rfl, .refl _, rfl, by simp [take, Command.action?]⟩
      | setModules modules => exact ⟨rfl, .refl _, rfl, by simp [take, Command.action?]⟩
      | poll pair => exact hdrives (.single (.poll store pair))
      | await pairs => exact hdrives (drives_await store pairs)
      | yield turns => exact hdrives (drives_yield store turns)
    | subscribe handler => exact .inr (.inl ⟨handler, rfl, rfl, rfl⟩)
    | unsubscribe id => exact .inr (.inr ⟨rfl, rfl, List.filter_sublist, rfl, by simp [take]⟩)

/-! ## The course -/

/-- A moment of a session: the state, what is done now, and all that waits behind it. -/
structure Moment where
  store : Store
  errand : Errand
  waiting : List Errand

/-- What happens at a moment. -/
def Moment.events (moment : Moment) : List Event :=
  (moment.store.take moment.errand).2.2

/-- Whether an errand is a request. -/
def Errand.isRequest : Errand → Bool
  | .request _ => true
  | .task _ => false

/-- Whether an errand is an action. -/
def Errand.isAction : Errand → Bool
  | .task (.act _) => true
  | _ => false

/-- Whether an errand is a call. -/
def Errand.isCall : Errand → Bool
  | .task (.call _ _) => true
  | _ => false

/-- What is left to do: requests, then actions that are planned or due, then calls. -/
def outstanding (store : Store) (errands : List Errand) : Nat × Nat × Nat :=
  (errands.countP Errand.isRequest, store.unspent + errands.countP Errand.isAction, errands.countP Errand.isCall)

/-- Tasks are no requests. -/
theorem countP_isRequest_tasks (tasks : List Task) : (tasks.map .task).countP Errand.isRequest = 0 := by
  simp [Errand.isRequest]

/-- Among tasks, seen as errands, there are as many actions as before. -/
theorem countP_isAction_tasks (tasks : List Task) : (tasks.map .task).countP Errand.isAction = actionCount tasks := by
  rw [List.countP_map, actionCount]
  refine List.countP_congr fun task _ => ?_
  cases task <;> simp [Errand.isAction]

/-- Less is outstanding after an errand than before it: what it sets off counts for less than the errand itself. -/
theorem outstanding_take (store : Store) (errand : Errand) (waiting : List Errand) :
    Prod.Lex (· < ·) (Prod.Lex (· < ·) (· < ·)) ((store.take errand).1.outstanding ((store.take errand).2.1 ++ waiting))
      (store.outstanding (errand :: waiting)) := by
  simp only [Prod.lex_def, outstanding, List.countP_append, List.countP_cons]
  cases errand with
  | task task =>
    cases task with
    | call id selection =>
      -- planned actions fall due, and there is one call less
      have hspent := unspent_answer store id selection
      simp [take, Function.comp_def, Errand.isRequest, Errand.isAction, Errand.isCall]
      omega
    | act action =>
      -- an action is gone, and the calls that it sets off count for less; handlers plan nothing new meanwhile
      have hspent := unspent_act store action
      have hcalls := actionCount_act store action
      rw [← countP_isAction_tasks] at hcalls
      have hnone := countP_isRequest_tasks (store.act action).2.1
      simp only [take, hnone, hcalls, hspent]
      simp [Errand.isRequest, Errand.isAction]
  | request request =>
    -- a request is gone, and what it sets off is no request
    left
    cases request with
    | command command =>
      simp only [take]
      split <;> simp [Errand.isRequest]
    | subscribe handler => simp [take, Errand.isRequest]
    | unsubscribe id => simp [take, Errand.isRequest]

/-- Do errands until none is left, the first one first and what it sets off before the others, and write down each
moment. -/
def course (store : Store) : List Errand → Store × List Moment
  | [] => (store, [])
  | errand :: waiting =>
    let step := store.take errand
    let rest := course step.1 (step.2.1 ++ waiting)
    (rest.1, ⟨store, errand, waiting⟩ :: rest.2)
termination_by errands => store.outstanding errands
decreasing_by exact outstanding_take store errand waiting

/-! ## A session is its course -/

/-- With nothing to do, nothing is done. -/
theorem course_nil (store : Store) : store.course [] = (store, []) := by
  rw [course]

/-- The first errand is done, and then what it has set off, before all that waits. -/
theorem course_cons (store : Store) (errand : Errand) (waiting : List Errand) :
    store.course (errand :: waiting) =
      let step := store.take errand
      let rest := step.1.course (step.2.1 ++ waiting)
      (rest.1, ⟨store, errand, waiting⟩ :: rest.2) := by
  rw [course]

/-- Errands lead from a state to another one and tell what happens on the way, whatever waits behind them. -/
def Leads (store : Store) (errands : List Errand) (final : Store) (events : List Event) : Prop :=
  ∀ waiting, ∃ moments : List Moment, moments.flatMap Moment.events = events ∧
    store.course (errands ++ waiting) = ((final.course waiting).1, moments ++ (final.course waiting).2)

/-- With no errands a state stays as it is, and nothing happens. -/
theorem Leads.nil (store : Store) : store.Leads [] store [] :=
  fun _ => ⟨[], rfl, rfl⟩

/-- An errand leads where the errands lead that it sets off. -/
theorem Leads.take {errand : Errand} {errands : List Errand} {final : Store} {events : List Event}
    (h : (store.take errand).1.Leads ((store.take errand).2.1 ++ errands) final events) :
    store.Leads (errand :: errands) final ((store.take errand).2.2 ++ events) := by
  intro waiting
  obtain ⟨moments, hevents, hcourse⟩ := h waiting
  refine ⟨⟨store, errand, errands ++ waiting⟩ :: moments, ?_, ?_⟩
  · rw [List.flatMap_cons, hevents, Moment.events]
  · rw [List.append_assoc] at hcourse
    rw [List.cons_append, course_cons]
    exact congrArg (fun rest => (rest.1, Moment.mk store errand (errands ++ waiting) :: rest.2)) hcourse

/-- An errand that sets nothing off is done at once. -/
theorem Leads.of_idle {errand : Errand} (h : (store.take errand).2.1 = []) :
    store.Leads [errand] (store.take errand).1 (store.take errand).2.2 := by
  have hrest : (store.take errand).1.Leads ((store.take errand).2.1 ++ []) (store.take errand).1 [] := by
    rw [h]
    exact .nil _
  simpa using hrest.take

/-- What leads on from where other errands have led, leads on behind them. -/
theorem Leads.append {errands later : List Errand} {middle final : Store} {events rest : List Event}
    (h : store.Leads errands middle events) (h' : middle.Leads later final rest) :
    store.Leads (errands ++ later) final (events ++ rest) := by
  intro waiting
  obtain ⟨moments, hevents, hcourse⟩ := h (later ++ waiting)
  obtain ⟨moments', hevents', hcourse'⟩ := h' waiting
  refine ⟨moments ++ moments', by rw [List.flatMap_append, hevents, hevents'], ?_⟩
  rw [List.append_assoc, hcourse, hcourse', List.append_assoc]

/-- Tasks lead where they run to. -/
theorem leads_run (store : Store) (tasks : List Task) :
    store.Leads (tasks.map .task) (store.run tasks).1 (store.run tasks).2 := by
  induction store, tasks using run.induct with
  | case1 store =>
    rw [run]
    exact .nil store
  | case2 store id selection tasks step ih =>
    rw [run]
    rw [List.map_append, List.map_map] at ih
    exact .take ih
  | case3 store action tasks step ih =>
    rw [run]
    rw [List.map_append] at ih
    exact .take ih

/-- A request leads where it is served to. -/
theorem leads_serve (store : Store) (request : Request) :
    store.Leads [.request request] (store.serve request).1 (store.serve request).2 := by
  cases request with
  | command command =>
    cases command with
    | setLocales locales => exact .take (leads_run store [.act (.setLocales locales)])
    | setModules modules => exact .take (leads_run store [.act (.setModules modules)])
    | poll pair => exact .of_idle rfl
    | await pairs => exact .of_idle rfl
    | yield turns => exact .of_idle rfl
  | subscribe handler =>
    exact .take (leads_run (store.join handler) [.call store.handlers.length store.selection])
  | unsubscribe id => exact .of_idle rfl

/-- A session ends as its course does, and what happens in it is what happens at the moments of its course. -/
theorem course_serveAll (store : Store) (requests : List Request) :
    (store.course (requests.map .request)).1 = (store.serveAll requests).1 ∧
      (store.course (requests.map .request)).2.flatMap Moment.events = (store.serveAll requests).2 := by
  -- with anything waiting behind, so that the first request can be followed by the rest
  have hleads : store.Leads (requests.map .request) (store.serveAll requests).1 (store.serveAll requests).2 := by
    induction requests generalizing store with
    | nil => exact .nil store
    | cons request requests ih => exact (leads_serve store request).append (ih (store.serve request).1)
  obtain ⟨moments, hevents, hcourse⟩ := hleads []
  rw [List.append_nil, course_nil] at hcourse
  rw [hcourse, List.append_nil]
  exact ⟨rfl, hevents⟩

/-! ## What a course keeps -/

/-- The state after a moment. -/
def Moment.next (moment : Moment) : Store :=
  (moment.store.take moment.errand).1

/-- What a moment sets off. -/
def Moment.setOff (moment : Moment) : List Errand :=
  (moment.store.take moment.errand).2.1

/-- What every errand keeps, with what it sets off put before all that waits, holds at every moment and at the end. -/
theorem course_induct {P : Store → List Errand → Prop}
    (keep : ∀ store errand waiting, P store (errand :: waiting) →
      P (store.take errand).1 ((store.take errand).2.1 ++ waiting))
    {errands : List Errand} (h : P store errands) :
    (∀ moment ∈ (store.course errands).2, P moment.store (moment.errand :: moment.waiting)) ∧
      P (store.course errands).1 [] := by
  induction store, errands using course.induct with
  | case1 store => rw [course_nil]; exact ⟨by simp, h⟩
  | case2 store errand waiting step ih =>
    obtain ⟨hmoments, hlast⟩ := ih (keep store errand waiting h)
    rw [course_cons]
    refine ⟨fun moment hmem => ?_, hlast⟩
    rcases List.mem_cons.1 hmem with rfl | hrest
    · exact h
    · exact hmoments moment hrest

/-- No errand sets a request off. -/
theorem isRequest_setOff (store : Store) (errand : Errand) :
    ∀ task ∈ (store.take errand).2.1, task.isRequest = false := by
  intro task hmem
  rcases take_cases store errand with ⟨selection, -, -, hset⟩ | ⟨handler, -, -, hset⟩ | ⟨-, hquiet⟩
  · rw [hset] at hmem
    obtain ⟨id, -, rfl⟩ := List.mem_map.1 hmem
    rfl
  · rw [hset] at hmem
    obtain rfl := List.mem_singleton.1 hmem
    rfl
  · obtain ⟨action, rfl⟩ := hquiet.acts task hmem
    rfl

/-- Who is called next is registered then. -/
theorem mem_registered_of_mem_setOff {errand : Errand} {id : Nat} {selection : Selection}
    (h : .task (.call id selection) ∈ (store.take errand).2.1) : id ∈ (store.take errand).1.registered := by
  rcases take_cases store errand with ⟨chosen, -, hnext, hset⟩ | ⟨handler, -, hnext, hset⟩ | ⟨-, hquiet⟩
  · rw [hset] at h
    obtain ⟨other, hother, heq⟩ := List.mem_map.1 h
    obtain ⟨rfl, rfl⟩ : other = id ∧ chosen = selection := by simpa using heq
    rw [hnext]
    exact hother
  · rw [hset] at h
    obtain ⟨rfl, rfl⟩ : id = store.handlers.length ∧ selection = store.selection := by simpa using h
    rw [hnext]
    exact List.mem_append_right _ (List.mem_singleton_self _)
  · obtain ⟨action, haction⟩ := hquiet.acts _ h
    simp at haction

/-- No subscription is ever forgotten, only removed. -/
theorem length_handlers_take (store : Store) (errand : Errand) :
    store.handlers.length ≤ (store.take errand).1.handlers.length := by
  rcases take_cases store errand with ⟨chosen, -, hnext, -⟩ | ⟨handler, -, hnext, -⟩ | ⟨-, hquiet⟩
  · rw [hnext]
    exact Nat.le_refl _
  · rw [hnext]
    simp [join]
  · exact Nat.le_of_eq hquiet.length_eq.symm

/-- An errand calls a subscription exactly if it is the call of that subscription. -/
theorem call?_eq_some_iff {id : Nat} {errand : Errand} {selection : Selection} :
    errand.call? id = some selection ↔ errand = .task (.call id selection) := by
  unfold Errand.call?
  split
  · rename_i other found
    by_cases h : other = id
    · simp [h]
    · simp [h]
  · rename_i hnone
    simp only [reduceCtorEq, false_iff]
    rintro rfl
    exact hnone id selection rfl

/-- The calls of a subscription are those among the errands. -/
theorem mem_callsOf_iff {id : Nat} {selection : Selection} {errands : List Errand} :
    selection ∈ callsOf id errands ↔ .task (.call id selection) ∈ errands := by
  simp only [callsOf, List.mem_filterMap, call?_eq_some_iff, exists_eq_right]

/-- A subscription is not called exactly if no call of it is among the errands. -/
theorem callsOf_eq_nil_iff {id : Nat} {errands : List Errand} :
    callsOf id errands = [] ↔ ∀ selection, .task (.call id selection) ∉ errands := by
  simp only [List.eq_nil_iff_forall_not_mem, mem_callsOf_iff]

/-- Telling subscriptions a selection calls each of them as often as it is listed. -/
theorem callsOf_tell (id : Nat) (selection : Selection) (ids : List Nat) :
    callsOf id (ids.map fun other => .task (.call other selection)) = List.replicate (ids.count id) selection := by
  induction ids with
  | nil => rfl
  | cons other ids ih =>
    rw [List.map_cons, callsOf_cons, ih]
    by_cases h : other = id
    · simp [h, Errand.call?, List.replicate_succ]
    · simp [h, Errand.call?]

/-- A session in order: subscriptions are registered in the order in which they were made, only those are called that
were made, and requests wait until all tasks are done. -/
structure InOrder (store : Store) (errands : List Errand) : Prop where
  increasing : store.registered.Pairwise (· < ·)
  lt_length : ∀ id ∈ store.registered, id < store.handlers.length
  issued : ∀ id selection, .task (.call id selection) ∈ errands → id < store.handlers.length
  requestsLast : errands.Pairwise fun errand later => errand.isRequest = true → later.isRequest = true

/-- At the beginning there are only requests to do, and nobody has subscribed. -/
theorem InOrder.fresh (loader : Loader) (hook background : Bool) (requests : List Request) :
    InOrder (Store.fresh loader hook background) (requests.map .request) :=
  ⟨List.Pairwise.nil, by simp [Store.fresh], by simp,
    List.pairwise_map.2 (List.pairwise_of_forall fun _ _ _ => rfl)⟩

/-- Doing an errand leaves a session in order. -/
theorem InOrder.take {errand : Errand} {waiting : List Errand} (h : InOrder store (errand :: waiting)) :
    InOrder (store.take errand).1 ((store.take errand).2.1 ++ waiting) := by
  have hregistered : (store.take errand).1.registered.Pairwise (· < ·) ∧
      ∀ id ∈ (store.take errand).1.registered, id < (store.take errand).1.handlers.length := by
    rcases take_cases store errand with ⟨chosen, -, hnext, -⟩ | ⟨handler, -, hnext, -⟩ | ⟨-, hquiet⟩
    · rw [hnext]
      exact ⟨h.increasing, h.lt_length⟩
    · rw [hnext]
      refine ⟨List.pairwise_append.2 ⟨h.increasing, List.pairwise_singleton _ _, ?_⟩, fun id hid => ?_⟩
      · simpa using h.lt_length
      · simp only [join, List.mem_append, List.mem_singleton, List.length_append, List.length_singleton] at hid ⊢
        rcases hid with hold | rfl
        · have := h.lt_length id hold
          omega
        · omega
    · refine ⟨h.increasing.sublist hquiet.registered_sublist, fun id hid => ?_⟩
      rw [hquiet.length_eq]
      exact h.lt_length id (hquiet.registered_sublist.subset hid)
  refine ⟨hregistered.1, hregistered.2, fun id selection hmem => ?_, ?_⟩
  · rcases List.mem_append.1 hmem with hset | hwaiting
    · exact hregistered.2 id (mem_registered_of_mem_setOff hset)
    · -- what waited calls subscriptions that were made before, and none of those is forgotten
      have := h.issued id selection (List.mem_cons_of_mem _ hwaiting)
      have := length_handlers_take store errand
      omega
  · -- what is set off are tasks, so they may stand before the requests that wait
    have htasks := isRequest_setOff store errand
    refine List.pairwise_append.2 ⟨?_, h.requestsLast.of_cons, fun task htask later _ hrequest => ?_⟩
    · refine List.pairwise_iff_forall_sublist.2 fun {task later} hsub hrequest => ?_
      rw [htasks task (hsub.subset List.mem_cons_self)] at hrequest
      contradiction
    · simp [htasks task htask] at hrequest

/-- A session in order is in order at every moment. -/
theorem InOrder.course {errands : List Errand} (h : InOrder store errands) :
    ∀ moment ∈ (store.course errands).2, InOrder moment.store (moment.errand :: moment.waiting) :=
  (course_induct (fun _ _ _ => InOrder.take) h).1

/-- Each call of a session in order invokes the handler of its subscription. -/
theorem InOrder.events_of_call {errands : List Errand} (h : InOrder store errands) {moment : Moment}
    (hmem : moment ∈ (store.course errands).2) {id : Nat} {selection : Selection}
    (hcall : moment.errand = .task (.call id selection)) :
    ∃ handler, moment.store.handlers[id]? = some handler ∧ moment.events = [.delivered handler.label selection] := by
  have hissued : id < moment.store.handlers.length := by
    refine (h.course moment hmem).issued id selection ?_
    rw [hcall]
    exact List.mem_cons_self
  refine ⟨moment.store.handlers[id], List.getElem?_eq_getElem hissued, ?_⟩
  rw [Moment.events, hcall, Store.take, answer, List.getElem?_eq_getElem hissued]
  simp only
  split <;> rfl

end Phrasebook.Store
