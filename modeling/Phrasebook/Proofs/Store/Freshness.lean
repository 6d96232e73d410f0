import Mathlib
import Phrasebook.Proofs.Store.Course

/-!
# The last selection that a subscription hears

A handler that changes the selection while it is told an older one has the new one told at once, and after that the
handlers behind it are told the older one. What a subscription hears last can be forecast all the time: it is the last
call that is due, or what was heard last if none is due, and only a change of the selection alters the forecast
(`Forecast.take`). Main statement: a subscription hears the current selection last, unless a call of it was still due
when the selection was last changed (`last_heard`).
-/

namespace Phrasebook.Store

/-- Whether an errand changes the selection. -/
def Errand.isChange : Errand → Bool
  | .task (.act (.setLocales _)) | .task (.act (.setModules _)) => true
  | _ => false

/-- An errand changes the selection exactly if it makes a choice. -/
theorem Errand.isSome_choice? (errand : Errand) (selection : Selection) :
    (errand.choice? selection).isSome = errand.isChange := by
  cases errand with
  | request request => rfl
  | task task =>
    cases task with
    | call id told => rfl
    | act action =>
      cases action with
      | setLocales locales => rfl
      | setModules modules => rfl
      | unsubscribe label => rfl

/-- An errand that makes a choice is a change. -/
theorem Errand.isChange_of_choice? {errand : Errand} {selection chosen : Selection}
    (h : errand.choice? selection = some chosen) : errand.isChange = true := by
  rw [← errand.isSome_choice? selection, h, Option.isSome_some]

/-- An errand that makes none is not. -/
theorem Errand.not_isChange_of_choice? {errand : Errand} {selection : Selection}
    (h : errand.choice? selection = none) : errand.isChange = false := by
  rw [← errand.isSome_choice? selection, h, Option.isSome_none]

/-- The last selection with which errands call a subscription. -/
def lastCall (id : Nat) (errands : List Errand) : Option Selection :=
  (callsOf id errands).getLast?

/-- The last call stands among the later errands, or else among the earlier ones. -/
theorem lastCall_append (id : Nat) (errands later : List Errand) :
    lastCall id (errands ++ later) = (lastCall id later).or (lastCall id errands) := by
  rw [lastCall, callsOf_append, List.getLast?_append]
  rfl

/-- A single errand is the last call if it is one at all. -/
theorem lastCall_singleton (id : Nat) (errand : Errand) : lastCall id [errand] = errand.call? id := by
  rw [lastCall, callsOf_cons]
  cases errand.call? id <;> rfl

/-- The first errand is the last call only if no call follows. -/
theorem lastCall_cons (id : Nat) (errand : Errand) (errands : List Errand) :
    lastCall id (errand :: errands) = (lastCall id errands).or (errand.call? id) := by
  rw [← List.singleton_append, lastCall_append, lastCall_singleton]

/-- There is no last call exactly if there is no call. -/
theorem lastCall_eq_none_iff {id : Nat} {errands : List Errand} :
    lastCall id errands = none ↔ ∀ selection, .task (.call id selection) ∉ errands := by
  rw [lastCall, List.getLast?_eq_none_iff, callsOf_eq_nil_iff]

/-- A change calls the registered subscriptions last with the selection that it chooses. -/
theorem lastCall_tell {id : Nat} {ids : List Nat} (h : id ∈ ids) (selection : Selection) :
    lastCall id (ids.map fun other => .task (.call other selection)) = some selection := by
  have hpos : ids.count id ≠ 0 := by
    have := List.count_pos_iff.2 h
    omega
  rw [lastCall, callsOf_tell, List.getLast?_replicate, if_neg hpos]

/-- What waited when the selection was last changed, or what is given if it was not. -/
def overdueSince (overdue : List Errand) (course : List Moment) : List Errand :=
  ((course.filter fun moment => moment.errand.isChange).getLast?.map Moment.waiting).getD overdue

/-- A change makes all overdue that waits behind it; anything else changes nothing about that. -/
theorem overdueSince_cons (overdue : List Errand) (moment : Moment) (course : List Moment) :
    overdueSince overdue (moment :: course) =
      overdueSince (if moment.errand.isChange then moment.waiting else overdue) course := by
  unfold overdueSince
  by_cases h : moment.errand.isChange = true
  · rw [List.filter_cons_of_pos (by simpa using h), List.getLast?_cons, if_pos h]
    cases (course.filter fun moment => moment.errand.isChange).getLast? <;> rfl
  · rw [List.filter_cons_of_neg (by simpa using h), if_neg h]

/-! ## Forecasts -/

variable {store : Store}

/-- What a subscription will have heard last if the selection is not changed any more: the selection of its last call
that was overdue when the selection was last changed, or else the current one. -/
structure Forecast (id : Nat) (heard : Option Selection) (overdue : List Errand) (store : Store)
    (errands : List Errand) : Prop where
  order : InOrder store errands
  issued : ∀ selection, .task (.call id selection) ∈ overdue → id < store.handlers.length
  told : id ∈ store.registered →
    (lastCall id errands).or heard = some ((lastCall id overdue).getD store.selection)

/-- A forecast stays right, and what is overdue changes with the selection only. -/
theorem Forecast.take {id : Nat} {heard : Option Selection} {overdue : List Errand} {errand : Errand}
    {waiting : List Errand} (h : Forecast id heard overdue store (errand :: waiting)) :
    Forecast id ((errand.call? id).or heard) (if errand.isChange then waiting else overdue) (store.take errand).1
      ((store.take errand).2.1 ++ waiting) := by
  have hlength := length_handlers_take store errand
  refine ⟨h.order.take, fun selection hmem => ?_, fun hregistered => ?_⟩
  · split at hmem
    · exact Nat.lt_of_lt_of_le (h.order.issued id selection (List.mem_cons_of_mem _ hmem)) hlength
    · exact Nat.lt_of_lt_of_le (h.issued selection hmem) hlength
  · have htold := h.told
    rw [lastCall_cons, Option.or_assoc] at htold
    rw [lastCall_append]
    rcases take_cases store errand with ⟨chosen, hchoice, hnext, hset⟩ | ⟨handler, rfl, hnext, hset⟩ | ⟨hchoice, hquiet⟩
    · -- all calls that were due are overdue now, and the new selection is told before them
      have hcalled : id ∈ store.registered := by
        rw [hnext] at hregistered
        exact hregistered
      rw [if_pos (Errand.isChange_of_choice? hchoice), hset, lastCall_tell hcalled, hnext]
      cases lastCall id waiting <;> rfl
    · rw [hset, hnext, lastCall_singleton]
      rw [hnext] at hregistered
      rcases List.mem_append.1 hregistered with hold | hnew
      · have hother : Errand.call? id (.task (.call store.handlers.length store.selection)) = none :=
          if_neg (Nat.ne_of_gt (h.order.lt_length id hold))
        rw [hother, Option.or_none]
        exact htold hold
      · -- nobody has called the new subscription before
        obtain rfl := List.mem_singleton.1 hnew
        have hwaiting : lastCall store.handlers.length waiting = none := by
          refine lastCall_eq_none_iff.2 fun selection hmem => ?_
          have := h.order.issued _ selection (List.mem_cons_of_mem _ hmem)
          omega
        have hoverdue : lastCall store.handlers.length overdue = none := by
          refine lastCall_eq_none_iff.2 fun selection hmem => ?_
          have := h.issued selection hmem
          omega
        simp [hwaiting, hoverdue, Errand.call?, Errand.isChange, join]
    · have hnone : lastCall id (store.take errand).2.1 = none := by
        rw [lastCall, hquiet.callsOf, List.getLast?_nil]
      -- the selection stays and so does what is overdue: the forecast is the one of before
      rw [Errand.not_isChange_of_choice? hchoice, hnone, Option.or_none, hquiet.selection_eq]
      exact htold (hquiet.registered_sublist.subset hregistered)

/-- At the end of a course nothing is due any more, so what was forecast was heard. -/
theorem Forecast.course {id : Nat} {heard : Option Selection} {overdue errands : List Errand}
    (h : Forecast id heard overdue store errands) :
    Forecast id ((lastCall id ((store.course errands).2.map Moment.errand)).or heard)
      (overdueSince overdue (store.course errands).2) (store.course errands).1 [] := by
  induction store, errands using course.induct generalizing heard overdue with
  | case1 store => rw [course_nil]; exact h
  | case2 store errand waiting step =>
    rename_i ih
    rw [course_cons, overdueSince_cons, List.map_cons, lastCall_cons, Option.or_assoc]
    exact ih h.take

/-- At the beginning nothing is foreseen, since nobody has subscribed. -/
theorem Forecast.fresh (loader : Loader) (hook background : Bool) (requests : List Request) (id : Nat) :
    Forecast id none [] (Store.fresh loader hook background) (requests.map .request) :=
  ⟨.fresh loader hook background requests, by simp, by simp [Store.fresh]⟩

/-! ## Who is never overdue -/

/-- An errand behind which a subscription is not called for anything that waits: a change, or the call of a
subscription that is not older. -/
def Errand.Shields (id : Nat) (errand : Errand) : Prop :=
  errand.isChange = true ∨ ∃ other selection, id ≤ other ∧ errand = .task (.call other selection)

/-- Whatever shields a subscription has no call of it behind. -/
def Shielded (id : Nat) (errands : List Errand) : Prop :=
  errands.Pairwise fun errand later => errand.Shields id → ∀ selection, later ≠ .task (.call id selection)

/-- A call hands over what its handler has planned, and removing a subscription sets nothing off. -/
theorem exists_call_of_act_mem {errand : Errand} {action : Action}
    (h : .task (.act action) ∈ (store.take errand).2.1) :
    errand.isRequest = true ∨ ∃ id selection, errand = .task (.call id selection) := by
  cases errand with
  | request request => exact .inl rfl
  | task task =>
    cases task with
    | call id selection => exact .inr ⟨id, selection, rfl⟩
    | act action =>
      cases action with
      | setLocales locales => simp [take, act, calls_select] at h
      | setModules modules => simp [take, act, calls_select] at h
      | unsubscribe label =>
        simp only [take, act] at h
        split at h <;> simp at h

/-- A subscription stays shielded as long as no call of an older one sets off a change. -/
theorem Shielded.take {id : Nat} {errand : Errand} {waiting : List Errand} (horder : InOrder store (errand :: waiting))
    (h : Shielded id (errand :: waiting))
    (holder : ∀ other selection, errand = .task (.call other selection) → other < id →
      ∀ later ∈ (store.take errand).2.1, later.isChange = false) :
    Shielded id ((store.take errand).2.1 ++ waiting) := by
  obtain ⟨hfirst, hwaiting⟩ := List.pairwise_cons.1 h
  -- behind a request there is no call at all
  have hrequest (hasked : errand.isRequest = true) :
      ∀ later ∈ waiting, ∀ selection, later ≠ .task (.call id selection) := by
    rintro later hlater selection rfl
    have := List.rel_of_pairwise_cons horder.requestsLast hlater hasked
    simp [Errand.isRequest] at this
  refine List.pairwise_append.2 ⟨?_, hwaiting, ?_⟩
  · rcases take_cases store errand with ⟨chosen, -, -, hset⟩ | ⟨handler, -, -, hset⟩ | ⟨-, hquiet⟩
    · rw [hset, List.pairwise_map]
      -- the calls of a change are in the order of the subscriptions, so none of an older one follows
      refine horder.increasing.imp fun {first second} hlt hshields selection heq => ?_
      obtain ⟨rfl, -⟩ : second = id ∧ chosen = selection := by simpa using heq
      rcases hshields with hchange | ⟨other, told, hle, hcall⟩
      · simp [Errand.isChange] at hchange
      · obtain ⟨rfl, -⟩ : first = other ∧ chosen = told := by simpa using hcall
        omega
    · rw [hset]
      exact List.pairwise_singleton _ _
    · refine List.pairwise_iff_forall_sublist.2 fun {first second} hsub _ selection heq => ?_
      obtain ⟨action, haction⟩ := hquiet.acts second (hsub.subset (by simp))
      simp [haction] at heq
  · intro due hdue later hlater hshields
    rcases take_cases store errand with ⟨chosen, hchoice, -, -⟩ | ⟨handler, rfl, -, -⟩ | ⟨-, hquiet⟩
    · -- the errand was a change itself, so nothing that waits behind it is a call of the subscription
      exact hfirst later hlater (.inl (Errand.isChange_of_choice? hchoice))
    · exact hrequest rfl later hlater
    · -- what is set off is an action, so it shields as a change does, and a request or a call has set it off
      obtain ⟨action, rfl⟩ := hquiet.acts due hdue
      rcases exists_call_of_act_mem hdue with hasked | ⟨other, selection, rfl⟩
      · exact hrequest hasked later hlater
      · rcases hshields with hchange | ⟨_, _, _, hcall⟩
        · have hle : id ≤ other := by
            by_contra hlt
            have hkept := holder other selection rfl (by omega) _ hdue
            rw [hchange] at hkept
            contradiction
          exact hfirst later hlater (.inr ⟨other, selection, hle, rfl⟩)
        · simp at hcall

/-- A subscription is not overdue at any change of a course in which no call of an older one sets off a change. -/
theorem Shielded.lastCall_waiting {id : Nat} {errands : List Errand} (horder : InOrder store errands)
    (h : Shielded id errands)
    (holder : ∀ moment ∈ (store.course errands).2, ∀ other selection, moment.errand = .task (.call other selection) →
      other < id → ∀ later ∈ moment.setOff, later.isChange = false) :
    ∀ moment ∈ (store.course errands).2, moment.errand.isChange = true → lastCall id moment.waiting = none := by
  induction store, errands using course.induct with
  | case1 store => simp [course_nil]
  | case2 store errand waiting step ih =>
    rw [course_cons] at holder ⊢
    intro moment hmem hchange
    rcases List.mem_cons.1 hmem with rfl | hrest
    · refine lastCall_eq_none_iff.2 fun selection hwaiting => ?_
      exact List.rel_of_pairwise_cons h hwaiting (.inl hchange) selection rfl
    · have hnext := h.take horder (holder _ List.mem_cons_self)
      exact ih horder.take hnext (fun later hlater => holder later (List.mem_cons_of_mem _ hlater)) moment hrest hchange

/-- Requests that wait can still call nobody. -/
theorem Shielded.requests (id : Nat) (requests : List Request) : Shielded id (requests.map .request) :=
  List.pairwise_map.2 (List.pairwise_of_forall fun _ _ _ _ => nofun)

/-- **A subscription hears the current selection last, unless it was overdue.** A session is its course. At its end
every registered subscription was called last with the current selection, unless a call of it waited when the selection
was last changed; then it was called last with the selection of the last such call. No call waited for a subscription if
no older one was called in the course and changed the selection in that call. -/
theorem last_heard (loader : Loader) (hook background : Bool) (requests : List Request) :
    let start := fresh loader hook background
    let course := (start.course (requests.map .request)).2
    let final := (start.serveAll requests).1
    course.flatMap Moment.events = (start.serveAll requests).2 ∧
    (∀ moment ∈ course, ∀ id selection, moment.errand = .task (.call id selection) →
      ∃ handler, moment.store.handlers[id]? = some handler ∧ moment.events = [.delivered handler.label selection]) ∧
    ∀ id ∈ final.registered,
      lastCall id (course.map Moment.errand) =
        some ((lastCall id (overdueSince [] course)).getD final.selection) ∧
      ((∀ moment ∈ course, ∀ other selection, moment.errand = .task (.call other selection) → other < id →
          ∀ errand ∈ moment.setOff, errand.isChange = false) →
        lastCall id (course.map Moment.errand) = some final.selection) := by
  intro start course final
  have hstart := InOrder.fresh loader hook background requests
  obtain ⟨hfinal, hevents⟩ := course_serveAll start requests
  refine ⟨hevents, fun _ hmem _ _ => hstart.events_of_call hmem, fun id hregistered => ?_⟩
  have htold : lastCall id (course.map Moment.errand) =
      some ((lastCall id (overdueSince [] course)).getD final.selection) := by
    have hforecast := (Forecast.fresh loader hook background requests id).course.told
    rw [hfinal, Option.or_none] at hforecast
    exact hforecast hregistered
  refine ⟨htold, fun holder => ?_⟩
  -- at the last change no call of the subscription was waiting
  have hnone : lastCall id (overdueSince [] course) = none := by
    unfold overdueSince
    cases hlast : (course.filter fun moment => moment.errand.isChange).getLast? with
    | none => rfl
    | some moment =>
      obtain ⟨hmem, hchange⟩ := List.mem_filter.1 (List.mem_of_getLast? hlast)
      exact (Shielded.requests id requests).lastCall_waiting hstart holder moment hmem hchange
  rw [htold, hnone]
  rfl

/-- The first of two listeners changes the modules while it is told the locales. Both stay registered; the first one
hears the new selection last, and the second one the old one, with which a call of it was overdue. -/
theorem last_heard_nested :
    let first : Handler := ⟨"first", [[], [.setModules [⟨"app"⟩]]]⟩
    let requests : List Request := [.subscribe first, .subscribe ⟨"second", []⟩, .command (.setLocales [⟨"en"⟩])]
    let course := ((fresh (.ofTable []) false false).course (requests.map .request)).2
    let final := ((fresh (.ofTable []) false false).serveAll requests).1
    (0 ∈ final.registered ∧ lastCall 0 (course.map Moment.errand) = some ⟨[⟨"en"⟩], [⟨"app"⟩]⟩) ∧
      1 ∈ final.registered ∧ lastCall 1 (course.map Moment.errand) = some ⟨[⟨"en"⟩], []⟩ := by
  intro first requests course final
  obtain ⟨-, -, hheard⟩ := last_heard (.ofTable []) false false requests
  have hregistered : final.registered = [0, 1] := by
    simp only [final, requests, first]
    cbv
  have hselection : final.selection = ⟨[⟨"en"⟩], [⟨"app"⟩]⟩ := by
    simp only [final, requests, first]
    cbv
  have hoverdue : lastCall 1 (overdueSince [] course) = some ⟨[⟨"en"⟩], []⟩ := by
    simp only [course, requests, first]
    cbv
  have hfirst : 0 ∈ final.registered := by simp [hregistered]
  have hsecond : 1 ∈ final.registered := by simp [hregistered]
  refine ⟨⟨hfirst, ?_⟩, hsecond, ?_⟩
  · rw [← hselection]
    exact (hheard 0 hfirst).2 fun _ _ _ _ _ hlt => absurd hlt (Nat.not_lt_zero _)
  · rw [(hheard 1 hsecond).1, hoverdue]
    rfl

/-- The second of two listeners is told the old selection after the new one. -/
theorem delivered_stale :
    let first : Handler := ⟨"first", [[], [.setModules [⟨"app"⟩]]]⟩
    let requests : List Request := [.subscribe first, .subscribe ⟨"second", []⟩, .command (.setLocales [⟨"en"⟩])]
    let run := (fresh (.ofTable []) false false).serveAll requests
    run.2 = [.delivered "first" {}, .delivered "second" {}, .delivered "first" ⟨[⟨"en"⟩], []⟩,
        .scheduled ⟨⟨"en"⟩, ⟨"app"⟩⟩, .delivered "first" ⟨[⟨"en"⟩], [⟨"app"⟩]⟩,
        .delivered "second" ⟨[⟨"en"⟩], [⟨"app"⟩]⟩, .delivered "second" ⟨[⟨"en"⟩], []⟩] ∧
      run.1.selection = ⟨[⟨"en"⟩], [⟨"app"⟩]⟩ ∧ run.1.registered = [0, 1] := by
  cbv

end Phrasebook.Store
