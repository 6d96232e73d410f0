import Mathlib.Data.List.Basic
import Phrasebook.Proofs.Store.Change
import Phrasebook.Proofs.Store.Roster

/-!
# Subscriptions

With handlers that only listen, what a store delivers is what its roster tells: serving a request changes the roster
as the roster alone says, and the handlers called are the ones that it calls (`Attentive.serve`). Main statement: over
every run each subscription is called once when it is made and once for every change until it is removed
(`deliveries_serveAll`).
-/

namespace Phrasebook

/-- A handler that does nothing to the store in any call. -/
def Handler.Listens (handler : Handler) : Prop :=
  ∀ actions ∈ handler.script, actions = []

namespace Event

/-- The label and the selection of a call, if the event is one. -/
def delivery? : Event → Option (String × Selection)
  | .delivered label selection => some (label, selection)
  | _ => none

/-- The calls of handlers among events, in order. -/
def deliveries (events : List Event) : List (String × Selection) :=
  events.filterMap delivery?

/-- No events, no deliveries. -/
@[simp] theorem deliveries_nil : deliveries [] = [] := rfl

/-- Deliveries come in the order of the events. -/
@[simp] theorem deliveries_append (events later : List Event) :
    deliveries (events ++ later) = deliveries events ++ deliveries later :=
  List.filterMap_append

end Event

namespace Store

open Event

variable {store : Store}

/-- Do a request. -/
def serve (store : Store) : Request → Store × List Event
  | .command command => store.perform command
  | .subscribe handler => store.subscribe handler
  | .unsubscribe id => ((store.unsubscribe id).1, [])

/-- Do requests one after another. -/
def serveAll (store : Store) : List Request → Store × List Event
  | [] => (store, [])
  | request :: requests =>
    let first := store.serve request
    let rest := serveAll first.1 requests
    (rest.1, first.2 ++ rest.2)

/-- The labels of all subscriptions ever made. -/
def labels (store : Store) : List String :=
  store.handlers.map Handler.label

/-- The registered subscriptions, oldest first. -/
def members (store : Store) : List Member :=
  store.registered.filterMap fun id => store.labels[id]?.map (Member.mk id)

/-- The roster of a store. -/
def roster (store : Store) : Roster :=
  ⟨store.selection, store.members, store.handlers.length⟩

/-! ## Loads call no handler -/

/-- What is told about loads is no delivery. -/
theorem deliveries_of_isLoading {events : List Event} (h : ∀ event ∈ events, event.isLoading = true) :
    deliveries events = [] := by
  refine List.filterMap_eq_nil_iff.2 fun event hmem => ?_
  have hloading := h event hmem
  cases event with
  | delivered => simp [isLoading] at hloading
  | _ => rfl

/-- Driving loads calls no handler. -/
theorem History.deliveries_drives {final : Store} {events : List Event} (h : History Drive store events final) :
    deliveries events = [] :=
  deliveries_of_isLoading (h.forall_told Drive.isLoading)

/-- Nor does selecting, before its calls are made. -/
theorem deliveries_select (store : Store) (selection : Selection) : deliveries (store.select selection).2 = [] :=
  deliveries_of_isLoading (isLoading_select store selection)

/-! ## Calling handlers -/

/-- The call of a handler is told with its label. -/
theorem deliveries_answer (store : Store) (id : Nat) (selection : Selection) :
    deliveries (store.answer id selection).2.2 = store.labels[id]?.toList.map fun label => (label, selection) := by
  unfold answer
  split
  · rename_i hnone
    simp [labels, hnone]
  · rename_i handler hsome
    split <;> simp [labels, hsome, deliveries, delivery?]

/-- Handlers keep their labels when they are called. -/
theorem labels_answer (store : Store) (id : Nat) (selection : Selection) :
    (store.answer id selection).1.labels = store.labels := by
  unfold answer
  split
  · rfl
  · rename_i handler hsome
    split
    · rfl
    · -- the handler that was called is replaced by one with a shorter script and the same label
      refine List.ext_getElem? fun other => ?_
      simp only [labels, List.getElem?_map, List.getElem?_set]
      by_cases h : id = other
      · subst h
        obtain ⟨hlt, rfl⟩ := List.getElem?_eq_some_iff.1 hsome
        simp [hlt]
      · simp [h]

/-- With listeners only, each of the subscriptions called is told once, in order. -/
theorem Listening.deliveries_run_calls (h : store.Listening) (selection : Selection) (ids : List Nat)
    (hids : ∀ id ∈ ids, id ∈ store.registered) :
    (store.run (ids.map fun id => .call id selection)).1.labels = store.labels ∧
      deliveries (store.run (ids.map fun id => .call id selection)).2 =
        ids.filterMap fun id => store.labels[id]?.map fun label => (label, selection) := by
  induction ids generalizing store with
  | nil => rw [List.map_nil, run]; exact ⟨rfl, rfl⟩
  | cons id ids ih =>
    -- the handler asks for nothing, so the calls that follow are those of the other subscriptions
    obtain ⟨hactions, handlers, hstore, hlistening⟩ := h.answer (hids id (by simp)) selection
    have hlabels := labels_answer store id selection
    have hdeliveries := deliveries_answer store id selection
    rw [hstore] at hlabels
    obtain ⟨hrest, hdelivered⟩ := ih hlistening fun other hother => hids other (by simp [hother])
    rw [List.map_cons, run, hactions, hstore]
    refine ⟨hrest.trans hlabels, ?_⟩
    rw [deliveries_append, hdeliveries]
    simp only [List.map_nil, List.nil_append]
    rw [hdelivered, hlabels, List.filterMap_cons]
    cases store.labels[id]? <;> rfl

/-! ## Rosters of stores -/

/-- Every registered subscription was made, and its handler only listens. -/
structure Attentive (store : Store) : Prop where
  listening : store.Listening
  lt_length : ∀ id ∈ store.registered, id < store.handlers.length

/-- Where nobody has subscribed everybody listens. -/
theorem Attentive.fresh (loader : Loader) (hook background : Bool) : (Store.fresh loader hook background).Attentive :=
  ⟨fun _ hid => by simp [Store.fresh] at hid, fun _ hid => by simp [Store.fresh] at hid⟩

/-- The members of a store depend on what is registered and on the labels, and on nothing else. -/
theorem members_congr {final : Store} (hregistered : final.registered = store.registered)
    (hlabels : final.labels = store.labels) : final.members = store.members := by
  rw [members, members, hregistered, hlabels]

/-- The labels tell how many handlers there are. -/
theorem length_handlers_congr {final : Store} (hlabels : final.labels = store.labels) :
    final.handlers.length = store.handlers.length := by
  simpa [labels] using congrArg List.length hlabels

/-- A change is told to every member, in order, with the selection that it leaves. -/
theorem Attentive.change (h : store.Attentive) (selection : Selection) :
    let changed := store.select selection
    let told := changed.1.run changed.1.calls
    told.1.Attentive ∧ told.1.roster = ⟨selection, store.members, store.handlers.length⟩ ∧
      deliveries (changed.2 ++ told.2) = store.members.map fun member => (member.label, selection) := by
  intro changed told
  have hlistening : changed.1.Listening := h.listening.select selection
  obtain ⟨handlers, hstore, hstill⟩ := hlistening.run_calls selection store.registered fun _ hid => hid
  obtain ⟨hlabels, hdeliveries⟩ := hlistening.deliveries_run_calls selection store.registered fun _ hid => hid
  have htold : told = changed.1.run (store.registered.map fun id => .call id selection) := rfl
  rw [← htold] at hstore hlabels hdeliveries
  have hlabels : told.1.labels = store.labels := hlabels
  have hlength : told.1.handlers.length = store.handlers.length := length_handlers_congr hlabels
  have hregistered : told.1.registered = store.registered := by
    rw [hstore]
    rfl
  refine ⟨⟨by rw [hstore]; exact hstill, fun id hid => ?_⟩, ?_, ?_⟩
  · rw [hlength]
    exact h.lt_length id (hregistered ▸ hid)
  · rw [roster, members_congr hregistered hlabels, hlength, show told.1.selection = selection by rw [hstore]; rfl]
  · rw [deliveries_append, deliveries_select, List.nil_append, hdeliveries, members, List.map_filterMap]
    simp only [Option.map_map, Function.comp_def]
    rfl

/-- The store with one more subscription, before that is told anything. -/
def join (store : Store) (handler : Handler) : Store :=
  { store with
    handlers := store.handlers ++ [handler]
    registered := store.registered ++ [store.handlers.length] }

/-- A handler that listens may join. -/
theorem Attentive.join (h : store.Attentive) {handler : Handler} (hlistens : handler.Listens) :
    (store.join handler).Attentive := by
  refine ⟨fun id hid current hcurrent => ?_, fun id hid => ?_⟩
  · simp only [Store.join] at hid hcurrent
    rcases List.mem_append.1 hid with hold | hnew
    · rw [List.getElem?_append_left (h.lt_length id hold)] at hcurrent
      exact h.listening id hold current hcurrent
    · obtain rfl := List.mem_singleton.1 hnew
      obtain rfl : handler = current := by simpa using hcurrent
      exact hlistens
  · simp only [Store.join, List.length_append, List.length_singleton]
    rcases List.mem_append.1 hid with hold | hnew
    · have hlt := h.lt_length id hold
      omega
    · obtain rfl := List.mem_singleton.1 hnew
      omega

/-- The label of whoever joins comes last. -/
theorem labels_join (store : Store) (handler : Handler) :
    (store.join handler).labels = store.labels ++ [handler.label] := by
  simp [labels, join]

/-- The handler of the new subscription has its label. -/
theorem getElem?_labels_join (store : Store) (handler : Handler) :
    (store.join handler).labels[store.handlers.length]? = some handler.label := by
  have hlength : store.handlers.length = store.labels.length := by simp [labels]
  rw [labels_join, hlength, List.getElem?_concat_length]

/-- The new subscription is the last of the members. -/
theorem Attentive.members_join (h : store.Attentive) (handler : Handler) :
    (store.join handler).members = store.members ++ [⟨store.handlers.length, handler.label⟩] := by
  -- the numbers registered so far are below the new one, so their labels are found where they were
  have hold : ∀ id ∈ store.registered, (store.join handler).labels[id]? = store.labels[id]? := by
    intro id hid
    rw [labels_join, List.getElem?_append_left (by simpa [labels] using h.lt_length id hid)]
  calc (store.join handler).members
    _ = (store.registered ++ [store.handlers.length]).filterMap fun id =>
          (store.join handler).labels[id]?.map (Member.mk id) := rfl
    _ = store.members ++ [⟨store.handlers.length, handler.label⟩] := by
      rw [List.filterMap_append, List.filterMap_congr fun id hid => by rw [hold id hid], members]
      simp [getElem?_labels_join]

/-- A new subscription is told the selection and joins the members as the last one. -/
theorem Attentive.subscribe (h : store.Attentive) {handler : Handler} (hlistens : handler.Listens) :
    (store.subscribe handler).1.Attentive ∧
      (store.subscribe handler).1.roster = store.roster.serve (.subscribe handler) ∧
      deliveries (store.subscribe handler).2 = [(handler.label, store.selection)] := by
  have hjoined := h.join hlistens
  have hmem : ∀ id ∈ [store.handlers.length], id ∈ (store.join handler).registered := by simp [Store.join]
  obtain ⟨handlers, hstore, hstill⟩ := hjoined.listening.run_calls store.selection [store.handlers.length] hmem
  obtain ⟨hlabels, hdeliveries⟩ :=
    hjoined.listening.deliveries_run_calls store.selection [store.handlers.length] hmem
  have hsubscribed : store.subscribe handler =
      (store.join handler).run ([store.handlers.length].map fun id => .call id store.selection) := rfl
  rw [← hsubscribed] at hstore hlabels hdeliveries
  have hlength := length_handlers_congr hlabels
  have hregistered : (store.subscribe handler).1.registered = (store.join handler).registered := by
    rw [hstore]
  refine ⟨⟨by rw [hstore]; exact hstill, fun id hid => ?_⟩, ?_, ?_⟩
  · rw [hlength]
    exact hjoined.lt_length id (hregistered ▸ hid)
  · rw [roster, members_congr hregistered hlabels, h.members_join, hlength, hstore]
    simp [Roster.serve, roster, Store.join]
  · rw [hdeliveries]
    simp [getElem?_labels_join]

/-- Removing a subscription keeps the other members and their order. -/
theorem members_unsubscribe (store : Store) (id : Nat) :
    (store.unsubscribe id).1.members = store.members.filter fun member => member.id ≠ id := by
  have hlabels : (store.unsubscribe id).1.labels = store.labels := rfl
  rw [members, members, hlabels, unsubscribe, List.filter_filterMap, List.filterMap_filter]
  refine List.filterMap_congr fun other _ => ?_
  cases store.labels[other]? with
  | none => simp
  | some label => by_cases heq : other = id <;> simp [heq, Option.filter]

/-! ## Requests -/

/-- A store serves a request as its roster says, if the handlers only listen. -/
theorem Attentive.serve (h : store.Attentive) (request : Request)
    (hlistens : ∀ handler, request = .subscribe handler → handler.Listens) :
    (store.serve request).1.Attentive ∧ (store.serve request).1.roster = store.roster.serve request ∧
      deliveries (store.serve request).2 =
        (store.roster.calls request).map fun call => (call.member.label, call.selection) := by
  -- a drive changes neither the handlers nor the selection, and calls nobody
  have hdrive {final : Store} {events : List Event} (hdrives : History Drive store events final) :
      final.Attentive ∧ final.roster = store.roster ∧ deliveries events = [] := by
    have hdeliveries := hdrives.deliveries_drives
    obtain ⟨records, queue, -, rfl⟩ := hdrives.drives_eq
    exact ⟨⟨h.listening, h.lt_length⟩, rfl, hdeliveries⟩
  -- an action that chooses a selection calls every member with it
  have hchange {action : Action} {selection : Selection} (hchosen : store.chosen? action = some selection) :
      (store.run [.act action]).1.Attentive ∧
        (store.run [.act action]).1.roster = ⟨selection, store.members, store.handlers.length⟩ ∧
        deliveries (store.run [.act action]).2 = store.members.map fun member => (member.label, selection) := by
    rw [run, act_of_chosen hchosen, List.append_nil]
    exact h.change selection
  cases request with
  | command command =>
    cases command with
    | setLocales locales =>
      rw [Roster.calls, Command.isChange, if_pos rfl, List.map_map]
      exact hchange rfl
    | setModules modules =>
      rw [Roster.calls, Command.isChange, if_pos rfl, List.map_map]
      exact hchange rfl
    | poll pair => exact hdrive (.single (.poll store pair))
    | await pairs => exact hdrive (drives_await store pairs)
    | yield turns => exact hdrive (drives_yield store turns)
  | subscribe handler => exact h.subscribe (hlistens handler rfl)
  | unsubscribe id =>
    refine ⟨⟨fun other hother => h.listening other (List.mem_filter.1 hother).1,
      fun other hother => h.lt_length other (List.mem_filter.1 hother).1⟩, ?_, rfl⟩
    rw [Roster.serve, roster, Store.serve, members_unsubscribe]
    rfl

/-- A store serves requests as its roster says, if the handlers only listen. -/
theorem Attentive.serveAll (h : store.Attentive) (requests : List Request)
    (hlistens : ∀ handler, .subscribe handler ∈ requests → handler.Listens) :
    (store.serveAll requests).1.Attentive ∧ (store.serveAll requests).1.roster = store.roster.serveAll requests ∧
      deliveries (store.serveAll requests).2 =
        (store.roster.log requests).map fun call => (call.member.label, call.selection) := by
  induction requests generalizing store with
  | nil => exact ⟨h, rfl, rfl⟩
  | cons request requests ih =>
    obtain ⟨hnext, hroster, hdeliveries⟩ := h.serve request fun handler heq => hlistens handler (by simp [heq])
    obtain ⟨hlast, hrosters, hrest⟩ := ih hnext fun handler hmem => hlistens handler (List.mem_cons_of_mem _ hmem)
    rw [hroster] at hrosters hrest
    refine ⟨hlast, hrosters, ?_⟩
    rw [Store.serveAll, deliveries_append, hdeliveries, hrest, Roster.log, List.map_append]

/-- The members are the registered subscriptions, in their order. -/
theorem Attentive.map_id_members (h : store.Attentive) : store.members.map Member.id = store.registered := by
  have hid : ∀ id ∈ store.registered, (store.labels[id]?.map (Member.mk id)).map Member.id = some id := by
    intro id hmem
    have hlt : id < store.labels.length := by simpa [labels] using h.lt_length id hmem
    simp [List.getElem?_eq_getElem hlt]
  rw [members, List.map_filterMap, List.filterMap_congr hid, List.filterMap_some]

/-- Removing a subscription succeeds if it is registered. -/
theorem Attentive.unsubscribe_snd (h : store.Attentive) (id : Nat) :
    (store.unsubscribe id).2 = true ↔ ∃ member ∈ store.roster.members, member.id = id := by
  have hmem : id ∈ store.registered ↔ ∃ member ∈ store.roster.members, member.id = id := by
    rw [← h.map_id_members, List.mem_map]
    rfl
  simpa [unsubscribe] using hmem

/-- **Every subscription hears of every change.** Over every run from a fresh store whose handlers only listen, the
handlers are called as the log of the roster says. In it a subscription is called once with the selection that it
finds, and then with the selection after each change until it is removed, and its number is the number of
subscriptions made before it. A change calls all members in the order of their numbers with the selection that it
leaves. Removing a subscription succeeds once for each that was made, and leaves the others and their order. -/
theorem deliveries_serveAll (loader : Loader) (hook background : Bool) (requests : List Request)
    (hlistens : ∀ handler, .subscribe handler ∈ requests → handler.Listens) :
    let run := (fresh loader hook background).serveAll requests
    let store := run.1
    let log := Roster.log {} requests
    (store.selection = requests.foldl Request.select {} ∧
      store.handlers.length = requests.countP Request.isSubscription) ∧
    deliveries run.2 = log.map (fun call => (call.member.label, call.selection)) ∧
    (∀ before handler after, requests = before ++ .subscribe handler :: after →
      let id := before.countP Request.isSubscription
      let selection := before.foldl Request.select {}
      Roster.callsTo id log =
        (selection :: Request.heard id selection after).map (fun heard => ⟨⟨id, handler.label⟩, heard⟩) ∧
      ((store.unsubscribe id).2 = true ↔ Request.unsubscribe id ∉ after)) ∧
    (∀ id, requests.countP Request.isSubscription ≤ id → (store.unsubscribe id).2 = false) ∧
    (∀ command, command.isChange = true →
      deliveries (store.perform command).2 =
        store.members.map fun member => (member.label, command.select store.selection)) ∧
    (store.members.map Member.id = store.registered ∧ store.registered.Pairwise (· < ·)) ∧
    ∀ id, (store.unsubscribe id).1.members = store.members.filter fun member => member.id ≠ id := by
  intro run store log
  obtain ⟨hattentive, hroster, hdeliveries⟩ := (Attentive.fresh loader hook background).serveAll requests hlistens
  have hinitial : (fresh loader hook background).roster = {} := rfl
  rw [hinitial] at hroster hdeliveries
  have horderly : store.roster.Orderly := by
    rw [hroster]
    exact Roster.Orderly.initial.serveAll requests
  have hissued : store.roster.issued = requests.countP Request.isSubscription := by
    rw [hroster, Roster.issued_serveAll, Nat.zero_add]
  refine ⟨⟨?_, hissued⟩, hdeliveries, fun before handler after hsplit => ?_, fun id hid => ?_,
    fun command hchange => ?_, ⟨hattentive.map_id_members, ?_⟩, members_unsubscribe store⟩
  · exact (congrArg Roster.selection hroster).trans (Roster.selection_serveAll {} requests)
  · intro id selection
    -- the roster that the subscription finds has issued as many numbers as subscriptions were made before
    have hid : (Roster.serveAll {} before).issued = id := (Roster.issued_serveAll {} before).trans (Nat.zero_add _)
    have hselection : (Roster.serveAll {} before).selection = selection := Roster.selection_serveAll {} before
    have hcalls := Roster.Orderly.initial.callsTo_log_of_subscribe before handler after
    have hmembers := Roster.mem_members_of_subscribe_iff {} before handler after
    simp only [← hsplit, hid, hselection] at hcalls hmembers
    refine ⟨hcalls, ?_⟩
    rw [hattentive.unsubscribe_snd, hroster]
    exact hmembers
  · rw [← Bool.not_eq_true, hattentive.unsubscribe_snd]
    rintro ⟨member, hmember, rfl⟩
    have := horderly.lt_issued member hmember
    omega
  · obtain ⟨-, -, htold⟩ := hattentive.serve (.command command) (by simp)
    rw [Roster.calls, if_pos hchange, List.map_map] at htold
    exact htold
  · rw [← hattentive.map_id_members]
    exact horderly.increasing

/-- Two subscriptions, of which the first is removed between two changes. -/
theorem deliveries_removed_listener :
    let first : Handler := ⟨"first", []⟩
    let second : Handler := ⟨"second", [[]]⟩
    let requests : List Request := [.subscribe first, .command (.setLocales [⟨"en"⟩, ⟨"en"⟩]), .subscribe second,
      .unsubscribe 0, .command (.setModules [⟨"app"⟩]), .unsubscribe 0]
    let run := (fresh (.ofTable []) false false).serveAll requests
    (∀ handler, .subscribe handler ∈ requests → handler.Listens) ∧
      deliveries run.2 = [("first", ⟨[], []⟩), ("first", ⟨[⟨"en"⟩], []⟩), ("second", ⟨[⟨"en"⟩], []⟩),
        ("second", ⟨[⟨"en"⟩], [⟨"app"⟩]⟩)] ∧
      (run.1.unsubscribe 0).2 = false ∧ (run.1.unsubscribe 1).2 = true := by
  intro first second requests run
  have hlistens : ∀ handler, Request.subscribe handler ∈ requests → handler.Listens := by
    simp [requests, first, second, Handler.Listens]
  obtain ⟨-, hdeliveries, hsubscriptions, -⟩ := deliveries_serveAll (.ofTable []) false false requests hlistens
  refine ⟨hlistens, hdeliveries.trans (by decide), ?_, ?_⟩
  · have hremoved := (hsubscriptions [] first _ rfl).2
    simpa using (not_congr hremoved).2 (by decide)
  · exact (hsubscriptions [.subscribe first, .command (.setLocales [⟨"en"⟩, ⟨"en"⟩])] second _ rfl).2.2 (by decide)

end Store

end Phrasebook
