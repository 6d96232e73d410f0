import Phrasebook.Proofs.Store.Run

/-!
# Rosters

A roster is what the delivery of selections depends on: the selection, the registered subscriptions, and how many
subscriptions were made. It tells which handlers a request calls, and with what (`Roster.calls`), without a look at
loads or at the handlers' scripts. A subscription hears of every change from its registration to its removal, and of
nothing before and after (`Roster.Orderly.callsTo_log_of_mem`, `Roster.callsTo_log_of_not_mem`).
-/

namespace Phrasebook.Store

/-- Whether a command replaces the locales or the modules. -/
def Command.isChange : Command → Bool
  | .setLocales _ | .setModules _ => true
  | .poll _ | .await _ | .yield _ => false

/-- What is asked of a store, handlers included. -/
inductive Request where
  | command (command : Command)
  | subscribe (handler : Handler)
  /-- Remove the subscription that was made after as many others as the number says. -/
  | unsubscribe (id : Nat)
  deriving DecidableEq, Repr

namespace Request

/-- The selection that a request leaves. -/
def select (selection : Selection) : Request → Selection
  | .command inner => inner.select selection
  | .subscribe _ | .unsubscribe _ => selection

/-- Whether a request makes a subscription. -/
def isSubscription : Request → Bool
  | .subscribe _ => true
  | .command _ | .unsubscribe _ => false

/-- What a registered subscription hears of requests: the selection after each change, until it is removed. -/
def heard (id : Nat) (selection : Selection) : List Request → List Selection
  | [] => []
  | .command inner :: requests =>
    (if inner.isChange then [inner.select selection] else []) ++ heard id (inner.select selection) requests
  | .subscribe _ :: requests => heard id selection requests
  | .unsubscribe other :: requests => if other = id then [] else heard id selection requests

end Request

/-- A subscription: how many were made before it, and the label of its handler. -/
structure Member where
  id : Nat
  label : String
  deriving DecidableEq, Repr

/-- A call of a subscription's handler with a selection. -/
structure Call where
  member : Member
  selection : Selection
  deriving DecidableEq, Repr

/-- The selection, the registered subscriptions, oldest first, and how many subscriptions were ever made. -/
structure Roster where
  selection : Selection := {}
  members : List Member := []
  issued : Nat := 0
  deriving DecidableEq, Repr

namespace Roster

/-- The roster after a request. -/
def serve (roster : Roster) : Request → Roster
  | .command command => { roster with selection := command.select roster.selection }
  | .subscribe handler =>
    { roster with members := roster.members ++ [⟨roster.issued, handler.label⟩], issued := roster.issued + 1 }
  | .unsubscribe id => { roster with members := roster.members.filter fun member => member.id ≠ id }

/-- The roster after requests. -/
def serveAll (roster : Roster) (requests : List Request) : Roster :=
  requests.foldl serve roster

/-- The calls that a request sets off: a change tells every member, and a new subscription is told at once. -/
def calls (roster : Roster) : Request → List Call
  | .command command =>
    if command.isChange then roster.members.map fun member => ⟨member, command.select roster.selection⟩ else []
  | .subscribe handler => [⟨⟨roster.issued, handler.label⟩, roster.selection⟩]
  | .unsubscribe _ => []

/-- The calls that requests set off, one request after another. -/
def log (roster : Roster) : List Request → List Call
  | [] => []
  | request :: requests => roster.calls request ++ log (roster.serve request) requests

variable {roster : Roster}

/-- Requests are served one after another, the first one first. -/
theorem serveAll_cons (roster : Roster) (request : Request) (requests : List Request) :
    roster.serveAll (request :: requests) = (roster.serve request).serveAll requests :=
  rfl

/-- Serving more requests goes on where the earlier ones have led. -/
theorem serveAll_append (roster : Roster) (requests later : List Request) :
    roster.serveAll (requests ++ later) = (roster.serveAll requests).serveAll later :=
  List.foldl_append

/-- The calls of later requests come behind those of earlier ones, and depend on where these have led. -/
theorem log_append (roster : Roster) (requests later : List Request) :
    roster.log (requests ++ later) = roster.log requests ++ (roster.serveAll requests).log later := by
  induction requests generalizing roster with
  | nil => rfl
  | cons request requests ih =>
    rw [List.cons_append, log, log, ih, List.append_assoc]
    rfl

/-- The roster follows the selection that requests leave. -/
theorem selection_serve (roster : Roster) (request : Request) :
    (roster.serve request).selection = request.select roster.selection := by
  cases request <;> rfl

/-- So it does over many requests, whoever subscribes meanwhile. -/
theorem selection_serveAll (roster : Roster) (requests : List Request) :
    (roster.serveAll requests).selection = requests.foldl Request.select roster.selection := by
  induction requests generalizing roster with
  | nil => rfl
  | cons request requests ih =>
    rw [List.foldl_cons, ← selection_serve]
    exact ih (roster.serve request)

/-- Only a subscription is counted. -/
theorem issued_serve (roster : Roster) (request : Request) :
    (roster.serve request).issued = roster.issued + [request].countP Request.isSubscription := by
  cases request <;> rfl

/-- As many subscriptions are counted as were requested. -/
theorem issued_serveAll (roster : Roster) (requests : List Request) :
    (roster.serveAll requests).issued = roster.issued + requests.countP Request.isSubscription := by
  induction requests generalizing roster with
  | nil => rfl
  | cons request requests ih =>
    have hrest := ih (roster.serve request)
    -- one request is split off so that it is counted as `issued_serve` does
    have hcount : (request :: requests).countP Request.isSubscription =
        [request].countP Request.isSubscription + requests.countP Request.isSubscription := by
      rw [← List.countP_append, List.singleton_append]
    rw [issued_serve] at hrest
    rw [hcount, ← Nat.add_assoc]
    exact hrest

/-! ## Orderly rosters -/

/-- Members stand in the order of their subscriptions, and all of them were made. -/
structure Orderly (roster : Roster) : Prop where
  increasing : (roster.members.map Member.id).Pairwise (· < ·)
  lt_issued : ∀ member ∈ roster.members, member.id < roster.issued

/-- Without members a roster is in order. -/
theorem Orderly.initial : Orderly {} :=
  ⟨List.Pairwise.nil, by simp⟩

/-- Every request keeps a roster in order: a new member comes last and has a number that nobody had. -/
theorem Orderly.serve (h : roster.Orderly) (request : Request) : (roster.serve request).Orderly := by
  obtain ⟨hincreasing, hlt⟩ := h
  cases request with
  | command command => exact ⟨hincreasing, hlt⟩
  | subscribe handler =>
    refine ⟨?_, fun member hmember => ?_⟩
    · simp only [Roster.serve, List.map_append, List.map_cons, List.map_nil]
      rw [List.pairwise_append]
      refine ⟨hincreasing, List.pairwise_singleton _ _, ?_⟩
      simpa using hlt
    · rcases List.mem_append.1 hmember with hold | hnew
      · exact Nat.lt_succ_of_lt (hlt member hold)
      · obtain rfl := List.mem_singleton.1 hnew
        exact Nat.lt_succ_self _
  | unsubscribe id =>
    refine ⟨hincreasing.sublist (List.filter_sublist.map Member.id), fun member hmember => ?_⟩
    exact hlt member (List.mem_filter.1 hmember).1

/-- All requests keep a roster in order. -/
theorem Orderly.serveAll (h : roster.Orderly) (requests : List Request) : (roster.serveAll requests).Orderly := by
  induction requests generalizing roster with
  | nil => exact h
  | cons request requests ih => exact ih (h.serve request)

/-- A number belongs to one member at most. -/
theorem filter_id_eq {members : List Member} (hincreasing : (members.map Member.id).Pairwise (· < ·))
    {member : Member} (hmember : member ∈ members) :
    members.filter (fun other => other.id = member.id) = [member] := by
  induction members with
  | nil => simp at hmember
  | cons first rest ih =>
    obtain ⟨hfirst, hrest⟩ := List.pairwise_cons.1 hincreasing
    rcases List.mem_cons.1 hmember with rfl | hmember
    · -- all later numbers are larger than this one
      have hnone : rest.filter (fun other => other.id = member.id) = [] := by
        refine List.filter_eq_nil_iff.2 fun other hother => ?_
        have := hfirst other.id (List.mem_map_of_mem hother)
        simp only [decide_eq_true_eq]
        omega
      rw [List.filter_cons_of_pos (by simp), hnone]
    · have hne := hfirst member.id (List.mem_map_of_mem hmember)
      rw [List.filter_cons_of_neg (by simp only [decide_eq_true_eq]; omega)]
      exact ih hrest hmember

/-! ## What one subscription hears -/

/-- The calls of the subscription with a number. -/
def callsTo (id : Nat) (log : List Call) : List Call :=
  log.filter fun call => call.member.id = id

/-- The calls to a subscription come in the order of the log. -/
theorem callsTo_append (id : Nat) (log later : List Call) :
    callsTo id (log ++ later) = callsTo id log ++ callsTo id later :=
  List.filter_append ..

/-- Of the calls of a change one is the member's. -/
theorem Orderly.callsTo_map (h : roster.Orderly) {member : Member} (hmember : member ∈ roster.members)
    (selection : Selection) :
    callsTo member.id (roster.members.map fun member => ⟨member, selection⟩) = [⟨member, selection⟩] := by
  rw [callsTo, List.filter_map]
  exact congrArg _ (filter_id_eq h.increasing hmember)

/-- A subscription that is removed, or was made and removed, is called no more. -/
theorem callsTo_log_of_not_mem {id : Nat} (hid : id < roster.issued) (hnone : ∀ member ∈ roster.members, member.id ≠ id)
    (requests : List Request) : callsTo id (roster.log requests) = [] := by
  induction requests generalizing roster with
  | nil => rfl
  | cons request requests ih =>
    rw [log, callsTo_append, List.append_eq_nil_iff]
    cases request with
    | command command =>
      refine ⟨List.filter_eq_nil_iff.2 fun call hcall => ?_, ih hid hnone⟩
      simp only [calls] at hcall
      split at hcall
      · obtain ⟨member, hmember, rfl⟩ := List.mem_map.1 hcall
        simpa using hnone member hmember
      · simp at hcall
    | subscribe handler =>
      have hne : roster.issued ≠ id := by omega
      refine ⟨by simp [calls, callsTo, hne], ih (Nat.lt_succ_of_lt hid) fun member hmember => ?_⟩
      rcases List.mem_append.1 hmember with hold | hnew
      · exact hnone member hold
      · obtain rfl := List.mem_singleton.1 hnew
        exact hne
    | unsubscribe other =>
      exact ⟨rfl, ih hid fun member hmember => hnone member (List.mem_filter.1 hmember).1⟩

/-- A member is called with the selection after each change, until it is removed. -/
theorem Orderly.callsTo_log_of_mem (h : roster.Orderly) {member : Member} (hmember : member ∈ roster.members)
    (requests : List Request) :
    callsTo member.id (roster.log requests) =
      (Request.heard member.id roster.selection requests).map fun selection => ⟨member, selection⟩ := by
  induction requests generalizing roster with
  | nil => rfl
  | cons request requests ih =>
    have hrest (hstill : member ∈ (roster.serve request).members) := ih (h.serve request) hstill
    rw [log, callsTo_append]
    cases request with
    | command command =>
      rw [hrest hmember, Request.heard, List.map_append, calls]
      cases command.isChange with
      | true => simp only [if_true, h.callsTo_map hmember]; rfl
      | false => rfl
    | subscribe handler =>
      have hne : roster.issued ≠ member.id := Nat.ne_of_gt (h.lt_issued member hmember)
      rw [hrest (List.mem_append_left _ hmember), Request.heard]
      simp [calls, callsTo, hne, Roster.serve]
    | unsubscribe other =>
      rw [Request.heard]
      split
      · rename_i heq
        subst heq
        -- it is removed here, so it is heard of no more
        have hremoved : ∀ kept ∈ (roster.serve (.unsubscribe member.id)).members, kept.id ≠ member.id := by
          intro kept hkept
          simpa using (List.mem_filter.1 hkept).2
        have hissued : member.id < (roster.serve (.unsubscribe member.id)).issued := h.lt_issued member hmember
        exact callsTo_log_of_not_mem hissued hremoved requests
      · rename_i hne
        exact hrest (List.mem_filter.2 ⟨hmember, by simpa using Ne.symm hne⟩)

/-- Only subscriptions that were made are called. -/
theorem Orderly.lt_of_mem_log (h : roster.Orderly) {requests : List Request} {call : Call}
    (hcall : call ∈ roster.log requests) : call.member.id < (roster.serveAll requests).issued := by
  induction requests generalizing roster with
  | nil => simp [log] at hcall
  | cons request requests ih =>
    rcases List.mem_append.1 hcall with hfirst | hrest
    · -- numbers are only ever issued, so what is below the count now stays below it
      have hle : (roster.serve request).issued ≤ (roster.serveAll (request :: requests)).issued := by
        have := issued_serveAll (roster.serve request) requests
        rw [serveAll_cons, this]
        omega
      refine Nat.lt_of_lt_of_le ?_ hle
      cases request with
      | command command =>
        simp only [calls] at hfirst
        split at hfirst
        · obtain ⟨member, hmember, rfl⟩ := List.mem_map.1 hfirst
          exact h.lt_issued member hmember
        · simp at hfirst
      | subscribe handler =>
        obtain rfl := List.mem_singleton.1 hfirst
        exact Nat.lt_succ_self _
      | unsubscribe id => simp [calls] at hfirst
    · exact ih (h.serve request) hrest

/-- What was made and not removed stays registered. -/
theorem mem_members_serveAll_iff {id : Nat} (hid : id < roster.issued) (requests : List Request) :
    (∃ member ∈ (roster.serveAll requests).members, member.id = id) ↔
      (∃ member ∈ roster.members, member.id = id) ∧ Request.unsubscribe id ∉ requests := by
  induction requests generalizing roster with
  | nil => simp [serveAll]
  | cons request requests ih =>
    rw [serveAll_cons]
    cases request with
    | command command =>
      have hnext : id < (roster.serve (.command command)).issued := hid
      rw [ih hnext]
      simp [serve]
    | subscribe handler =>
      have hne : roster.issued ≠ id := by omega
      have hnext : id < (roster.serve (.subscribe handler)).issued := Nat.lt_succ_of_lt hid
      rw [ih hnext]
      simp [serve, hne, or_and_right, exists_or]
    | unsubscribe other =>
      have hnext : id < (roster.serve (.unsubscribe other)).issued := hid
      rw [ih hnext]
      simp only [serve, List.mem_filter, decide_eq_true_eq, List.mem_cons, Request.unsubscribe.injEq]
      -- the member with this number is still there unless the number is the one that is removed
      constructor
      · rintro ⟨⟨member, ⟨hmember, hkept⟩, rfl⟩, hnot⟩
        exact ⟨⟨member, hmember, rfl⟩, fun hor => hor.elim hkept hnot⟩
      · rintro ⟨⟨member, hmember, rfl⟩, hnot⟩
        exact ⟨⟨member, ⟨hmember, fun heq => hnot (.inl heq)⟩, rfl⟩, fun hlater => hnot (.inr hlater)⟩

/-! ## A subscription from its beginning -/

/-- Whoever subscribes is called with the selection that is found, and then with the one after each change, until
the subscription is removed. -/
theorem Orderly.callsTo_log_of_subscribe (h : roster.Orderly) (before : List Request) (handler : Handler)
    (after : List Request) :
    let found := roster.serveAll before
    callsTo found.issued (roster.log (before ++ .subscribe handler :: after)) =
      (found.selection :: Request.heard found.issued found.selection after).map fun selection =>
        ⟨⟨found.issued, handler.label⟩, selection⟩ := by
  intro found
  have hmember : (⟨found.issued, handler.label⟩ : Member) ∈ (found.serve (.subscribe handler)).members := by
    simp [Roster.serve]
  -- the log is cut where the subscription is made: before that its number was not issued
  have hbefore : callsTo found.issued (roster.log before) = [] := by
    refine List.filter_eq_nil_iff.2 fun call hcall => ?_
    have hissued : call.member.id < found.issued := h.lt_of_mem_log hcall
    rw [decide_eq_true_eq]
    omega
  have hnow : callsTo found.issued (found.calls (.subscribe handler)) =
      [⟨⟨found.issued, handler.label⟩, found.selection⟩] := by
    simp [calls, callsTo]
  have hafter := ((h.serveAll before).serve (.subscribe handler)).callsTo_log_of_mem hmember after
  rw [log_append, log, callsTo_append, callsTo_append, hbefore, hnow]
  exact congrArg (List.cons _) hafter

/-- Whoever subscribed is a member as long as the subscription is not removed. -/
theorem mem_members_of_subscribe_iff (roster : Roster) (before : List Request) (handler : Handler)
    (after : List Request) :
    let found := roster.serveAll before
    (∃ member ∈ (roster.serveAll (before ++ .subscribe handler :: after)).members, member.id = found.issued) ↔
      Request.unsubscribe found.issued ∉ after := by
  intro found
  have hlt : found.issued < (found.serve (.subscribe handler)).issued := Nat.lt_succ_self _
  rw [serveAll_append, serveAll_cons, mem_members_serveAll_iff hlt]
  exact and_iff_right ⟨⟨found.issued, handler.label⟩, by simp [serve], rfl⟩

end Roster

end Phrasebook.Store
