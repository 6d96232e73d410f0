import Phrasebook.Proofs.Store.WaitingRoom

/-!
# A wait is a barrier

A wait is for the pairs that are selected when it begins, and all of them have a record then. Whatever happens
afterwards, it is over only when they are loaded, and once they are it is over at the next poll; polling it
drives no other load. Main statement: `WaitingRoom.wait_is_barrier`. Awaiting is polling a wait until it is over
(`Store.finish_filter`).
-/

namespace Phrasebook

namespace Store

/-! ## Awaiting finishes a wait -/

/-- Pairs whose loads are over need not be polled. -/
theorem pollEach_filter {store : Store} {pairs : List Pair} {keep : Pair → Bool}
    (h : ∀ pair ∈ pairs, keep pair = false → store.isOver pair = true) :
    store.pollEach (pairs.filter keep) = store.pollEach pairs := by
  induction pairs generalizing store with
  | nil => rfl
  | cons pair pairs ih =>
    have hstep : History Step store _ (store.poll pair).1 := .single (.drive (.poll store pair))
    have hrest : (store.poll pair).1.pollEach (pairs.filter keep) = (store.poll pair).1.pollEach pairs :=
      ih fun other hmem hdrop => hstep.isOver (h other (List.mem_cons_of_mem _ hmem) hdrop)
    rw [pollEach, ← hrest]
    cases hkeep : keep pair with
    | true => rw [List.filter_cons_of_pos hkeep, pollEach]
    | false =>
      -- the load of a pair that is left out is over, so polling it would have changed nothing
      obtain ⟨output, houtput⟩ := Option.isSome_iff_exists.1 (h pair List.mem_cons_self hkeep)
      rw [List.filter_cons_of_neg (by simp [hkeep]), poll_of_settled (output?_eq_some_iff.1 houtput)]
      rfl

/-- A wait that has dropped pairs goes on like one that begins anew. -/
theorem resume_filter {store : Store} {pairs : List Pair} {keep : Pair → Bool}
    (h : ∀ pair ∈ pairs, keep pair = false → store.isOver pair = true) :
    store.resume ⟨pairs.filter keep⟩ = store.resume ⟨pairs⟩ := by
  have hpolled : History Step store _ (store.pollEach pairs).1 := (drives_pollEach store pairs).mono Step.drive
  have hpending : ((pairs.filter keep).filter fun pair => !(store.pollEach pairs).1.isOver pair) =
      pairs.filter fun pair => !(store.pollEach pairs).1.isOver pair := by
    rw [List.filter_filter]
    refine List.filter_congr fun pair hmem => ?_
    cases hkeep : keep pair with
    | true => rw [Bool.and_true]
    | false => simp [hpolled.isOver (h pair hmem hkeep)]
  rw [resume, resume, pollEach_filter h, hpending]

/-- So to finish it is to await all of its pairs. -/
theorem finish_filter {store : Store} {pairs : List Pair} {keep : Pair → Bool}
    (h : ∀ pair ∈ pairs, keep pair = false → store.isOver pair = true) (rounds : Nat) :
    store.finish ⟨pairs.filter keep⟩ rounds = store.finish ⟨pairs⟩ rounds := by
  cases rounds with
  | zero => exact resume_filter h
  | succ rounds => rw [finish, finish, resume_filter h]

/-- A wait that was finished still has the pairs whose loads are not over in the end, and no others. -/
theorem mem_pending_finish {store : Store} {wait : Wait} {rounds : Nat} {pair : Pair}
    (h : pair ∈ (store.finish wait rounds).2.2.pending) :
    pair ∈ wait.pending ∧ (store.finish wait rounds).1.isOver pair = false := by
  induction rounds generalizing store wait with
  | zero => exact mem_pending_resume.1 h
  | succ rounds ih =>
    rw [finish] at h ⊢
    split at h
    · rename_i hover
      rw [if_pos hover]
      exact mem_pending_resume.1 h
    · rename_i hopen
      rw [if_neg hopen]
      obtain ⟨hpending, hunfinished⟩ := ih h
      exact ⟨(mem_pending_resume.1 hpending).1, hunfinished⟩

end Store

open Store

/-! ## Polling a wait ends it -/

/-- Finishing a wait within the polls that its loads take ends it, with all of them over. -/
theorem Wait.Tracks.finish {wait : Wait} {pairs : List Pair} {store : Store} (h : wait.Tracks pairs store)
    (hsettles : Settles store) :
    store.await pairs =
        ((store.finish wait (store.loader.patience pairs)).1, (store.finish wait (store.loader.patience pairs)).2.1) ∧
      (store.finish wait (store.loader.patience pairs)).2.2.isOver = true ∧
      ∀ pair ∈ pairs, (store.await pairs).1.isOver pair = true := by
  obtain ⟨keep, hkeep⟩ := h.pending_eq
  have hdropped : ∀ pair ∈ pairs, keep pair = false → store.isOver pair = true := by
    intro pair hpair hdrop
    refine h.dropped pair hpair fun hmem => ?_
    rw [hkeep, List.mem_filter, hdrop] at hmem
    simp at hmem
  -- the wait has dropped only pairs whose loads are over, so it may as well begin anew with all of them
  have hfinish : store.finish wait (store.loader.patience pairs) =
      store.finish ⟨pairs⟩ (store.loader.patience pairs) := by
    rw [← finish_filter hdropped, ← hkeep]
  have hover : ∀ pair ∈ pairs, (store.await pairs).1.isOver pair = true := fun pair hpair =>
    hsettles.isOver_await h.requested hpair
  refine ⟨by rw [hfinish, await], List.isEmpty_iff.2 (List.eq_nil_iff_forall_not_mem.2 fun pair hpair => ?_), hover⟩
  obtain ⟨hpending, hopen⟩ := mem_pending_finish hpair
  have hended := hover pair (h.subset hpending)
  rw [await, ← hfinish, hopen] at hended
  simp at hended

namespace WaitingRoom

/-- The move that polls a wait changes the store and the wait at its place. -/
theorem perform_resume {room : WaitingRoom} {place : Nat} {wait : Wait} (h : room.waits[place]? = some wait) :
    (room.perform (.resume place)).1 =
      { store := (room.store.resume wait).1, waits := room.waits.set place (room.store.resume wait).2.2 } := by
  simp only [perform, h]

/-- Polled as often as its loads take polls, a wait is over, and no other load has moved. -/
theorem exists_isOver_of_resumes {room : WaitingRoom} {place : Nat} {wait : Wait} {pairs : List Pair}
    (hwait : room.waits[place]? = some wait) (htracks : wait.Tracks pairs room.store) {polls : Nat}
    (hpolls : ∀ pair ∈ wait.pending, room.store.pollsLeft pair ≤ polls + 1) :
    (∃ last, (room.performAll (List.replicate (polls + 1) (.resume place))).1.waits[place]? = some last ∧
        last.isOver = true) ∧
      ∀ pair ∉ pairs, (room.performAll (List.replicate (polls + 1) (.resume place))).1.store.progress? pair =
        room.store.progress? pair := by
  have hlt : place < room.waits.length := (List.getElem?_eq_some_iff.1 hwait).1
  induction polls generalizing room wait with
  | zero =>
    rw [List.replicate_one, performAll, performAll, perform_resume hwait]
    refine ⟨⟨_, List.getElem?_set_self hlt, ?_⟩, fun pair hpair => htracks.progress?_resume hpair⟩
    -- this poll was the last one that any of the loads took
    refine List.isEmpty_iff.2 (List.eq_nil_iff_forall_not_mem.2 fun pair hpair => ?_)
    obtain ⟨hpending, hopen⟩ := mem_pending_resume.1 hpair
    have hnone : (room.store.resume wait).1.pollsLeft pair = 0 := by
      have hle := pollsLeft_resume room.store hpending
      have hbefore := hpolls pair hpending
      omega
    have hrequested := htracks.resume.requested pair (htracks.subset hpending)
    rw [isOver_iff.2 ⟨hrequested, hnone⟩] at hopen
    simp at hopen
  | succ polls ih =>
    -- each of its loads takes one poll less now
    have hpolls' : ∀ pair ∈ (room.store.resume wait).2.2.pending,
        (room.store.resume wait).1.pollsLeft pair ≤ polls + 1 := by
      intro pair hpair
      have hpending := (mem_pending_resume.1 hpair).1
      have hle := pollsLeft_resume room.store hpending
      have hbefore := hpolls pair hpending
      omega
    rw [List.replicate_succ, performAll, perform_resume hwait]
    have hresumed : (room.waits.set place (room.store.resume wait).2.2)[place]? =
        some (room.store.resume wait).2.2 :=
      List.getElem?_set_self hlt
    obtain ⟨hover, hothers⟩ :=
      @ih ⟨(room.store.resume wait).1, _⟩ _ hresumed htracks.resume hpolls' (by simpa using hlt)
    exact ⟨hover, fun pair hpair => (hothers pair hpair).trans (htracks.progress?_resume hpair)⟩

/-- **A wait is a barrier.** When a wait begins, every selected pair has a record. In every later state, after
whatever else has happened: if the wait is over, all pairs selected when it began are loaded, also those that are
selected no more; polled now, it is over exactly if they are all loaded then; polled as often as the slowest of
their loads takes polls, it is over, while the loads of all other pairs, among them all that were requested later,
stand where they stood; and awaiting those pairs is to finish the wait, which ends. -/
theorem wait_is_barrier (loader : Loader) (hook background : Bool) (before later : List Move) :
    let called := ((fresh loader hook background).performAll before).1
    let pairs := called.store.selection.pairs
    let place := called.waits.length
    let now := ((called.perform .wait).1.performAll later).1
    let polled := (now.performAll (List.replicate (loader.patience pairs + 1) (.resume place))).1
    (∀ pair ∈ pairs, called.store.isRequested pair = true) ∧
    ∃ wait, now.waits[place]? = some wait ∧
      (wait.isOver = true → ∀ pair ∈ pairs, now.store.isLoaded pair = true) ∧
      ((now.store.resume wait).2.2.isOver = true ↔
        ∀ pair ∈ pairs, (now.store.resume wait).1.isLoaded pair = true) ∧
      ((∃ last, polled.waits[place]? = some last ∧ last.isOver = true) ∧
        ∀ pair ∉ pairs, polled.store.progress? pair = now.store.progress? pair) ∧
      now.store.await pairs =
          ((now.store.finish wait (loader.patience pairs)).1, (now.store.finish wait (loader.patience pairs)).2.1) ∧
        (now.store.finish wait (loader.patience pairs)).2.2.isOver = true ∧
        ∀ pair ∈ pairs, (now.store.await pairs).1.isLoaded pair = true := by
  intro called pairs place now polled
  have hselected : ∀ pair ∈ pairs, called.store.isRequested pair = true :=
    (ledger_performAll loader hook background before).selected
  refine ⟨hselected, ?_⟩
  have hbegun : (called.perform .wait).1.waits[place]? = some called.store.beginWait :=
    List.getElem?_concat_length
  -- the account that was opened then is still kept now
  obtain ⟨wait, hwait, htracks⟩ := exists_tracks_performAll hbegun (tracks_beginWait hselected).2 later
  have hsettles : Settles now.store :=
    ((settles_performAll loader hook background before).history (called.steps_perform .wait)).history
      ((called.perform .wait).1.steps_performAll later)
  have hloader : now.store.loader = loader := by
    have hlater := loader_performAll (called.perform .wait).1 later
    exact hlater.trans (loader_performAll (fresh loader hook background) before)
  obtain ⟨hawait, hends, hover⟩ := htracks.finish hsettles
  rw [hloader] at hawait hends
  -- what waits see of futures, whoever reads sees in the cells
  have hread {store : Store} {events : List Event} (hsteps : History Drive now.store events store) (pair : Pair) :
      store.isLoaded pair = store.isOver pair :=
    (hsettles.history (hsteps.mono Step.drive)).agrees.isLoaded_eq pair
  refine ⟨wait, hwait, fun hnone pair hpair => ?_, ?_, ?_, hawait, hends, fun pair hpair => ?_⟩
  · rw [hread (.refl _)]
    exact htracks.isOver hnone hpair
  · simp only [hread (drives_resume now.store wait)]
    exact htracks.isOver_resume_iff
  · refine exists_isOver_of_resumes hwait htracks fun pair hpair => ?_
    rw [← hloader]
    exact hsettles.pollsLeft_le_patience (htracks.subset hpair)
  · rw [hread (drives_await now.store pairs)]
    exact hover pair hpair

end WaitingRoom

end Phrasebook
