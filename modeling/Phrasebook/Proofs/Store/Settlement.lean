import Phrasebook.Proofs.Store.Agreement
import Phrasebook.Store.Waiting

/-!
# Settlement

A poll moves the load of one pair one step on, until the load is over and comes to what the loader gave, or to the
empty table (`progress?_poll`). Every step of a store keeps that up, and keeps every load within as many polls
as the loader takes for its pair (`Settles.step`); so waiting for pairs with a record always ends with all of them
over (`Settles.isOver_await`).
-/

namespace Phrasebook

/-- What the load of a pair comes to: the resource of the loader, or the empty table if the loader fails. -/
def Loader.settlement (loader : Loader) (pair : Pair) : Resource :=
  match loader.load pair with
  | .ok resource => resource
  | .error _ => Resource.empty

/-- What a poll makes of the progress of a load that comes to a resource. -/
def Progress.next (resource : Resource) : Progress → Progress
  | .pending 0 => .settled resource
  | .pending (polls + 1) => .pending polls
  | .settled left => .settled left

namespace Store

variable {store start final : Store} {pair other : Pair} {events : List Event}

/-! ## Polls -/

/-- What a load comes to does not depend on the state in which it ends. -/
theorem outcome_fst (store : Store) (pair : Pair) : (store.outcome pair).1 = store.loader.settlement pair := by
  simp only [outcome, Loader.settlement]
  cases store.loader.load pair <;> rfl

/-- A poll moves the load of its pair on and no other load. -/
theorem progress?_poll (store : Store) (pair other : Pair) :
    (store.poll pair).1.progress? other =
      if other = pair then (store.progress? other).map (Progress.next (store.loader.settlement pair))
      else store.progress? other := by
  -- only a pending load moves; in each case the record of `other` is compared with the one that the poll changes
  rcases hpair : store.progress? pair with _ | (_ | polls) | resource
  · rw [poll_of_none hpair]
    by_cases heq : other = pair
    · simp [heq, hpair]
    · simp [heq]
  · obtain ⟨opening, hpoll⟩ := poll_of_pending_zero hpair
    have hfuture (record : LoadRecord) :
        (record.settle (store.outcome pair).1).future = .settled (store.loader.settlement pair) := by
      rw [LoadRecord.settle, outcome_fst]
    rw [hpoll, progress?_updateRecord hfuture]
    by_cases heq : other = pair
    · simp [heq, hpair, Progress.next]
    · simp [heq]
  · obtain ⟨opening, hpoll⟩ := poll_of_pending_succ hpair
    have hfuture (record : LoadRecord) : (record.tick polls).future = .pending polls := rfl
    rw [hpoll, progress?_updateRecord hfuture]
    by_cases heq : other = pair
    · simp [heq, hpair, Progress.next]
    · simp [heq]
  · rw [poll_of_settled hpair]
    by_cases heq : other = pair
    · simp [heq, hpair, Progress.next]
    · simp [heq]

/-- Polling pairs leaves the loads of all other pairs alone. -/
theorem progress?_pollEach {pairs : List Pair} (h : other ∉ pairs) :
    (store.pollEach pairs).1.progress? other = store.progress? other := by
  induction pairs generalizing store with
  | nil => rfl
  | cons pair pairs ih =>
    rw [List.mem_cons, not_or] at h
    rw [pollEach, ih h.2, progress?_poll, if_neg h.1]

/-- How many polls the load of a pair still takes. -/
def pollsLeft (store : Store) (pair : Pair) : Nat :=
  match store.progress? pair with
  | some (.pending polls) => polls + 1
  | _ => 0

/-- Only the future counts for the polls that a load still takes. -/
theorem pollsLeft_congr (h : final.progress? pair = store.progress? pair) :
    final.pollsLeft pair = store.pollsLeft pair := by
  rw [pollsLeft, pollsLeft, h]

/-- A load is over when it was started and takes no more polls. -/
theorem isOver_iff : store.isOver pair = true ↔ store.isRequested pair = true ∧ store.pollsLeft pair = 0 := by
  rw [isOver, output?, isRequested_eq_isSome_progress?, pollsLeft]
  rcases store.progress? pair with _ | polls | resource <;> simp [Progress.output?]

/-- A poll takes one off the polls that its pair still takes. -/
theorem pollsLeft_poll (store : Store) (pair other : Pair) :
    (store.poll pair).1.pollsLeft other =
      if other = pair then store.pollsLeft other - 1 else store.pollsLeft other := by
  have hprogress := progress?_poll store pair other
  by_cases heq : other = pair
  · rw [if_pos heq] at hprogress ⊢
    rw [pollsLeft, pollsLeft, hprogress]
    rcases store.progress? other with _ | (_ | polls) | resource <;> rfl
  · rw [if_neg heq] at hprogress ⊢
    exact pollsLeft_congr hprogress

/-- Driving loads brings no load further from its end. -/
theorem History.pollsLeft_le (h : History Drive start events final) (pair : Pair) :
    final.pollsLeft pair ≤ start.pollsLeft pair := by
  refine h.induct (P := fun store => store.pollsLeft pair ≤ start.pollsLeft pair) (fun step hle => ?_) (Nat.le_refl _)
  cases step with
  | poll polled =>
    rw [pollsLeft_poll]
    split
    · exact Nat.le_trans (Nat.sub_le _ _) hle
    · exact hle
  | enqueue => exact hle

/-- Each of the polled loads takes one poll less. -/
theorem pollsLeft_pollEach (store : Store) {pairs : List Pair} (h : pair ∈ pairs) :
    (store.pollEach pairs).1.pollsLeft pair ≤ store.pollsLeft pair - 1 := by
  induction pairs generalizing store with
  | nil => simp at h
  | cons first pairs ih =>
    have hfirst := pollsLeft_poll store first pair
    rcases List.mem_cons.1 h with rfl | h
    · rw [if_pos rfl] at hfirst
      rw [← hfirst]
      -- the polls behind this one may only help
      exact (drives_pollEach _ pairs).pollsLeft_le pair
    · -- a poll of another load does no harm
      have hle : (store.poll first).1.pollsLeft pair ≤ store.pollsLeft pair := by
        rw [hfirst]
        split
        · exact Nat.sub_le _ _
        · exact Nat.le_refl _
      exact Nat.le_trans (ih _ h) (Nat.sub_le_sub_right hle 1)

/-! ## What every step keeps -/

/-- A load that is over stays over. -/
theorem History.isOver (h : History Step start events final) (hstart : start.isOver pair = true) :
    final.isOver pair = true := by
  obtain ⟨output, houtput⟩ := Option.isSome_iff_exists.1 hstart
  exact Option.isSome_iff_exists.2 ⟨output, h.output?_eq_some houtput⟩

/-- A store keeps its loader. -/
theorem Step.loader_eq (h : Step start events final) : final.loader = start.loader := by
  cases h with
  | drive driven =>
    obtain ⟨records, queue, -, rfl⟩ := driven.eq
    rfl
  | setLocales => rfl
  | setModules => rfl
  | deliver => rfl

/-- A store keeps its loader over every history. -/
theorem History.loader_eq (h : History Step start events final) : final.loader = start.loader :=
  h.induct (P := fun store => store.loader = start.loader) (fun step hloader => step.loader_eq.trans hloader) rfl

/-- Loads come to what the loader gives, fill their cells with it, and take no more polls than the loader lets
them. -/
structure Settles (store : Store) : Prop where
  agrees : store.Agrees
  output : ∀ {pair : Pair} {resource : Resource}, store.output? pair = some resource →
    resource = store.loader.settlement pair
  pollsLeft_le : ∀ pair, store.pollsLeft pair ≤ store.loader.delay pair + 1

/-- A resource that is there is what the loader gave. -/
theorem Settles.resource (h : Settles store) {resource : Resource} (hresource : store.resource? pair = some resource) :
    resource = store.loader.settlement pair :=
  h.output (h.agrees.resource?_eq pair ▸ hresource)

/-- Where no load was started there is none that could go wrong. -/
theorem Settles.fresh (loader : Loader) (hook background : Bool) : Settles (fresh loader hook background) where
  agrees := Agrees.fresh loader hook background
  output h := by simp [Store.fresh, output?, progress?, record?] at h
  pollsLeft_le pair := by simp [Store.fresh, pollsLeft, progress?, record?]

/-- What holds of the record of each pair and of the loader is all that counts. -/
theorem Settles.congr (h : Settles store) (hrecord : ∀ pair, final.record? pair = store.record? pair)
    (hloader : final.loader = store.loader) : Settles final := by
  have hprogress (pair : Pair) : final.progress? pair = store.progress? pair := by
    rw [progress?, progress?, hrecord]
  constructor
  case agrees =>
    intro pair record hfinal
    exact h.agrees pair record (hrecord pair ▸ hfinal)
  case output =>
    intro pair resource houtput
    rw [output?, hprogress] at houtput
    rw [hloader]
    exact h.output houtput
  case pollsLeft_le =>
    intro pair
    rw [pollsLeft_congr (hprogress pair), hloader]
    exact h.pollsLeft_le pair

/-- A poll keeps loads on their way: the last one brings the load to its settlement, every other one takes one off. -/
theorem Settles.poll (h : Settles store) (pair : Pair) : Settles (store.poll pair).1 := by
  have hloader : (store.poll pair).1.loader = store.loader := Step.loader_eq (.drive (.poll store pair))
  constructor
  case agrees => exact h.agrees.poll pair
  case output =>
    intro other resource houtput
    rw [output?_eq_some_iff, progress?_poll] at houtput
    rw [hloader]
    by_cases heq : other = pair
    · rw [if_pos heq, Option.map_eq_some_iff] at houtput
      obtain ⟨progress, hprogress, hnext⟩ := houtput
      rcases progress with (_ | polls) | settled
      · -- the last poll: what the load comes to is the settlement
        rw [heq]
        exact (Progress.settled.inj hnext).symm
      · simp [Progress.next] at hnext
      · -- the load was over before, and a poll leaves it so
        rw [← Progress.settled.inj hnext]
        exact h.output (output?_eq_some_iff.2 hprogress)
    · rw [if_neg heq] at houtput
      exact h.output (output?_eq_some_iff.2 houtput)
  case pollsLeft_le =>
    intro other
    have hle := h.pollsLeft_le other
    rw [pollsLeft_poll, hloader]
    split
    · omega
    · exact hle

/-- A load that is started takes all the polls that the loader wants for its pair, and no load ends. -/
theorem Settles.select (h : Settles store) (selection : Selection) : Settles (store.select selection).1 where
  agrees := h.agrees.select selection
  output {pair resource} houtput := by
    rw [output?_select] at houtput
    exact h.output houtput
  pollsLeft_le pair := by
    have hle := h.pollsLeft_le pair
    have hprogress := progress?_select store selection pair
    rw [pollsLeft] at hle ⊢
    rw [hprogress]
    show _ ≤ store.loader.delay pair + 1
    cases hpair : store.progress? pair with
    | none =>
      -- a new load takes all polls there are
      by_cases hmem : pair ∈ selection.pairs <;> simp [hmem]
    | some progress =>
      rw [hpair] at hle
      simpa using hle

/-- Every step keeps that loads settle. -/
theorem Settles.step (h : Settles start) (hstep : Step start events final) : Settles final := by
  cases hstep with
  | drive driven =>
    cases driven with
    | poll pair => exact h.poll pair
    | enqueue queue => exact h.congr (fun _ => rfl) rfl
  | setLocales locales => exact h.select _
  | setModules modules => exact h.select _
  | deliver handlers registered quiet => exact h.congr (fun _ => rfl) rfl

/-- Every history keeps that loads settle. -/
theorem Settles.history (h : Settles start) (hsteps : History Step start events final) : Settles final :=
  hsteps.induct (fun step hsettles => hsettles.step step) h

/-! ## Waiting ends -/

/-- Driving loads starts none. -/
theorem isRequested_drives (h : History Drive start events final) (pair : Pair) :
    final.isRequested pair = start.isRequested pair := by
  obtain ⟨records, queue, hfst, rfl⟩ := h.drives_eq
  exact isRequested_congr hfst pair

/-- Every load that a wait is polled for takes one poll less. -/
theorem pollsLeft_resume (store : Store) {wait : Wait} (h : pair ∈ wait.pending) :
    (store.resume wait).1.pollsLeft pair ≤ store.pollsLeft pair - 1 :=
  pollsLeft_pollEach store h

/-- A polled wait keeps the pairs whose loads are still not over. -/
theorem mem_pending_resume {wait : Wait} :
    pair ∈ (store.resume wait).2.2.pending ↔ pair ∈ wait.pending ∧ (store.resume wait).1.isOver pair = false := by
  simp [resume]

/-- What a poll of a wait drops is over. -/
theorem isOver_of_dropped {wait : Wait} (h : pair ∈ wait.pending)
    (hdropped : pair ∉ (store.resume wait).2.2.pending) : (store.resume wait).1.isOver pair = true := by
  rw [mem_pending_resume, not_and, Bool.not_eq_false] at hdropped
  exact hdropped h

/-- Enough rounds bring every load to its end that a wait is for. -/
theorem isOver_finish {wait : Wait} {rounds : Nat}
    (hrequested : ∀ pair ∈ wait.pending, store.isRequested pair = true)
    (hpolls : ∀ pair ∈ wait.pending, store.pollsLeft pair ≤ rounds + 1) (pair : Pair) (hpair : pair ∈ wait.pending) :
    (store.finish wait rounds).1.isOver pair = true := by
  induction rounds generalizing store wait with
  | zero =>
    -- the one round there is was the last poll that the load took
    have hle := pollsLeft_resume store hpair
    have hleft := hpolls pair hpair
    have hstill := isRequested_drives (drives_resume store wait) pair
    have hnone : (store.resume wait).1.pollsLeft pair = 0 := by omega
    exact isOver_iff.2 ⟨hstill.trans (hrequested pair hpair), hnone⟩
  | succ rounds ih =>
    -- the background advances between two polls, so a round is both
    have hround := (drives_resume store wait).trans (drives_advance (store.resume wait).1 burstLength)
    rw [finish]
    by_cases hmem : pair ∈ (store.resume wait).2.2.pending
    · have hopen : ¬ (store.resume wait).2.2.isOver = true := by
        intro hover
        rw [List.isEmpty_iff.1 hover] at hmem
        exact List.not_mem_nil hmem
      rw [if_neg hopen]
      refine ih (fun awaited hawaited => ?_) (fun awaited hawaited => ?_) hmem
      · exact (isRequested_drives hround awaited).trans (hrequested awaited (mem_pending_resume.1 hawaited).1)
      · have hbefore := (mem_pending_resume.1 hawaited).1
        have hle := pollsLeft_resume store hbefore
        have hadvance := (drives_advance (store.resume wait).1 burstLength).pollsLeft_le awaited
        have hleft := hpolls awaited hbefore
        omega
    · have hover := isOver_of_dropped hpair hmem
      split
      · exact hover
      · -- the rounds that are left for other loads do not undo it
        have hrest := (drives_advance (store.resume wait).1 burstLength).trans
          (drives_finish _ (store.resume wait).2.2 rounds)
        exact (hrest.mono Step.drive).isOver hover

/-- No load of some pairs takes more polls than whoever waits for them is ready to make. -/
theorem Settles.pollsLeft_le_patience (h : Settles store) {pairs : List Pair} (hpair : pair ∈ pairs) :
    store.pollsLeft pair ≤ store.loader.patience pairs + 1 :=
  Nat.le_trans (h.pollsLeft_le pair) (Nat.succ_le_succ (Loader.delay_le_patience hpair))

/-- Waiting for pairs that have a record ends with the loads of all of them over. -/
theorem Settles.isOver_await (h : Settles store) {pairs : List Pair}
    (hrequested : ∀ pair ∈ pairs, store.isRequested pair = true) (hpair : pair ∈ pairs) :
    (store.await pairs).1.isOver pair = true :=
  isOver_finish hrequested (fun _ hmem => h.pollsLeft_le_patience hmem) pair hpair

/-- Awaiting a load that was started comes to its settlement. -/
theorem Settles.resolve_eq (h : Settles store) (hrequested : store.isRequested pair = true) :
    (store.resolve pair).2.2 = some (store.loader.settlement pair) := by
  have hsteps := (drives_await store [pair]).mono Step.drive
  have hover : (store.await [pair]).1.isOver pair = true := by
    refine h.isOver_await (fun other hmem => ?_) (List.mem_singleton_self pair)
    rwa [List.mem_singleton.1 hmem]
  obtain ⟨output, houtput⟩ := Option.isSome_iff_exists.1 hover
  have heq := (h.history hsteps).output houtput
  rw [hsteps.loader_eq] at heq
  rw [resolve, houtput, heq]

end Store

end Phrasebook
