import Phrasebook.Proofs.Reference.Tree

/-!
# What reading visits

Without problems, reading a key would look up the key, then what its text refers to, from left to right, and below
each of these what it refers to in turn: the unfolding of the key (`Library.unfolding`). Reading goes along the
unfolding up to the first visit that has a problem, and fails with that problem (`Library.follows_readWithin`). So the
notifiers are called for the visits up to there (`Library.observed_read`).
-/

namespace Phrasebook

/-! ## Beginnings of lists -/

section Through

variable {α : Type} {p : α → Bool} {xs ys : List α}

/-- The beginning of a list up to the first element with a property, that element included. -/
def through (p : α → Bool) : List α → List α
  | [] => []
  | x :: xs => x :: if p x then [] else through p xs

/-- Without such an element it is the whole list. -/
theorem through_of_forall (h : ∀ x ∈ xs, p x = false) : through p xs = xs := by
  induction xs with
  | nil => rfl
  | cons x xs ih =>
    obtain ⟨hx, hxs⟩ := List.forall_mem_cons.1 h
    rw [through, hx, if_neg Bool.false_ne_true, ih hxs]

/-- A first part without such an element is gone through to its end. -/
theorem through_append_of_forall (h : ∀ x ∈ xs, p x = false) : through p (xs ++ ys) = xs ++ through p ys := by
  induction xs with
  | nil => rfl
  | cons x xs ih =>
    obtain ⟨hx, hxs⟩ := List.forall_mem_cons.1 h
    rw [List.cons_append, through, hx, if_neg Bool.false_ne_true, ih hxs, List.cons_append]

/-- Nothing behind such an element counts. -/
theorem through_append_of_exists (h : ∃ x ∈ xs, p x = true) : through p (xs ++ ys) = through p xs := by
  induction xs with
  | nil => simp at h
  | cons x xs ih =>
    rw [List.cons_append, through, through]
    cases hx : p x with
    | true => rfl
    | false => rw [if_neg Bool.false_ne_true, if_neg Bool.false_ne_true, ih (by simpa [hx] using h)]

/-- The beginning depends on which elements have the property, and on nothing else. -/
theorem flatMap_through_congr {β : Type} {q : α → Bool} {f g : α → List β} (h : ∀ x ∈ xs, p x = q x ∧ f x = g x) :
    (through p xs).flatMap f = (through q xs).flatMap g := by
  induction xs with
  | nil => rfl
  | cons x xs ih =>
    obtain ⟨⟨hp, hf⟩, hxs⟩ := List.forall_mem_cons.1 h
    rw [through, through, List.flatMap_cons, List.flatMap_cons, hp, hf]
    cases q x with
    | true => rfl
    | false => exact congrArg (g x ++ ·) (ih hxs)

/-- What is found first is found in the beginning that ends with it. -/
theorem findSome?_through {β : Type} (f : α → Option β) (xs : List α) :
    (through (fun x => (f x).isSome) xs).findSome? f = xs.findSome? f := by
  induction xs with
  | nil => rfl
  | cons x xs ih =>
    rw [through, List.findSome?_cons, List.findSome?_cons]
    cases hx : f x with
    | some found => rfl
    | none => simpa using ih

end Through

/-! ## Visits -/

/-- Whether an event is no more than a remark on how expansion proceeds. -/
def Event.isRemark : Event → Bool
  | .expanding _ _ _ => true
  | _ => false

/-- The events that are calls and warnings, in order. -/
def observed (events : List Event) : List Event :=
  events.filter fun event => !event.isRemark

@[simp] theorem observed_nil : observed [] = [] := rfl

@[simp] theorem observed_append (events later : List Event) :
    observed (events ++ later) = observed events ++ observed later :=
  List.filter_append events later

/-- A place that reading comes to. -/
inductive Visit where
  /-- The node at an address is looked up. -/
  | node (address : Address)
  /-- The chain that leads here holds too many keys, so nothing is looked up. -/
  | cut (chain : List String)
  deriving DecidableEq, Repr

namespace Visit

/-- What is wrong at a visit, for one locale. -/
def problem? (library : Library) (locale : Locale) : Visit → Option Problem
  | .node address =>
    let pair : Pair := ⟨locale, address.moduleId⟩
    match library.node? pair address.key with
    | some (.text _) => none
    | some (.table _) => some (.keyPartial pair address.key)
    | none => some (.keyMissing pair address.key)
  | .cut chain => some (.cyclicReference locale chain)

/-- The call of a notifier at a visit: of the pair that is read, if that has one, with the node that is found. -/
def told (library : Library) (locale : Locale) : Visit → List Event
  | .node address =>
    let pair : Pair := ⟨locale, address.moduleId⟩
    if library.notifies pair then [.accessed pair address.key (library.node? pair address.key)] else []
  | .cut _ => []

/-- Nothing that a visit tells is a remark. -/
theorem observed_told (library : Library) (locale : Locale) (visit : Visit) :
    observed (visit.told library locale) = visit.told library locale := by
  cases visit with
  | node address =>
    simp only [told]
    split <;> rfl
  | cut chain => rfl

end Visit

namespace Library

/-- What the text at an address refers to, from left to right; without a text that is nothing. -/
def references (library : Library) (locale : Locale) (address : Address) : List Address :=
  match library.node? ⟨locale, address.moduleId⟩ address.key with
  | some (.text text) => Piece.references address.moduleId (Marker.decompose text.toList)
  | _ => []

/-- The references of an address are those of the text found there. -/
theorem references_of_text {library : Library} {locale : Locale} {address : Address} {text : String}
    (h : library.node? ⟨locale, address.moduleId⟩ address.key = some (.text text)) :
    library.references locale address = Piece.references address.moduleId (Marker.decompose text.toList) := by
  simp only [references, h]

/-- All that reading an address would visit if it did not stop at problems, depth first and from left to right, where
the chain may still take `room` keys. -/
def unfolding (library : Library) (locale : Locale) : Nat → List String → Address → List Visit
  | 0, chain, address => [.cut (chain ++ [addressLabel address.moduleId address.key])]
  | room + 1, chain, address =>
    .node address :: (library.references locale address).flatMap
      (library.unfolding locale room (chain ++ [addressLabel address.moduleId address.key]))

/-- What reading a key visits: its unfolding up to the first visit with a problem. -/
def visits (library : Library) (pair : Pair) (key : Key) : List Visit :=
  through (fun visit => (visit.problem? library pair.locale).isSome)
    (library.unfolding pair.locale library.chainLimit [] ⟨pair.moduleId, key⟩)

end Library

/-! ## Reading follows the visits -/

/-- The problem of a result that is none. -/
def Traced.problem? {α : Type} (t : Traced α) : Option Problem :=
  match t.result with
  | .ok _ => none
  | .error problem => some problem

/-- A reading goes along visits: it makes the calls of the visits up to the first one with a problem, and has the
problem of that one. -/
structure Traced.Follows {α : Type} (library : Library) (locale : Locale) (t : Traced α) (visits : List Visit) :
    Prop where
  observed_events : observed t.events =
    (through (fun visit => (visit.problem? library locale).isSome) visits).flatMap (Visit.told library locale)
  problem?_eq : t.problem? = visits.findSome? (Visit.problem? library locale)

namespace Traced.Follows

variable {α β : Type} {library : Library} {locale : Locale} {t : Traced α} {visits later : List Visit}

/-- A reading that gives a value at once goes along no visits at all. -/
theorem done (a : α) : (Traced.done a).Follows library locale [] :=
  ⟨rfl, rfl⟩

/-- Remarks are no visits. -/
theorem after_remark (h : t.Follows library locale visits) {remark : Event} (hremark : remark.isRemark = true) :
    (t.after [remark]).Follows library locale visits := by
  refine ⟨?_, h.problem?_eq⟩
  rw [← h.observed_events, Traced.after, observed_append, observed, List.filter_cons_of_neg (by simp [hremark])]
  rfl

/-- A visit without a problem comes first. -/
theorem visit (h : t.Follows library locale visits) {visit : Visit} (hnone : visit.problem? library locale = none) :
    (t.after (visit.told library locale)).Follows library locale (visit :: visits) := by
  constructor
  · rw [through, hnone, Option.isSome_none, if_neg Bool.false_ne_true, List.flatMap_cons, ← h.observed_events,
      Traced.after, observed_append, Visit.observed_told]
  · rw [List.findSome?_cons, hnone]
    exact h.problem?_eq

/-- A visit with a problem is the last one. -/
theorem fail {visit : Visit} {problem : Problem} (hproblem : visit.problem? library locale = some problem)
    (later : List Visit) :
    ((Traced.failed problem : Traced α).after (visit.told library locale)).Follows library locale
      (visit :: later) := by
  constructor
  · rw [through, hproblem, Option.isSome_some, if_pos rfl, List.flatMap_singleton]
    exact (congrArg observed (List.append_nil _)).trans (visit.observed_told library locale)
  · rw [List.findSome?_cons, hproblem]
    rfl

/-- Going on makes the visits of both parts, or of the first one only if that fails. -/
theorem andThen {f : α → Traced β} (h : t.Follows library locale visits)
    (hgo : ∀ a, (f a).Follows library locale later) : (t.andThen f).Follows library locale (visits ++ later) := by
  obtain ⟨hevents, hproblem⟩ := h
  unfold Traced.andThen
  cases hresult : t.result with
  | ok a =>
    -- the first part has no problem, so all of its visits are made and those of the second part follow
    have hnone : visits.findSome? (Visit.problem? library locale) = none := by
      rw [← hproblem, problem?, hresult]
    have hclean : ∀ visit ∈ visits, (visit.problem? library locale).isSome = false := by
      simpa using hnone
    constructor
    · rw [through_append_of_forall hclean, List.flatMap_append, ← (hgo a).observed_events]
      rw [through_of_forall hclean] at hevents
      rw [← hevents]
      exact observed_append _ _
    · rw [List.findSome?_append, hnone, Option.none_or, ← (hgo a).problem?_eq]
      rfl
  | error problem =>
    -- the visit with the problem is in the first part, so the second one is not begun
    have hsome : visits.findSome? (Visit.problem? library locale) = some problem := by
      rw [← hproblem, problem?, hresult]
    obtain ⟨visit, hmem, hvisit⟩ := List.exists_of_findSome?_eq_some hsome
    constructor
    · rw [through_append_of_exists ⟨visit, hmem, by simp [hvisit]⟩]
      exact hevents
    · rw [List.findSome?_append, hsome]
      rfl

end Traced.Follows

namespace Library

variable {library : Library} {locale : Locale}

/-- Putting a text together visits what its markers refer to, one after another. -/
theorem follows_expandPieces {home : ModuleId} {follow : ModuleId → Key → Traced (List Char)}
    {below : Address → List Visit}
    (h : ∀ address, (follow address.moduleId address.key).Follows library locale (below address))
    (pieces : List Piece) :
    (expandPieces locale home follow pieces).Follows library locale ((Piece.references home pieces).flatMap below) := by
  induction pieces with
  | nil => exact .done _
  | cons piece pieces ih =>
    cases piece with
    | literal text =>
      have hrest := ih.andThen fun tail => .done (text ++ tail)
      rwa [List.append_nil] at hrest
    | marker inner =>
      refine ((h ((Target.ofInner inner).address home)).andThen fun text => ?_).after_remark rfl
      have hrest := ih.andThen fun tail => .done (text ++ tail)
      rwa [List.append_nil] at hrest

/-- Reading goes along the unfolding. -/
theorem follows_readWithin (room : Nat) (chain : List String) (address : Address) :
    (library.readWithin locale room chain address.moduleId address.key).Follows library locale
      (library.unfolding locale room chain address) := by
  -- on the room: what the text refers to is read with one key less to spare
  induction room generalizing chain address with
  | zero =>
    let names := chain ++ [addressLabel address.moduleId address.key]
    have hproblem : (Visit.cut names).problem? library locale = some (.cyclicReference locale names) := rfl
    exact .fail hproblem []
  | succ room ih =>
    rw [readWithin, ← node?, unfolding]
    change (Traced.after ((Visit.node address).told library locale) _).Follows library locale _
    cases hnode : library.node? ⟨locale, address.moduleId⟩ address.key with
    | none => exact .fail (by simp only [Visit.problem?, hnode]) _
    | some node =>
      cases node with
      | text raw =>
        rw [references_of_text hnode]
        exact (follows_expandPieces (fun target => ih _ target) _).visit (by simp only [Visit.problem?, hnode])
      | table entries => exact .fail (by simp only [Visit.problem?, hnode]) _

/-- Reading a key goes along the unfolding of the key. -/
theorem follows_read (library : Library) (pair : Pair) (key : Key) :
    (library.read pair key).Follows library pair.locale
      (library.unfolding pair.locale library.chainLimit [] ⟨pair.moduleId, key⟩) := by
  have hread : (library.read pair key).Follows library pair.locale
      (library.unfolding pair.locale library.chainLimit [] ⟨pair.moduleId, key⟩ ++ []) :=
    (follows_readWithin library.chainLimit [] ⟨pair.moduleId, key⟩).andThen fun text => .done (String.ofList text)
  rwa [List.append_nil] at hread

/-- Reading a key makes the calls of its visits, and has the problem of the one that has a problem. -/
theorem observed_read (library : Library) (pair : Pair) (key : Key) :
    observed (library.read pair key).events =
        (library.visits pair key).flatMap (Visit.told library pair.locale) ∧
      (library.read pair key).problem? =
        (library.visits pair key).findSome? (Visit.problem? library pair.locale) := by
  obtain ⟨hevents, hproblem⟩ := library.follows_read pair key
  exact ⟨hevents, hproblem.trans (findSome?_through _ _).symm⟩

/-- A key that is referred to twice is visited twice, and nothing is visited behind a key that is missing. -/
example :
    let texts : Resource := .table [("a", .text "<:b/>, <:b/>, <:c/>, <:b/>"), ("b", .text "B")]
    let library : Library := { resource? := fun _ => some texts, notifies := fun _ => true, maxDepth := 1 }
    let app : ModuleId := ⟨"app"⟩
    library.visits ⟨⟨"en"⟩, app⟩ ["a"] =
      [.node ⟨app, ["a"]⟩, .node ⟨app, ["b"]⟩, .node ⟨app, ["b"]⟩, .node ⟨app, ["c"]⟩] := by
  cbv

end Library

end Phrasebook
