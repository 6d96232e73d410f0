import Phrasebook.Reference.Expansion

/-!
# Reading on a shared chain

A reading can keep the labels of the keys that led to where it is on one chain, which all its calls share: a call
pushes its label before anything else, measures the chain, and pops the label when it has its text; a call that fails
leaves the chain as it stands (`readOnChain?`). Main statement: that is `Library.readWithin`, which hands every call a
chain of its own and counts the room that is left (`simulates_readOnChain`, `readShared?_eq_some`).
-/

namespace Phrasebook

/-- Something done on a chain of labels: the labels that it leaves there, and what comes of it. It gives up where its
calls nest deeper than it was prepared for. -/
def OnChain (α : Type) : Type :=
  List String → Option (List String × Traced α)

namespace OnChain

variable {α β : Type}

/-- Do one thing after another on the same chain, unless the first one fails. -/
def andThen (walk : OnChain α) (next : α → OnChain β) : OnChain β :=
  fun chain => (walk chain).bind fun found =>
    match found.2.result with
    | .ok a => (next a found.1).map fun last => (last.1, last.2.after found.2.events)
    | .error problem => some (found.1, ⟨found.2.events, .error problem⟩)

instance : Monad OnChain where
  pure a := fun chain => some (chain, .done a)
  bind := andThen

/-- Put a label at the end of the chain. -/
def push (label : String) : OnChain Unit :=
  fun chain => some (chain ++ [label], .done ())

/-- Take the last label off the chain. -/
def pop : OnChain Unit :=
  fun chain => some (chain.dropLast, .done ())

/-- The labels on the chain. -/
def labels : OnChain (List String) :=
  fun chain => some (chain, .done chain)

/-- Tell events. -/
def tell (events : List Event) : OnChain Unit :=
  fun chain => some (chain, ⟨events, .ok ()⟩)

/-- Fail, and leave the chain as it stands. -/
def fail (problem : Problem) : OnChain α :=
  fun chain => some (chain, .failed problem)

/-- Give up. -/
def giveUp : OnChain α :=
  fun _ => none

end OnChain

namespace Library

open OnChain

/-- Put a text together from its pieces; `follow` reads the targets of the markers on the same chain. -/
def expandOnChain? (locale : Locale) (home : ModuleId) (follow : ModuleId → Key → OnChain (List Char)) :
    List Piece → OnChain (List Char)
  | [] => pure []
  | .literal text :: rest => do
    let tail ← expandOnChain? locale home follow rest
    pure (text ++ tail)
  | .marker inner :: rest => do
    let target := Target.ofInner inner
    let moduleId := target.moduleId.getD home
    tell [.expanding locale moduleId (String.ofList inner)]
    let text ← follow moduleId target.key
    let tail ← expandOnChain? locale home follow rest
    pure (text ++ tail)

/-- Read a key on a shared chain, with calls that nest at most so deep. -/
def readOnChain? (library : Library) (locale : Locale) : Nat → ModuleId → Key → OnChain (List Char)
  | 0, _, _ => giveUp
  | depth + 1, moduleId, key => do
    push (addressLabel moduleId key)
    let chain ← labels
    if library.chainLimit < chain.length then
      fail (.cyclicReference locale chain)
    else
      let pair : Pair := ⟨locale, moduleId⟩
      let found := (library.resource? pair).bind fun resource => resource.lookup key
      tell (if library.notifies pair then [.accessed pair key found] else [])
      match found with
      | some (.text text) => do
        let expanded ← expandOnChain? locale moduleId (readOnChain? library locale depth)
          (Marker.decompose text.toList)
        pop
        pure expanded
      | some (.table _) => fail (.keyPartial pair key)
      | none => fail (.keyMissing pair key)

/-- Read the fully expanded text of a key for a pair, beginning with an empty chain. -/
def readShared? (library : Library) (pair : Pair) (key : Key) : Option (Traced String) :=
  (library.readOnChain? pair.locale (library.chainLimit + 1) pair.moduleId key []).map fun (_, reading) =>
    reading.andThen fun text => .done (String.ofList text)

end Library

/-! ## What is left on the chain -/

/-- What may be left on a chain when a reading is there: some labels if it succeeds, and the labels that it reports if
it has found the chain too long. -/
structure Traced.Leaves {α : Type} (reading : Traced α) (home left : List String) : Prop where
  of_ok : ∀ {a}, reading.result = .ok a → left = home
  of_cyclic : ∀ {locale labels}, reading.result = .error (.cyclicReference locale labels) → left = labels

/-- Begun on a chain, it comes to a reading, and leaves the labels `home` if that succeeds. -/
def OnChain.Simulates {α : Type} (walk : OnChain α) (start home : List String) (reading : Traced α) : Prop :=
  ∃ left, walk start = some (left, reading) ∧ reading.Leaves home left

namespace Traced

variable {α : Type}

/-- A reading that is only handed on is itself. -/
theorem andThen_done (reading : Traced α) : reading.andThen done = reading := by
  obtain ⟨events, result⟩ := reading
  cases result with
  | ok a => simp [andThen, after, done]
  | error problem => rfl

end Traced

namespace OnChain

variable {α β : Type} {walk : OnChain α} {next : α → OnChain β} {start middle home chain : List String}
  {reading : Traced α}

/-- A walk that gives a value and tells nothing simulates a reading that does. -/
theorem simulates_done {a : α} (h : walk start = some (home, .done a)) : walk.Simulates start home (.done a) :=
  ⟨home, h, ⟨fun _ => rfl, nofun⟩⟩

/-- A walk that does nothing leaves the chain as it is. -/
theorem simulates_pure (a : α) : (pure a : OnChain α).Simulates chain chain (.done a) :=
  simulates_done rfl

/-- A failure leaves the chain as it stands; if it says that the chain is too long, it has to report it. -/
theorem simulates_fail {problem : Problem}
    (hcyclic : ∀ {locale labels}, problem = .cyclicReference locale labels → labels = chain) :
    (fail problem : OnChain α).Simulates chain home (.failed problem) :=
  ⟨chain, rfl, nofun, fun heq => (hcyclic (Except.error.inj heq)).symm⟩

/-- After a success the next part goes on with what is left, and its events come behind. -/
theorem bind_of_ok {left : List String} {a : α} (h : walk start = some (left, reading)) (hok : reading.result = .ok a) :
    (walk >>= next) start = (next a left).map fun last => (last.1, last.2.after reading.events) := by
  simp only [Bind.bind, andThen, h, Option.bind_some, hok]

/-- After a failure nothing goes on. -/
theorem bind_of_error {left : List String} {problem : Problem} (h : walk start = some (left, reading))
    (herror : reading.result = .error problem) :
    (walk >>= next) start = some (left, ⟨reading.events, .error problem⟩) := by
  simp only [Bind.bind, andThen, h, Option.bind_some, herror]

/-- What is done one after another on a shared chain comes to the readings one after another. -/
theorem Simulates.bind (h : walk.Simulates start middle reading) (later : α → Traced β)
    (hnext : ∀ a, reading.result = .ok a → (next a).Simulates middle home (later a)) :
    (walk >>= next).Simulates start home (reading.andThen later) := by
  obtain ⟨left, hwalk, hleaves⟩ := h
  simp only [Traced.andThen]
  cases hresult : reading.result with
  | ok a =>
    -- the second part finds what the first one leaves when it succeeds
    obtain rfl := hleaves.of_ok hresult
    obtain ⟨last, hrest, hlast⟩ := hnext a hresult
    exact ⟨last, by rw [bind_of_ok hwalk hresult, hrest, Option.map_some], ⟨hlast.of_ok, hlast.of_cyclic⟩⟩
  | error problem =>
    refine ⟨left, bind_of_error hwalk hresult, nofun, fun heq => ?_⟩
    obtain rfl := Except.error.inj heq
    exact hleaves.of_cyclic hresult

/-- A label that was pushed is there for all that follows. -/
theorem Simulates.pushed {label : String} (h : walk.Simulates (start ++ [label]) home reading) :
    (push label >>= fun _ => walk).Simulates start home reading := by
  have hpush : (push label).Simulates start (start ++ [label]) (.done ()) := simulates_done rfl
  exact hpush.bind (fun _ => reading) fun _ _ => h

/-- Looking at the chain leaves it alone. -/
theorem Simulates.looked {next : List String → OnChain β} {reading : Traced β}
    (h : (next start).Simulates start home reading) : (labels >>= next).Simulates start home reading := by
  have hlook : labels.Simulates start start (.done start) := simulates_done rfl
  refine hlook.bind (fun _ => reading) fun chain hchain => ?_
  obtain rfl := Except.ok.inj hchain
  exact h

/-- Events that are told stand in front of all that follow. -/
theorem Simulates.told {events : List Event} (h : walk.Simulates start home reading) :
    (tell events >>= fun _ => walk).Simulates start home (reading.after events) := by
  have htell : (tell events).Simulates start start ⟨events, .ok ()⟩ := ⟨start, rfl, fun _ => rfl, nofun⟩
  exact htell.bind (fun _ => reading) fun _ _ => h

/-- A label that is popped at the end is there no more, and the reading is the same. -/
theorem Simulates.popped {label : String} (h : walk.Simulates start (home ++ [label]) reading) :
    (walk >>= fun a => pop >>= fun _ => pure a).Simulates start home reading := by
  have hpop : pop.Simulates (home ++ [label]) home (.done ()) := simulates_done (by rw [pop, List.dropLast_concat])
  rw [← reading.andThen_done]
  exact h.bind _ fun a _ => hpop.bind (fun _ => .done a) fun _ _ => simulates_pure a

end OnChain

namespace Library

open OnChain

/-- A text is put together on a shared chain as it is on separate ones, if its targets are read so. -/
theorem simulates_expandOnChain {locale : Locale} {home : ModuleId} {follow? : ModuleId → Key → OnChain (List Char)}
    {follow : ModuleId → Key → Traced (List Char)} {chain : List String}
    (hfollow : ∀ moduleId key, (follow? moduleId key).Simulates chain chain (follow moduleId key))
    (pieces : List Piece) :
    (expandOnChain? locale home follow? pieces).Simulates chain chain (expandPieces locale home follow pieces) := by
  induction pieces with
  | nil => exact simulates_pure []
  | cons piece pieces ih =>
    cases piece with
    | literal text => exact ih.bind _ fun tail _ => simulates_pure (text ++ tail)
    | marker inner =>
      refine Simulates.told ?_
      exact (hfollow _ _).bind _ fun text _ => ih.bind _ fun tail _ => simulates_pure (text ++ tail)

/-- **A shared chain is as good as one for each call.** Where the labels on the chain and the room for further keys
make up the limit, both come to the same, with the same events; the chain is left as it was found, or holds the labels
that are reported as too many. -/
theorem simulates_readOnChain (library : Library) (locale : Locale) {room depth : Nat} {chain : List String}
    (hroom : chain.length + room = library.chainLimit) (hdepth : room < depth) (moduleId : ModuleId) (key : Key) :
    (library.readOnChain? locale depth moduleId key).Simulates chain chain
      (library.readWithin locale room chain moduleId key) := by
  -- on the room: below a key the chain is one label longer, and there is room for one key less
  induction room generalizing chain depth moduleId key with
  | zero =>
    obtain ⟨depth, rfl⟩ : ∃ below, depth = below + 1 := ⟨depth - 1, by omega⟩
    have hlong : library.chainLimit < (chain ++ [addressLabel moduleId key]).length := by
      rw [List.length_append, List.length_singleton]
      omega
    refine Simulates.pushed (Simulates.looked ?_)
    rw [if_pos hlong]
    exact simulates_fail fun heq => (Problem.cyclicReference.inj heq).2.symm
  | succ room ih =>
    obtain ⟨depth, rfl⟩ : ∃ below, depth = below + 1 := ⟨depth - 1, by omega⟩
    have hlength : (chain ++ [addressLabel moduleId key]).length + room = library.chainLimit := by
      rw [List.length_append, List.length_singleton]
      omega
    have hshort : ¬ library.chainLimit < (chain ++ [addressLabel moduleId key]).length := by omega
    have hfollow := ih hlength (Nat.lt_of_succ_lt_succ hdepth)
    refine Simulates.pushed (Simulates.looked ?_)
    rw [if_neg hshort]
    refine Simulates.told ?_
    cases (library.resource? ⟨locale, moduleId⟩).bind fun resource => resource.lookup key with
    | none => exact simulates_fail nofun
    | some found =>
      cases found with
      | table entries => exact simulates_fail nofun
      | text text =>
        exact (simulates_expandOnChain hfollow (Marker.decompose text.toList)).popped

/-- Reading on a shared chain, from an empty one on, is reading. -/
theorem readShared?_eq_some (library : Library) (pair : Pair) (key : Key) :
    library.readShared? pair key = some (library.read pair key) := by
  have hroom : ([] : List String).length + library.chainLimit = library.chainLimit := Nat.zero_add _
  obtain ⟨left, hread, -⟩ :=
    library.simulates_readOnChain pair.locale hroom (Nat.lt_succ_self _) pair.moduleId key
  rw [readShared?, hread]
  rfl

end Library

end Phrasebook
