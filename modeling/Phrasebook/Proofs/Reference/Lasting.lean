import Phrasebook.Proofs.Reference.Tree

/-!
# Lasting results

Reading goes depth first and stops at the first problem, so nothing matters but what it met on the way.
`Traced.Persists` compares a reading with another one that has more loaded or more depth: both have the same
result unless the first one met a problem that may pass (`Library.persists_readWithin`). When more is loaded,
only a key that is missing from a pair not loaded yet may be found (`Library.Grows.result_read_eq`); when more
depth is allowed, only a chain that was too long may end (`Library.result_read_deepen`).
-/

namespace Phrasebook

namespace Traced

variable {α β : Type} {lasting : Problem → Prop}

/-- A step that succeeds hands its value on. -/
theorem result_andThen_of_ok {t : Traced α} {f : α → Traced β} {a : α} (h : t.result = .ok a) :
    (t.andThen f).result = (f a).result := by
  simp only [andThen, h, result_after]

/-- A step that fails decides the result. -/
theorem result_andThen_of_error {t : Traced α} {f : α → Traced β} {problem : Problem}
    (h : t.result = .error problem) : (t.andThen f).result = .error problem := by
  simp only [andThen, h]

/-- The later one has the result of the first, unless that is a problem that does not last. -/
def Persists (lasting : Problem → Prop) (first later : Traced α) : Prop :=
  (∀ problem, first.result = .error problem → lasting problem) → later.result = first.result

/-- Every result persists where nothing changes. -/
theorem Persists.refl (t : Traced α) : t.Persists lasting t :=
  fun _ => rfl

/-- What is told before a reading has no influence on its result. -/
theorem Persists.after {first later : Traced α} (h : first.Persists lasting later) (events told : List Event) :
    (first.after events).Persists lasting (later.after told) := by
  intro hlasting
  rw [result_after] at hlasting ⊢
  rw [result_after]
  exact h hlasting

/-- Going on in ways that persist persists. -/
theorem Persists.andThen {first later : Traced α} {f g : α → Traced β} (h : first.Persists lasting later)
    (hgo : ∀ a, (f a).Persists lasting (g a)) : (first.andThen f).Persists lasting (later.andThen g) := by
  intro hlasting
  cases hfirst : first.result with
  | ok a =>
    have hlater : later.result = .ok a := by
      rw [h (by simp [hfirst]), hfirst]
    rw [result_andThen_of_ok hfirst] at hlasting ⊢
    rw [result_andThen_of_ok hlater]
    exact hgo a hlasting
  | error problem =>
    have hproblem : lasting problem := hlasting problem (result_andThen_of_error hfirst)
    have hlater : later.result = .error problem := by
      rw [h (by simp [hfirst, hproblem]), hfirst]
    rw [result_andThen_of_error hfirst, result_andThen_of_error hlater]

end Traced

namespace Library

variable {library later : Library} {lasting : Problem → Prop}

/-- Putting a text together persists when following its markers does. -/
theorem persists_expandPieces {locale : Locale} {home : ModuleId} {follow go : ModuleId → Key → Traced (List Char)}
    (h : ∀ moduleId key, (follow moduleId key).Persists lasting (go moduleId key)) (pieces : List Piece) :
    (expandPieces locale home follow pieces).Persists lasting (expandPieces locale home go pieces) := by
  induction pieces with
  | nil => exact .refl _
  | cons piece pieces ih =>
    cases piece with
    | literal text => exact ih.andThen fun _ => .refl _
    | marker inner =>
      have hgo (reading : List Char) := ih.andThen fun tail => .refl (Traced.done (reading ++ tail))
      exact ((h _ _).andThen hgo).after _ _

/-- Reading persists in a library that finds what was found, and in which a key that was missing for good is
still missing. More room may be given only if a chain that was too long does not last. -/
theorem persists_readWithin {locale : Locale}
    (hfound : ∀ {pair key node}, library.node? pair key = some node → later.node? pair key = some node)
    (hmissing : ∀ {pair key}, library.node? pair key = none → lasting (.keyMissing pair key) →
      later.node? pair key = none)
    {more : Nat} (hmore : more = 0 ∨ ∀ chain, ¬ lasting (.cyclicReference locale chain))
    (room : Nat) (chain : List String) (moduleId : ModuleId) (key : Key) :
    (library.readWithin locale room chain moduleId key).Persists lasting
      (later.readWithin locale (room + more) chain moduleId key) := by
  -- on the room of the first reading: the later one has `more` to spare at every key
  induction room generalizing chain moduleId key with
  | zero =>
    intro hlasting
    have hcyclic := hlasting _ rfl
    -- the first reading is out of room, so it has to last and no room is added
    obtain rfl : more = 0 := hmore.resolve_right fun hnever => hnever _ hcyclic
    rfl
  | succ room ih =>
    rw [Nat.add_right_comm, readWithin, readWithin, ← node?, ← node?]
    cases hnode : library.node? ⟨locale, moduleId⟩ key with
    | none =>
      intro hlasting
      have hstill := hmissing hnode (hlasting _ rfl)
      rw [hstill]
      rfl
    | some node =>
      rw [hfound hnode]
      cases node with
      | text text => exact (persists_expandPieces (fun target key => ih _ target key) _).after _ _
      | table entries => exact (Traced.Persists.refl _).after _ _

/-- Reading a key persists under the same conditions, if the later library has `more` room for its chain. -/
theorem persists_read {pair : Pair}
    (hfound : ∀ {pair key node}, library.node? pair key = some node → later.node? pair key = some node)
    (hmissing : ∀ {pair key}, library.node? pair key = none → lasting (.keyMissing pair key) →
      later.node? pair key = none)
    {more : Nat} (hmore : more = 0 ∨ ∀ chain, ¬ lasting (.cyclicReference pair.locale chain))
    (hlimit : later.chainLimit = library.chainLimit + more) (key : Key) :
    (library.read pair key).Persists lasting (later.read pair key) := by
  have hpersists := persists_readWithin hfound hmissing hmore library.chainLimit [] pair.moduleId key
  rw [← hlimit] at hpersists
  exact hpersists.andThen fun text => .refl (Traced.done (String.ofList text))

/-- What a key reads to stays when more is loaded, unless the reading misses a key of a pair that is not
loaded. -/
theorem Grows.result_read_eq (h : library.Grows later) {pair : Pair} {key : Key}
    (hloaded : ∀ other missing, (library.read pair key).result = .error (.keyMissing other missing) →
      (library.resource? other).isSome = true) :
    (later.read pair key).result = (library.read pair key).result := by
  have hlimit : later.chainLimit = library.chainLimit + 0 := by
    rw [chainLimit, chainLimit, h.maxDepth_eq]
    rfl
  have hmissing {pair : Pair} {key : Key} (hnode : library.node? pair key = none)
      (hsome : ∀ other missing, Problem.keyMissing pair key = .keyMissing other missing →
        (library.resource? other).isSome = true) : later.node? pair key = none := by
    obtain ⟨resource, hresource⟩ := Option.isSome_iff_exists.1 (hsome pair key rfl)
    rw [node?, hresource] at hnode
    rw [node?, h.resource?_eq_some hresource]
    exact hnode
  have hpersists : (library.read pair key).Persists
      (fun problem => ∀ other missing, problem = .keyMissing other missing →
        (library.resource? other).isSome = true) (later.read pair key) :=
    persists_read h.node?_eq_some hmissing (.inl rfl) hlimit key
  refine hpersists ?_
  rintro _ hread other missing rfl
  exact hloaded other missing hread

/-- What is found in a library depends on its resources only. -/
theorem node?_congr (hsame : ∀ pair, later.resource? pair = library.resource? pair) (pair : Pair) (key : Key) :
    later.node? pair key = library.node? pair key := by
  rw [node?, node?, hsame]

/-- What a key reads to depends on the resources and the depth, not on what is notified. -/
theorem result_read_congr (hsame : ∀ pair, later.resource? pair = library.resource? pair)
    (hdepth : later.maxDepth = library.maxDepth) (pair : Pair) (key : Key) :
    (later.read pair key).result = (library.read pair key).result := by
  have hlimit : later.chainLimit = library.chainLimit + 0 := by
    rw [chainLimit, chainLimit, hdepth]
    rfl
  have hpersists : (library.read pair key).Persists (fun _ => True) (later.read pair key) :=
    persists_read (fun hnode => (node?_congr hsame _ _).trans hnode)
      (fun hnode _ => (node?_congr hsame _ _).trans hnode) (.inl rfl) hlimit key
  exact hpersists fun _ _ => trivial

/-- What a key reads to stays when more depth is allowed, unless the reading meets a chain that is too long. -/
theorem result_read_deepen (hsame : ∀ pair, later.resource? pair = library.resource? pair)
    (hdepth : library.maxDepth ≤ later.maxDepth) {pair : Pair} {key : Key}
    (hshort : ∀ chain, (library.read pair key).result ≠ .error (.cyclicReference pair.locale chain)) :
    (later.read pair key).result = (library.read pair key).result := by
  obtain ⟨more, hmore⟩ : ∃ more, later.chainLimit = library.chainLimit + more := by
    refine Nat.exists_eq_add_of_le ?_
    simp only [chainLimit]
    omega
  have hpasses (chain : List String) :
      ¬ ∀ other, Problem.cyclicReference pair.locale chain ≠ .cyclicReference pair.locale other :=
    fun hne => hne chain rfl
  have hpersists : (library.read pair key).Persists
      (fun problem => ∀ chain, problem ≠ .cyclicReference pair.locale chain) (later.read pair key) :=
    persists_read (fun hnode => (node?_congr hsame _ _).trans hnode)
      (fun hnode _ => (node?_congr hsame _ _).trans hnode) (.inr hpasses) hmore key
  refine hpersists ?_
  rintro _ hread chain rfl
  exact hshort chain hread

end Library

end Phrasebook
