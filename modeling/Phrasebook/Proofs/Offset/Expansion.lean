import Phrasebook.Proofs.Offset.Marker
import Phrasebook.Proofs.Reference.Cutting

/-!
# Expanding references by offset

A text can be expanded in one pass with a cursor: what stands before a marker is copied, the reading of its target is
put behind it, and the cursor moves behind the marker (`expansion`). Main statements: the pass gives what
`Library.expandPieces` gives for the cut text (`expansion_completes`), and so reading a key by offsets is reading it
(`read?_eq_some`).
-/

namespace Phrasebook.Offset

open Marker

/-- How far an expansion has come: the events so far, the text put together so far, and the cursor. -/
structure Expansion where
  events : List Event
  output : List Char
  cursor : Nat

section Pass

variable (locale : Locale) (home : ModuleId) (follow? : ModuleId → Key → Option (Traced (List Char)))

/-- The expansion of a text. Something can also go wrong in the reading of a target. -/
def expansion (text : String) : Loop Expansion (Traced (List Char)) where
  left state := text.utf8ByteSize - state.cursor
  round state := do
    match ← nextMarker? text state.cursor with
    | none =>
      let rest ← sliceFrom? text state.cursor
      some (.done ⟨state.events, .ok (state.output ++ rest.toList)⟩)
    | some site =>
      let target := Target.ofInner site.inner.toList
      let moduleId := target.moduleId.getD home
      let literal ← slice? text state.cursor site.start
      let inserted ← follow? moduleId target.key
      let events := state.events ++ .expanding locale moduleId site.inner :: inserted.events
      match inserted.result with
      | .error problem => some (.done ⟨events, .error problem⟩)
      | .ok insertion => some (.next ⟨events, state.output ++ literal.toList ++ insertion, site.stop⟩)

/-- Expand a text from its beginning on. -/
def expand? (text : String) : Option (Traced (List Char)) :=
  (expansion locale home follow? text).run ⟨[], [], 0⟩

end Pass

section Meant

variable {locale : Locale} {home : ModuleId} {follow : ModuleId → Key → Traced (List Char)}

/-- What the expansion is meant to give from a state on: what it has put together so far, and behind it the expansion of
the rest. -/
def MeantExpansion (locale : Locale) (home : ModuleId) (follow : ModuleId → Key → Traced (List Char)) (text : String)
    (state : Expansion) (result : Traced (List Char)) : Prop :=
  ∃ before after, text = before ++ after ∧ state.cursor = before.utf8ByteSize ∧
    result = Traced.after state.events ((Library.expandPieces locale home follow (decompose after.toList)).andThen
      fun tail => .done (state.output ++ tail))

/-- A round takes a marker with the literal in front, or the rest of the text, and what is put together with the
expansion of what is left stays the same. -/
theorem expansion_keeps (text : String) :
    (expansion locale home (fun moduleId key => some (follow moduleId key)) text).Keeps
      (MeantExpansion locale home follow text) := by
  rintro ⟨events, output, cursor⟩ result ⟨before, after, rfl, hcursor, rfl⟩
  obtain rfl : cursor = before.utf8ByteSize := hcursor
  simp only [expansion, nextMarker?_append, Option.bind_eq_bind, Option.bind_some]
  cases hnext : next? after.toList with
  | none =>
    left
    simp only [Option.map_none, sliceFrom?_append, Option.bind_some, decompose_of_next?_eq_none hnext]
    simp [Library.expandPieces, Traced.andThen, Traced.after, Traced.done]
  | some found =>
    obtain ⟨literal, inner, rest⟩ := found
    obtain ⟨source, hsource⟩ : ∃ source, String.ofList (Piece.marker inner).source = source := ⟨_, rfl⟩
    have hafter : after = String.ofList literal ++ (source ++ String.ofList rest) := by
      rw [← hsource, ← String.ofList_append, ← String.ofList_append, ← List.append_assoc, ← eq_of_next? hnext,
        String.ofList_toList]
    have hliteral : slice? (before ++ after) before.utf8ByteSize
        (before.utf8ByteSize + (String.ofList literal).utf8ByteSize) = some (String.ofList literal) := by
      have hsplit := slice?_append before (String.ofList literal) (source ++ String.ofList rest)
      rwa [String.append_assoc, ← hafter, String.utf8ByteSize_append] at hsplit
    simp only [Option.map_some, Site.behind, hliteral, Option.bind_some, decompose_of_next? hnext, hsource,
      String.toList_ofList]
    cases hresult : (follow ((Target.ofInner inner).moduleId.getD home) (Target.ofInner inner).key).result with
    | error problem =>
      left
      simp [Library.expandPieces, Traced.andThen, Traced.after, hresult]
    | ok insertion =>
      -- the marker takes at least the bytes of its opener
      refine .inr ⟨_, rfl, ?_, before ++ String.ofList literal ++ source, String.ofList rest, ?_, ?_, ?_⟩
      · have hsize := Site.utf8ByteSize_source (String.ofList inner)
        have hopen : "<:".utf8ByteSize = 2 := rfl
        rw [String.toList_ofList, hsource] at hsize
        simp only [hafter, String.utf8ByteSize_append]
        omega
      · rw [hafter, String.append_assoc, String.append_assoc]
      · simp only [String.utf8ByteSize_append]
      · rw [String.toList_ofList]
        cases hrest : (Library.expandPieces locale home follow (decompose rest)).result with
        | error problem =>
          simp [Library.expandPieces, Traced.andThen, Traced.after, hresult, hrest]
        | ok tail => simp [Library.expandPieces, Traced.andThen, Traced.after, Traced.done, hresult, hrest]

/-- The pass ends, without a bad slice, with the expansion of the cut text. -/
theorem expansion_completes (locale : Locale) (home : ModuleId) (follow : ModuleId → Key → Traced (List Char))
    (text : String) :
    (expansion locale home (fun moduleId key => some (follow moduleId key)) text).Completes ⟨[], [], 0⟩
      (Library.expandPieces locale home follow (decompose text.toList)) := by
  refine (expansion_keeps text).completes ⟨"", text, by simp, rfl, ?_⟩
  obtain ⟨events, result⟩ := Library.expandPieces locale home follow (decompose text.toList)
  cases result with
  | error problem => rfl
  | ok tail => simp [Traced.andThen, Traced.after, Traced.done]

/-- Expanding a text by offsets is expanding its pieces. -/
theorem expand?_eq_some (locale : Locale) (home : ModuleId) (follow : ModuleId → Key → Traced (List Char))
    (text : String) :
    expand? locale home (fun moduleId key => some (follow moduleId key)) text =
      some (Library.expandPieces locale home follow (decompose text.toList)) :=
  (expansion_completes locale home follow text).run_eq

end Meant

/-! ## Reading -/

/-- Read a key whose chain may still take `room` keys, this one included, and expand every text by offsets. -/
def readWithin? (library : Library) (locale : Locale) :
    Nat → List String → ModuleId → Key → Option (Traced (List Char))
  | 0, chain, moduleId, key =>
    some (.failed (.cyclicReference locale (chain ++ [addressLabel moduleId key])))
  | room + 1, chain, moduleId, key =>
    let pair : Pair := ⟨locale, moduleId⟩
    let found := (library.resource? pair).bind fun resource => resource.lookup key
    let access := if library.notifies pair then [Event.accessed pair key found] else []
    Option.map (Traced.after access) <|
      match found with
      | some (.text text) =>
        expand? locale moduleId (readWithin? library locale room (chain ++ [addressLabel moduleId key])) text
      | some (.table _) => some (.failed (.keyPartial pair key))
      | none => some (.failed (.keyMissing pair key))

/-- Read the fully expanded text of a key for a pair, and expand every text by offsets. -/
def read? (library : Library) (pair : Pair) (key : Key) : Option (Traced String) :=
  (readWithin? library pair.locale library.chainLimit [] pair.moduleId key).map fun reading =>
    reading.andThen fun text => .done (String.ofList text)

/-- Reading within a room by offsets is reading within it. -/
theorem readWithin?_eq_some (library : Library) (locale : Locale) (room : Nat) (chain : List String)
    (moduleId : ModuleId) (key : Key) :
    readWithin? library locale room chain moduleId key =
      some (library.readWithin locale room chain moduleId key) := by
  induction room generalizing chain moduleId key with
  | zero => rfl
  | succ room ih =>
    -- the targets are read by offsets as well, with one key less of room
    have hfollow : readWithin? library locale room (chain ++ [addressLabel moduleId key]) =
        fun moduleId' key' =>
          some (library.readWithin locale room (chain ++ [addressLabel moduleId key]) moduleId' key') := by
      funext moduleId' key'
      exact ih _ moduleId' key'
    rw [readWithin?, Library.readWithin, hfollow]
    cases (library.resource? ⟨locale, moduleId⟩).bind fun resource => resource.lookup key with
    | none => rfl
    | some found =>
      cases found with
      | table entries => rfl
      | text text => simp only [expand?_eq_some, Option.map_some]

/-- Reading a key by offsets is reading it. -/
theorem read?_eq_some (library : Library) (pair : Pair) (key : Key) :
    read? library pair key = some (library.read pair key) := by
  rw [read?, readWithin?_eq_some]
  rfl

end Phrasebook.Offset
