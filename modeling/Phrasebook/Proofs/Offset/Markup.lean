import Phrasebook.Markup.Render
import Phrasebook.Proofs.Markup.Grammar
import Phrasebook.Proofs.Offset.Loop
import Phrasebook.Proofs.Offset.Slice

/-!
# Scanning markup by offset

Tags can be read in one pass with two offsets: where the literal begins that is being read, and how far the text has
been searched for tags (`tagPass`). Main statements: a tag is read from a slice as it is read from characters
(`tokenAt?_eq_some`), and the pass renders what `Markup.render` renders (`render?_eq_some`).
-/

namespace Phrasebook.Offset

open Markup

/-! ## Single tags -/

/-- Drop one slash from the front, and tell whether there was one. -/
def slashAt (text : String) : Bool × String :=
  match stripStart? text '/' with
  | some rest => (true, rest)
  | none => (false, text)

/-- How much longer one length is than another. There is nothing if it is shorter. -/
def difference? (length other : Nat) : Option Nat :=
  if other ≤ length then some (length - other) else none

/-- The tag that ends here, if one does, and how many bytes of the input it takes. What is left of the input begins
behind the name. -/
def tagEnd? (input : String) (closing : Bool) (name rest : String) : Option (Option (Token × Nat)) :=
  let (closed, rest) := slashAt rest
  match stripStart? rest '>' with
  | none => some none
  | some _ => do
    let front ← difference? input.utf8ByteSize rest.utf8ByteSize
    some (some (Token.ofName closing closed name.toList, front + 1))

/-- The tag at the beginning of an input, if there is one, and how many bytes it takes. -/
def tokenAt? (input : String) : Option (Option (Token × Nat)) :=
  match stripStart? input '<' with
  | none => some none
  | some rest => do
    let (closing, rest) := slashAt rest
    let nameLength := (charOffset? rest endsName).getD rest.utf8ByteSize
    if nameLength = 0 then some none
    else
      let name ← sliceTo? rest nameLength
      let rest ← sliceFrom? rest nameLength
      tagEnd? input closing name rest

/-- A slash is stripped from a text as it is from its characters. -/
theorem slashAt_ofList (cs : List Char) : slashAt (String.ofList cs) = ((slash cs).1, String.ofList (slash cs).2) := by
  cases cs with
  | nil =>
    rw [slashAt, stripStart?_ofList_nil]
    rfl
  | cons c cs =>
    rw [slashAt, stripStart?_ofList_cons]
    by_cases hc : c = '/'
    · subst hc
      rfl
    · have hslash : slash (c :: cs) = (false, c :: cs) := slash_slashIf_append false hc cs
      rw [if_neg hc, hslash]

/-- A name is as long as the characters before the first one that cannot be in it. -/
theorem charOffset?_getD (cs : List Char) (p : Char → Bool) :
    (charOffset? (String.ofList cs) p).getD (String.ofList cs).utf8ByteSize =
      (String.ofList (cs.takeWhile (!p ·))).utf8ByteSize := by
  cases hoffset : charOffset? (String.ofList cs) p with
  | none =>
    have hall : ∀ c ∈ cs, (!p c) = true := by simpa using charOffset?_eq_none_iff.1 hoffset
    rw [List.takeWhile_eq_self_iff.2 hall, Option.getD_none]
  | some offset =>
    obtain ⟨before, c, after, htext, rfl, hc, hbefore⟩ := charOffset?_eq_some_iff.1 hoffset
    have hcs : cs = before.toList ++ c :: after.toList := by simpa using congrArg String.toList htext
    have htake : cs.takeWhile (!p ·) = before.toList := by
      rw [hcs, List.takeWhile_append_of_pos (by simpa using hbefore)]
      simp [hc]
    rw [htake, String.ofList_toList, Option.getD_some]

/-- The difference of two sizes is the size of what one text has in front of the other. -/
theorem difference?_append (front rest : String) :
    difference? (front ++ rest).utf8ByteSize rest.utf8ByteSize = some front.utf8ByteSize := by
  rw [difference?, String.utf8ByteSize_append, if_pos (Nat.le_add_left _ _), Nat.add_sub_cancel]

/-- What is left of the input is never longer than the input, and a tag takes what lies before the text behind it. -/
theorem tagEnd?_append (front : String) (closing : Bool) (name : String) (cs : List Char) :
    tagEnd? (front ++ String.ofList cs) closing name (String.ofList cs) =
      some (match slash cs with
        | (closed, '>' :: after) => some (Token.ofName closing closed name.toList,
            (front ++ String.ofList cs).utf8ByteSize - (String.ofList after).utf8ByteSize)
        | _ => none) := by
  have hslash := slashIf_append_slash cs
  obtain ⟨⟨closed, rest⟩, hrest⟩ : ∃ found, slash cs = found := ⟨_, rfl⟩
  rw [hrest] at hslash
  simp only [tagEnd?, slashAt_ofList, hrest]
  rcases rest with _ | ⟨c, after⟩
  · rw [stripStart?_ofList_nil]
  · rw [stripStart?_ofList_cons]
    by_cases hc : c = '>'
    · subst hc
      -- what the tag takes are the bytes before the bracket, and one for the bracket
      have hinput : front ++ String.ofList cs =
          front ++ String.ofList (slashIf closed) ++ String.ofList ('>' :: after) := by
        rw [String.append_assoc, ← String.ofList_append, hslash]
      have hbracket : (String.ofList ('>' :: after)).utf8ByteSize = 1 + (String.ofList after).utf8ByteSize := by
        rw [String.ofList_cons, String.utf8ByteSize_append]
        rfl
      have hlength : (front ++ String.ofList cs).utf8ByteSize - (String.ofList after).utf8ByteSize =
          (front ++ String.ofList (slashIf closed)).utf8ByteSize + 1 := by
        simp only [hinput, String.utf8ByteSize_append, hbracket]
        omega
      have hfront := difference?_append (front ++ String.ofList (slashIf closed)) (String.ofList ('>' :: after))
      rw [← hinput] at hfront
      simp only [if_true, hfront, hlength]
      rfl
    · simp [hc]

/-- A tag is found by offsets where it is found by characters, and takes the bytes that are in front of the rest. -/
theorem tokenAt?_ofList (cs : List Char) :
    tokenAt? (String.ofList cs) = some ((Token.match? cs).map fun (token, after) =>
      (token, (String.ofList cs).utf8ByteSize - (String.ofList after).utf8ByteSize)) := by
  cases cs with
  | nil =>
    rw [tokenAt?, stripStart?_ofList_nil]
    rfl
  | cons c cs =>
    rw [tokenAt?, stripStart?_ofList_cons]
    by_cases hc : c = '<'
    · subst hc
      have hslash := slashIf_append_slash cs
      have hname := List.takeWhile_append_dropWhile (p := (!endsName ·)) (l := (slash cs).2)
      simp only [if_true, slashAt_ofList, charOffset?_getD, Token.match?]
      -- from here on only the name and what stands behind it count, not how they were found
      generalize (slash cs).2.takeWhile (!endsName ·) = name at hname ⊢
      generalize (slash cs).2.dropWhile (!endsName ·) = rest at hname ⊢
      rw [← hname, String.ofList_append, sliceTo?_append, sliceFrom?_append]
      cases name with
      | nil => rfl
      | cons d letters =>
        have hne : (String.ofList (d :: letters)).utf8ByteSize ≠ 0 := by
          rw [Ne, String.utf8ByteSize_eq_zero_iff, String.ofList_eq_empty_iff]
          exact List.cons_ne_nil d letters
        have hinput : String.ofList ('<' :: cs) =
            String.ofList ('<' :: slashIf (slash cs).1 ++ d :: letters) ++ String.ofList rest := by
          rw [← String.ofList_append, List.cons_append, List.cons_append, List.append_assoc, hname, hslash]
        have hend := tagEnd?_append (String.ofList ('<' :: slashIf (slash cs).1 ++ d :: letters)) (slash cs).1
          (String.ofList (d :: letters)) rest
        rw [← hinput, String.toList_ofList] at hend
        simp only [if_neg hne, Option.bind_eq_bind, Option.bind_some, hend]
        rcases slash rest with ⟨closed, _ | ⟨e, after⟩⟩
        · rfl
        · by_cases he : e = '>'
          · subst he
            rfl
          · simp [he]
    · rw [if_neg hc, Item.match?_cons_of_ne hc]
      rfl

/-- Matching a tag at the beginning of a text never slices badly. -/
theorem tokenAt?_eq_some (input : String) :
    tokenAt? input = some ((Token.match? input.toList).map fun (token, after) =>
      (token, input.utf8ByteSize - (String.ofList after).utf8ByteSize)) := by
  have htoken := tokenAt?_ofList input.toList
  rwa [String.ofList_toList] at htoken

/-- A tag takes up bytes. -/
theorem exists_source_of_match? {input : String} {token : Token} {after : List Char}
    (h : Token.match? input.toList = some (token, after)) :
    ∃ source : String, input = source ++ String.ofList after ∧ 0 < source.utf8ByteSize := by
  obtain ⟨closing, closed, name, -, -, hsource⟩ := Token.exists_source_of_match? h
  refine ⟨String.ofList (Token.source closing closed name), ?_, ?_⟩
  · rw [← String.ofList_append, ← hsource, String.ofList_toList]
  · refine Nat.pos_of_ne_zero fun hzero => ?_
    rw [String.utf8ByteSize_eq_zero_iff, String.ofList_eq_empty_iff] at hzero
    exact absurd hzero (List.cons_ne_nil _ _)

/-! ## Literals -/

/-- No tag begins in the literal when a text follows it. -/
def Clear (literal rest : List Char) : Prop :=
  ∀ front back, literal = front ++ back → back ≠ [] → Token.match? (back ++ rest) = none

section Clear

variable {first second literal rest : List Char}

/-- In an empty literal no tag begins. -/
theorem clear_nil (rest : List Char) : Clear [] rest := by
  rintro front back heq hback
  exact absurd (List.append_eq_nil_iff.1 heq.symm).2 hback

/-- No tag begins in two literals if none does in either of them, with what follows it. -/
theorem Clear.append (hfirst : Clear first (second ++ rest)) (hsecond : Clear second rest) :
    Clear (first ++ second) rest := by
  rintro front back heq hback
  rcases List.append_eq_append_iff.1 heq with ⟨between, rfl, rfl⟩ | ⟨between, rfl, rfl⟩
  · exact hsecond between back rfl hback
  · -- the tag would begin in the first literal, or right where the second one begins
    rcases List.eq_nil_or_concat between with rfl | ⟨_, _, hbetween⟩
    · exact hsecond [] second rfl (by simpa using hback)
    · rw [List.append_assoc]
      exact hfirst front between rfl (by simp [hbetween])

/-- Only a bracket begins a tag. -/
theorem clear_of_not_mem (h : '<' ∉ literal) : Clear literal rest := by
  rintro front back rfl hback
  obtain ⟨c, back, rfl⟩ := List.exists_cons_of_ne_nil hback
  refine Item.match?_cons_of_ne fun hc => h ?_
  simp [hc]

/-- One character is clear if no tag begins with it. -/
theorem clear_singleton {c : Char} (h : Token.match? (c :: rest) = none) : Clear [c] rest := by
  rintro front back heq hback
  rcases front with _ | ⟨d, front⟩
  · obtain rfl : [c] = back := heq
    exact h
  · obtain ⟨-, hnil⟩ := List.cons.inj heq
    exact absurd (List.append_eq_nil_iff.1 hnil.symm).2 hback

end Clear

/-! ## The pass -/

/-- How far a pass has come: the nodes so far, where the literal begins that is being read, and the cursor. -/
structure Tags (α : Type) where
  frames : Frames α
  literalStart : Nat
  cursor : Nat

variable {α : Type}

/-- Put the literal that ends at an offset behind the nodes, unless it is empty. -/
def flush? (text : String) (state : Tags α) (stop : Nat) : Option (Frames α) :=
  if state.literalStart < stop then
    (slice? text state.literalStart stop).map fun literal => state.frames.push (.text literal)
  else some state.frames

/-- Take up the tags of a text. A round takes the next bracket; if it opens no tag, the pass goes on right behind it. -/
def tagPass (wrap : Wrapper α) (text : String) : Loop (Tags α) (Frames α) where
  left state := text.utf8ByteSize - state.cursor
  round state := do
    let rest ← sliceFrom? text state.cursor
    match charOffset? rest (· == '<') with
    | none =>
      let frames ← flush? text state text.utf8ByteSize
      some (.done frames)
    | some offset =>
      let start := state.cursor + offset
      let input ← sliceFrom? text start
      match ← tokenAt? input with
      | none => some (.next { state with cursor := start + 1 })
      | some (token, length) =>
        let frames ← flush? text state start
        some (.next ⟨frames.step wrap (.token token), start + length, start + length⟩)

/-- Render the tags of a text from its beginning on. -/
def render? (wrappers : List (String × Wrapper α)) (fallback : Wrapper α) (text : String) : Option (Node α) :=
  let wrap : Wrapper α := fun nodes name => (wrappers.lookup name).getD fallback nodes name
  ((tagPass wrap text).run ⟨.start, 0, 0⟩).map fun frames => fallback frames.nodes ""

section Flush

variable {literal rest : String} (wrap : Wrapper α) (frames : Frames α) (before : String) (cursor : Nat)

/-- The literal is put behind the nodes as the items of the text do it. -/
theorem flush?_append (hclear : Clear literal.toList rest.toList) (hrest : AtToken rest.toList) :
    ∃ flushed, flush? (before ++ literal ++ rest) ⟨frames, before.utf8ByteSize, cursor⟩
        (before ++ literal).utf8ByteSize = some flushed ∧
      (Item.scan (literal ++ rest).toList).foldl (Frames.step wrap) frames =
        (Item.scan rest.toList).foldl (Frames.step wrap) flushed := by
  by_cases hliteral : literal = ""
  · refine ⟨frames, ?_, ?_⟩
    · simp [flush?, hliteral]
    · simp [hliteral]
  · have hpos : literal.utf8ByteSize ≠ 0 := by
      intro hzero
      exact hliteral (String.utf8ByteSize_eq_zero_iff.1 hzero)
    have hlt : before.utf8ByteSize < (before ++ literal).utf8ByteSize := by
      rw [String.utf8ByteSize_append]
      omega
    refine ⟨frames.push (.text literal), ?_, ?_⟩
    · rw [flush?, if_pos hlt, slice?_append]
      rfl
    · rw [String.toList_append, Item.scan_literal_append (by simpa using hliteral) hclear hrest, List.foldl_cons,
        Frames.step, String.ofList_toList]

/-- At the end of the text the rest is a literal. -/
theorem flush?_rest (hclear : Clear literal.toList []) :
    flush? (before ++ literal) ⟨frames, before.utf8ByteSize, cursor⟩ (before ++ literal).utf8ByteSize =
      some ((Item.scan literal.toList).foldl (Frames.step wrap) frames) := by
  have hend : Clear literal.toList "".toList := hclear
  obtain ⟨flushed, hflush, hscan⟩ := flush?_append wrap frames before cursor hend (.inl rfl)
  rw [String.append_empty] at hflush hscan
  rw [hflush, hscan]
  simp [Item.scan_nil]

/-- In front of a tag the literal before it is put behind the nodes, and then the tag is taken up. -/
theorem flush?_of_match? {token : Token} {after : List Char} (hclear : Clear literal.toList rest.toList)
    (hmatch : Token.match? rest.toList = some (token, after)) :
    ∃ flushed, flush? (before ++ literal ++ rest) ⟨frames, before.utf8ByteSize, cursor⟩
        (before ++ literal).utf8ByteSize = some flushed ∧
      (Item.scan (literal ++ rest).toList).foldl (Frames.step wrap) frames =
        (Item.scan after).foldl (Frames.step wrap) (flushed.step wrap (.token token)) := by
  have hrest : AtToken rest.toList := .inr (Option.isSome_of_eq_some hmatch)
  obtain ⟨flushed, hflush, hscan⟩ := flush?_append wrap frames before cursor hclear hrest
  refine ⟨flushed, hflush, ?_⟩
  rw [hscan, Item.scan_of_match? hmatch, List.foldl_cons]

end Flush

/-- What the pass is meant to give from a state on: what the items of the rest make of its nodes. -/
def MeantTags (wrap : Wrapper α) (text : String) (state : Tags α) (result : Frames α) : Prop :=
  ∃ before literal after : String, text = before ++ literal ++ after ∧ state.literalStart = before.utf8ByteSize ∧
    state.cursor = (before ++ literal).utf8ByteSize ∧ Clear literal.toList after.toList ∧
    result = (Item.scan (literal ++ after).toList).foldl (Frames.step wrap) state.frames

section Meant

variable {wrap : Wrapper α} {frames : Frames α} {before literal rest : String}

/-- A bracket that opens no tag belongs to the literal. -/
theorem meantTags_of_no_tag (hclear : Clear literal.toList ('<' :: rest.toList))
    (hmatch : Token.match? ('<' :: rest.toList) = none) :
    MeantTags wrap (before ++ literal ++ (String.singleton '<' ++ rest))
      ⟨frames, before.utf8ByteSize, (before ++ literal).utf8ByteSize + 1⟩
      ((Item.scan (literal ++ (String.singleton '<' ++ rest)).toList).foldl (Frames.step wrap) frames) := by
  have hbracket : (String.singleton '<').utf8ByteSize = 1 := rfl
  refine ⟨before, literal ++ String.singleton '<', rest, ?_, rfl, ?_, ?_, ?_⟩
  · simp only [String.append_assoc]
  · simp only [String.utf8ByteSize_append, hbracket, Nat.add_assoc]
  · rw [String.toList_append]
    exact hclear.append (by simpa using clear_singleton hmatch)
  · rw [String.append_assoc]

/-- Behind a tag the next literal begins. -/
theorem meantTags_of_tag (source : String) (after : List Char) :
    MeantTags wrap (before ++ (source ++ String.ofList after))
      ⟨frames, before.utf8ByteSize + source.utf8ByteSize, before.utf8ByteSize + source.utf8ByteSize⟩
      ((Item.scan after).foldl (Frames.step wrap) frames) := by
  refine ⟨before ++ source, "", String.ofList after, ?_, ?_, ?_, clear_nil _, ?_⟩
  · rw [String.append_empty, String.append_assoc]
  · rw [String.utf8ByteSize_append]
  · rw [String.append_empty, String.utf8ByteSize_append]
  · rw [String.empty_append, String.toList_ofList]

end Meant

/-- A round takes a tag with the literal in front, or passes over a bracket, and what the rest makes of the nodes
stays the same. -/
theorem tagPass_keeps (wrap : Wrapper α) (text : String) : (tagPass wrap text).Keeps (MeantTags wrap text) := by
  rintro ⟨frames, literalStart, cursor⟩ result ⟨before, literal, after, rfl, hstart, hcursor, hclear, rfl⟩
  obtain rfl : literalStart = before.utf8ByteSize := hstart
  obtain rfl : cursor = (before ++ literal).utf8ByteSize := hcursor
  simp only [tagPass, sliceFrom?_append, Option.bind_eq_bind, Option.bind_some]
  cases hbracket : charOffset? after (· == '<') with
  | none =>
    -- no tag can begin any more, so the rest belongs to the literal being read
    have hwhole : Clear (literal ++ after).toList [] := by
      rw [String.toList_append]
      refine Clear.append ?_ (clear_of_not_mem (charOffset?_beq_eq_none_iff.1 hbracket))
      rwa [List.append_nil]
    rw [String.append_assoc, flush?_rest wrap frames before _ hwhole]
    exact .inl rfl
  | some offset =>
    obtain ⟨plain, rest, rfl, rfl, hplain⟩ := exists_of_charOffset?_beq hbracket
    have hinput : (String.singleton '<' ++ rest).toList = '<' :: rest.toList := by simp
    have hliteral : Clear (literal ++ plain).toList ('<' :: rest.toList) := by
      rw [String.toList_append, hinput] at hclear
      rw [String.toList_append]
      exact hclear.append (clear_of_not_mem hplain)
    -- the literal being read grows by the characters up to the bracket
    have htext : before ++ literal ++ (plain ++ (String.singleton '<' ++ rest)) =
        before ++ (literal ++ plain) ++ (String.singleton '<' ++ rest) := by
      simp only [String.append_assoc]
    have hjoin : literal ++ (plain ++ (String.singleton '<' ++ rest)) =
        literal ++ plain ++ (String.singleton '<' ++ rest) := String.append_assoc.symm
    have hsize : (before ++ literal).utf8ByteSize + plain.utf8ByteSize =
        (before ++ (literal ++ plain)).utf8ByteSize := by
      simp only [String.utf8ByteSize_append, Nat.add_assoc]
    simp only [htext, hjoin, hsize, sliceFrom?_append, Option.bind_some, tokenAt?_eq_some, hinput]
    cases hmatch : Token.match? ('<' :: rest.toList) with
    | none =>
      refine .inr ⟨_, rfl, ?_, meantTags_of_no_tag hliteral hmatch⟩
      have hbracket : (String.singleton '<').utf8ByteSize = 1 := rfl
      simp only [String.utf8ByteSize_append, hbracket]
      omega
    | some found =>
      obtain ⟨token, after⟩ := found
      rw [← hinput] at hliteral hmatch
      obtain ⟨source, hsource, hpos⟩ := exists_source_of_match? hmatch
      obtain ⟨flushed, hflush, hscan⟩ :=
        flush?_of_match? wrap frames before (before ++ literal).utf8ByteSize hliteral hmatch
      have hlength : (String.singleton '<' ++ rest).utf8ByteSize - (String.ofList after).utf8ByteSize =
          source.utf8ByteSize := by
        rw [hsource, String.utf8ByteSize_append, Nat.add_sub_cancel]
      simp only [Option.map_some, hlength, hflush, Option.bind_some, hscan]
      refine .inr ⟨_, rfl, ?_, hsource ▸ meantTags_of_tag source after⟩
      simp only [hsource, String.utf8ByteSize_append]
      omega

/-- The pass ends, without a bad slice, with the nodes that the items of the text make. -/
theorem tagPass_completes (wrap : Wrapper α) (text : String) :
    (tagPass wrap text).Completes ⟨.start, 0, 0⟩ ((Item.scan text.toList).foldl (Frames.step wrap) .start) := by
  refine (tagPass_keeps wrap text).completes ⟨"", "", text, ?_, rfl, rfl, clear_nil _, ?_⟩
  · simp
  · rw [String.empty_append]

/-- Rendering by offsets is rendering. -/
theorem render?_eq_some (wrappers : List (String × Wrapper α)) (fallback : Wrapper α) (text : String) :
    render? wrappers fallback text = some (Markup.render wrappers fallback text) := by
  rw [render?, (tagPass_completes _ text).run_eq]
  rfl

end Phrasebook.Offset
