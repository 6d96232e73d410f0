import Phrasebook.Proofs.Markup.Grammar

/-!
# Spellings of tags

A tag is meant to be written as `<name>`, `</name>` or `<name/>` (`Token.Spells`). Main statements: a text begins with a
tag exactly if it begins with one of these, or with `</name/>`, which closes itself, and all else is literal
(`tokens_and_literals`); that fourth form is none of the three (`slashed_tag_is_read`).
-/

namespace Phrasebook.Markup

namespace Token

/-- The text is how the tag is meant to be written. -/
inductive Spells : Token → String → Prop
  | opener {name : String} (hname : IsName name.toList) : Spells (.opener name) ("<" ++ name ++ ">")
  | closer {name : String} (hname : IsName name.toList) : Spells (.closer name) ("</" ++ name ++ ">")
  | selfClosing {name : String} (hname : IsName name.toList) : Spells (.selfClosing name) ("<" ++ name ++ "/>")

/-- The text is a way to write the tag: its spelling, or for a tag that closes itself also the one with a slash in
front of the name as well. -/
inductive Written : Token → String → Prop
  | spelled {token : Token} {text : String} (h : Spells token text) : Written token text
  | slashed {name : String} (hname : IsName name.toList) : Written (.selfClosing name) ("</" ++ name ++ "/>")

variable {token : Token} {text : String} {cs after : List Char}

/-- A tag is read however it is written, whatever follows. -/
theorem Written.match?_append (h : Written token text) (after : List Char) :
    match? (text.toList ++ after) = some (token, after) := by
  rcases h with ⟨⟨hname⟩ | ⟨hname⟩ | ⟨hname⟩⟩ | ⟨hname⟩
  · simpa [source, slashIf, ofName] using match?_source_append hname false false after
  · simpa [source, slashIf, ofName] using match?_source_append hname true false after
  · simpa [source, slashIf, ofName] using match?_source_append hname false true after
  · simpa [source, slashIf, ofName] using match?_source_append hname true true after

/-- What is read is a tag in one of the ways to write it. -/
theorem exists_written_of_match? (h : match? cs = some (token, after)) :
    ∃ text, Written token text ∧ cs = text.toList ++ after := by
  obtain ⟨closing, closed, letters, hname, rfl, rfl⟩ := exists_source_of_match? h
  obtain ⟨name, rfl⟩ : ∃ name : String, name.toList = letters := ⟨String.ofList letters, by simp⟩
  cases closing with
  | false =>
    cases closed with
    | false => exact ⟨_, .spelled (by simpa [ofName] using .opener hname), by simp [source, slashIf]⟩
    | true => exact ⟨_, .spelled (by simpa [ofName] using .selfClosing hname), by simp [source, slashIf]⟩
  | true =>
    cases closed with
    | false => exact ⟨_, .spelled (by simpa [ofName] using .closer hname), by simp [source, slashIf]⟩
    | true => exact ⟨_, by simpa [ofName] using .slashed hname, by simp [source, slashIf]⟩

/-- The text `</b/>` is read as a tag, though no tag is meant to be written like its beginning. -/
theorem slashed_tag_is_read :
    match? "</b/>".toList = some (.selfClosing "b", []) ∧ Item.scan "</b/>".toList = [.token (.selfClosing "b")] ∧
      ∀ token text after, Spells token text → "</b/>".toList ≠ text.toList ++ after := by
  have hname : IsName "b".toList := ⟨by decide, by simp [endsName, isBlank]⟩
  have hmatch : match? "</b/>".toList = some (.selfClosing "b", []) := (Written.slashed hname).match?_append []
  refine ⟨hmatch, ?_, fun token text after hspells heq => ?_⟩
  · rw [Item.scan_of_match? hmatch, Item.scan_nil]
  · rw [heq, (Written.spelled hspells).match?_append after] at hmatch
    obtain ⟨rfl, rfl⟩ := Prod.mk.inj (Option.some.inj hmatch)
    cases hspells
    simp at heq

end Token

/-- **Tags and literals.** A text begins with a tag exactly if it begins with a way to write the tag, and then just
these bytes are taken for it. The items of a text are the tags, where one begins, and between them literals of all the
characters at which none does. -/
theorem tokens_and_literals (cs : List Char) :
    (∀ token after, Token.match? cs = some (token, after) ↔
      ∃ text, Token.Written token text ∧ cs = text.toList ++ after ∧
        (String.ofList cs).utf8ByteSize - (String.ofList after).utf8ByteSize = text.utf8ByteSize) ∧
    (∀ token after, Token.match? cs = some (token, after) → Item.scan cs = .token token :: Item.scan after) ∧
    ∀ text rest, cs = text ++ rest → text ≠ [] →
      (∀ before behind, text = before ++ behind → behind ≠ [] → Token.match? (behind ++ rest) = none) →
      AtToken rest → Item.scan cs = .literal text :: Item.scan rest := by
  refine ⟨fun token after => ⟨fun h => ?_, ?_⟩, fun token after => Item.scan_of_match?, ?_⟩
  · obtain ⟨text, hwritten, rfl⟩ := Token.exists_written_of_match? h
    exact ⟨text, hwritten, rfl, by simp [String.ofList_append, String.utf8ByteSize_append]⟩
  · rintro ⟨text, hwritten, rfl, -⟩
    exact hwritten.match?_append after
  · rintro text rest rfl hne htext hrest
    exact Item.scan_literal_append hne htext hrest

end Phrasebook.Markup
