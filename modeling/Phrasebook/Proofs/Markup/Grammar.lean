import Mathlib.Data.List.TakeWhile
import Phrasebook.Markup.Token

/-!
# The grammar of tokens

A token is a name between `<` and `>`, with a slash in front of the name, behind it, at both places or at none
(`Token.source`). Main statements: a token is found with exactly its source (`Token.match?_source_append`), nothing
else is found (`Token.exists_source_of_match?`), and text in which no tag begins becomes one literal
(`Item.scan_literal_append`).
-/

namespace Phrasebook.Markup

/-- A tag name: it is not empty, and no character in it ends a name. -/
def IsName (name : List Char) : Prop :=
  name ≠ [] ∧ ∀ c ∈ name, endsName c = false

/-- Whether a text is over, or goes on with a token. -/
def AtToken (cs : List Char) : Prop :=
  cs = [] ∨ (Token.match? cs).isSome = true

/-- The slash of a tag, if it has one. -/
def slashIf (present : Bool) : List Char :=
  if present then ['/'] else []

namespace Token

/-- The source of a token with a slash in front of its name or behind it. -/
def source (closing closed : Bool) (name : List Char) : List Char :=
  '<' :: (slashIf closing ++ name ++ slashIf closed ++ ['>'])

/-- The token with that source. A slash behind the name counts before one in front of it. -/
def ofName (closing closed : Bool) (name : List Char) : Token :=
  if closed then .selfClosing (String.ofList name)
  else if closing then .closer (String.ofList name)
  else .opener (String.ofList name)

end Token

section Slash

variable {name : List Char}

/-- Looking for a slash loses nothing. -/
theorem slashIf_append_slash (cs : List Char) : slashIf (slash cs).1 ++ (slash cs).2 = cs := by
  unfold slash
  split <;> rfl

/-- A slash is found exactly if there is one in front of the other characters. -/
theorem slash_slashIf_append (present : Bool) {c : Char} (hc : c ≠ '/') (cs : List Char) :
    slash (slashIf present ++ c :: cs) = (present, c :: cs) := by
  cases present with
  | true => rfl
  | false =>
    show slash (c :: cs) = (false, c :: cs)
    unfold slash
    split
    · rename_i heq
      exact absurd (List.cons.inj heq).1 hc
    · rfl

/-- A name goes as far as the slash or the bracket behind it. -/
theorem takeWhile_name (hname : IsName name) (closed : Bool) (rest : List Char) :
    (name ++ (slashIf closed ++ '>' :: rest)).takeWhile (!endsName ·) = name := by
  rw [List.takeWhile_append_of_pos fun c hc => by rw [hname.2 c hc]; rfl]
  cases closed <;> simp [slashIf, endsName]

/-- Behind a name stands what ends it. -/
theorem dropWhile_name (hname : IsName name) (closed : Bool) (rest : List Char) :
    (name ++ (slashIf closed ++ '>' :: rest)).dropWhile (!endsName ·) = slashIf closed ++ '>' :: rest := by
  rw [List.dropWhile_append_of_pos fun c hc => by rw [hname.2 c hc]; rfl]
  cases closed <;> simp [slashIf, endsName]

end Slash

namespace Token

variable {cs after : List Char} {token : Token}

/-- A token is found with exactly its source, whatever follows. -/
theorem match?_source_append {name : List Char} (hname : IsName name) (closing closed : Bool) (after : List Char) :
    match? (source closing closed name ++ after) = some (ofName closing closed name, after) := by
  obtain ⟨c, letters, rfl⟩ := List.exists_cons_of_ne_nil hname.1
  have hc : c ≠ '/' := by
    rintro rfl
    exact absurd (hname.2 '/' (by simp)) (by decide)
  have hsource : source closing closed (c :: letters) ++ after =
      '<' :: (slashIf closing ++ c :: (letters ++ (slashIf closed ++ '>' :: after))) := by
    simp [source]
  have hbehind : slash (slashIf closed ++ '>' :: after) = (closed, '>' :: after) :=
    slash_slashIf_append closed (by decide) after
  have htake := takeWhile_name hname closed after
  have hdrop := dropWhile_name hname closed after
  rw [List.cons_append] at htake hdrop
  rw [hsource, match?]
  simp only [slash_slashIf_append closing hc, htake, hdrop, hbehind]
  rfl

/-- What is found is the source of a token. -/
theorem exists_source_of_match? (h : match? cs = some (token, after)) :
    ∃ closing closed name, IsName name ∧ token = ofName closing closed name ∧
      cs = source closing closed name ++ after := by
  unfold match? at h
  split at h
  · rename_i cs
    simp only at h
    have hfront := slashIf_append_slash cs
    have hword := List.takeWhile_append_dropWhile (p := (!endsName ·)) (l := (slash cs).2)
    have hbehind := slashIf_append_slash ((slash cs).2.dropWhile (!endsName ·))
    split at h
    · contradiction
    · rename_i after' hrest hne
      obtain ⟨htoken, rfl⟩ := Prod.mk.inj (Option.some.inj h)
      -- the token that was read tells its parts: what each step of `match?` took off the front
      refine ⟨(slash cs).1, (slash ((slash cs).2.dropWhile (!endsName ·))).1, (slash cs).2.takeWhile (!endsName ·),
        ⟨hne, fun c hc => ?_⟩, htoken.symm, ?_⟩
      · simpa using List.mem_takeWhile_imp hc
      · rw [hrest] at hbehind
        calc '<' :: cs
          _ = '<' :: (slashIf (slash cs).1 ++ (slash cs).2) := by rw [hfront]
          _ = '<' :: (slashIf (slash cs).1 ++ ((slash cs).2.takeWhile (!endsName ·) ++
                (slash cs).2.dropWhile (!endsName ·))) := by rw [hword]
          _ = '<' :: (slashIf (slash cs).1 ++ ((slash cs).2.takeWhile (!endsName ·) ++
                (slashIf (slash ((slash cs).2.dropWhile (!endsName ·))).1 ++ '>' :: after'))) := by rw [hbehind]
          _ = source _ _ _ ++ after' := by simp [source]
    · contradiction
  · contradiction

end Token

namespace Item

variable {cs text rest : List Char} {item : Item}

/-- Where a token begins it is the first item, and scanning goes on behind it. -/
theorem scan_of_match? {token : Token} {after : List Char} (h : Token.match? cs = some (token, after)) :
    scan cs = .token token :: scan after := by
  rw [scan]
  split
  · rename_i found
    rw [h] at found
    obtain ⟨rfl, rfl⟩ := Prod.mk.inj (Option.some.inj found)
    rfl
  · rename_i hnone
    rw [h] at hnone
    contradiction

/-- Where none begins the character joins the literal that follows. -/
theorem scan_cons_of_match?_eq_none {c : Char} (h : Token.match? (c :: cs) = none) :
    scan (c :: cs) = consLiteral c (scan cs) := by
  rw [scan]
  split
  · rename_i found
    rw [h] at found
    contradiction
  · rfl

/-- There are no items in an empty text. -/
theorem scan_nil : scan [] = [] := by
  rw [scan]
  rfl

/-- A token begins with an angle bracket. -/
theorem match?_cons_of_ne {c : Char} (hc : c ≠ '<') : Token.match? (c :: cs) = none := by
  unfold Token.match?
  split
  · rename_i heq
    exact absurd (List.cons.inj heq).1 hc
  · rfl

/-- Joining a character to the literal in front changes no other item. -/
theorem mem_consLiteral {c : Char} {items : List Item} (h : item ∈ consLiteral c items) :
    (∃ text, item = .literal text) ∨ item ∈ items := by
  unfold consLiteral at h
  split at h
  · rcases List.mem_cons.1 h with rfl | hmem
    · exact .inl ⟨_, rfl⟩
    · exact .inr (List.mem_cons_of_mem _ hmem)
  · rcases List.mem_cons.1 h with rfl | hmem
    · exact .inl ⟨_, rfl⟩
    · exact .inr hmem

/-- The tokens of a text have proper names. -/
theorem exists_name_of_mem_scan {token : Token} (h : .token token ∈ scan cs) :
    ∃ closing closed name, IsName name ∧ token = .ofName closing closed name := by
  induction cs using scan.induct with
  | case1 cs found after hmatch ih =>
    rw [scan_of_match? hmatch] at h
    rcases List.mem_cons.1 h with heq | hmem
    · obtain ⟨closing, closed, name, hname, hfound, -⟩ := Token.exists_source_of_match? hmatch
      obtain rfl := Item.token.inj heq
      exact ⟨closing, closed, name, hname, hfound⟩
    · exact ih hmem
  | case2 => simp [scan_nil] at h
  | case3 c cs hnone ih =>
    rw [scan_cons_of_match?_eq_none hnone] at h
    rcases mem_consLiteral h with ⟨text, heq⟩ | hmem
    · contradiction
    · exact ih hmem

/-- Text in which no tag begins becomes one literal, up to the next token. -/
theorem scan_literal_append (hne : text ≠ [])
    (htext : ∀ before behind, text = before ++ behind → behind ≠ [] → Token.match? (behind ++ rest) = none)
    (hrest : AtToken rest) : scan (text ++ rest) = .literal text :: scan rest := by
  -- what follows begins with a token or is over, so the last character joins no literal
  have hclear : ∀ text items, scan rest ≠ .literal text :: items := by
    intro text items heq
    rcases hrest with rfl | hsome
    · simp [scan_nil] at heq
    · obtain ⟨⟨token, after⟩, hmatch⟩ := Option.isSome_iff_exists.1 hsome
      simp [scan_of_match? hmatch] at heq
  induction text with
  | nil => contradiction
  | cons c text ih =>
    have hhere : Token.match? (c :: (text ++ rest)) = none := htext [] (c :: text) rfl hne
    rw [List.cons_append, scan_cons_of_match?_eq_none hhere]
    cases text with
    | nil =>
      rw [List.nil_append]
      unfold consLiteral
      split
      · rename_i heq
        exact absurd heq (hclear _ _)
      · rfl
    | cons d text =>
      rw [ih (by simp) fun before behind heq => htext (c :: before) behind (congrArg (c :: ·) heq), consLiteral]

/-- Text without the bracket that opens a tag becomes one literal, up to the next token. -/
theorem scan_text_append (hne : text ≠ []) (htext : '<' ∉ text) (hrest : AtToken rest) :
    scan (text ++ rest) = .literal text :: scan rest := by
  refine scan_literal_append hne (fun before behind heq hbehind => ?_) hrest
  obtain ⟨c, behind, rfl⟩ := List.exists_cons_of_ne_nil hbehind
  refine match?_cons_of_ne fun hc => htext ?_
  simp [heq, hc]

end Item

end Phrasebook.Markup
