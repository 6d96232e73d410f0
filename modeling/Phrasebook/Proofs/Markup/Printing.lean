import Phrasebook.Proofs.Markup.Rendering

/-!
# Printing markup

Marked text is a forest of texts and elements. In print, an element stands between an opener and a closer of its name,
and one without content may also be a tag that closes itself (`Printed`). Reading what is printed takes up the values of
the trees, one after another, whatever was read before and whatever tag follows (`foldl_step_scan_printed`). Main
statement: `render_printed`.
-/

namespace Phrasebook.Markup

variable {α : Type}

/-- A part of a marked text: text, or an element with its name and what lies inside. -/
inductive Tree where
  | text (content : String)
  | element (name : String) (children : List Tree)

mutual

/-- The value of a tree: a text is itself, and an element is what its wrapper makes of the values inside. -/
def Tree.value (wrap : Wrapper α) : Tree → Node α
  | .text content => .text content
  | .element name children => wrap (values wrap children) name

/-- The values of trees. -/
def Tree.values (wrap : Wrapper α) : List Tree → List (Node α)
  | [] => []
  | tree :: trees => tree.value wrap :: values wrap trees

end

/-- Trees that can be told apart in print: a text is not empty, opens no tag and is not followed by another text, and an
element has a proper name. -/
inductive WellFormed : List Tree → Prop
  | nil : WellFormed []
  | text {content : String} {trees : List Tree} (hne : content ≠ "") (hcontent : '<' ∉ content.toList)
      (hnext : ∀ other later, trees ≠ .text other :: later) (htrees : WellFormed trees) :
      WellFormed (.text content :: trees)
  | element {name : String} {children trees : List Tree} (hname : IsName name.toList) (hchildren : WellFormed children)
      (htrees : WellFormed trees) : WellFormed (.element name children :: trees)

/-- The texts that trees may be printed as. -/
inductive Printed : List Tree → String → Prop
  | nil : Printed [] ""
  | text (content : String) {trees : List Tree} {rest : String} (htrees : Printed trees rest) :
      Printed (.text content :: trees) (content ++ rest)
  | element (name : String) {children trees : List Tree} {inner rest : String} (hchildren : Printed children inner)
      (htrees : Printed trees rest) :
      Printed (.element name children :: trees) ("<" ++ name ++ ">" ++ inner ++ "</" ++ name ++ ">" ++ rest)
  | short (name : String) {trees : List Tree} {rest : String} (htrees : Printed trees rest) :
      Printed (.element name [] :: trees) ("<" ++ name ++ "/>" ++ rest)

/-- Every well-formed list of trees can be printed. -/
theorem WellFormed.exists_printed {trees : List Tree} (h : WellFormed trees) : ∃ text, Printed trees text := by
  induction h with
  | nil => exact ⟨_, .nil⟩
  | text _ _ _ _ ih =>
    obtain ⟨rest, htrees⟩ := ih
    exact ⟨_, .text _ htrees⟩
  | element _ _ _ ihchildren ih =>
    obtain ⟨inner, hchildren⟩ := ihchildren
    obtain ⟨rest, htrees⟩ := ih
    exact ⟨_, .element _ hchildren htrees⟩

/-! ## Tokens of a printed text -/

/-- The characters of a printed element: its opening tag, its content, its closing tag, and what follows. -/
theorem toList_element_append (name inner rest : String) (more : List Char) :
    ("<" ++ name ++ ">" ++ inner ++ "</" ++ name ++ ">" ++ rest).toList ++ more =
      Token.source false false name.toList ++
        (inner.toList ++ (Token.source true false name.toList ++ (rest.toList ++ more))) := by
  simp [Token.source, slashIf]

/-- The characters of a printed element without content: one tag that closes itself, and what follows. -/
theorem toList_short_append (name rest : String) (more : List Char) :
    ("<" ++ name ++ "/>" ++ rest).toList ++ more =
      Token.source false true name.toList ++ (rest.toList ++ more) := by
  simp [Token.source, slashIf]

/-- A text that begins with the source of a token begins with a token. -/
theorem atToken_source_append {name : List Char} (hname : IsName name) (closing closed : Bool) (after : List Char) :
    AtToken (Token.source closing closed name ++ after) :=
  .inr (by rw [Token.match?_source_append hname closing closed after, Option.isSome_some])

/-- Trees that do not begin with a text are printed with a token in front. -/
theorem Printed.atToken {trees : List Tree} {text : String} {more : List Char} (h : Printed trees text)
    (hwell : WellFormed trees) (hfirst : ∀ content later, trees ≠ .text content :: later) (hmore : AtToken more) :
    AtToken (text.toList ++ more) := by
  cases h with
  | nil => exact hmore
  | text content htrees => exact absurd rfl (hfirst content _)
  | element name hchildren htrees =>
    cases hwell with
    | element hname =>
      rw [toList_element_append]
      exact atToken_source_append hname false false _
  | short name htrees =>
    cases hwell with
    | element hname =>
      rw [toList_short_append]
      exact atToken_source_append hname false true _

/-! ## Reading a printed text -/

/-- Add nodes to the tag being read. -/
def Frames.extend (frames : Frames α) (nodes : List (Node α)) : Frames α :=
  { frames with current := frames.current ++ nodes }

/-- Pushing a node and then others is pushing them all. -/
theorem extend_push (frames : Frames α) (node : Node α) (nodes : List (Node α)) :
    (frames.push node).extend nodes = frames.extend (node :: nodes) := by
  simp [Frames.extend, Frames.push]

/-- The source of a token is scanned as that token, whatever follows. -/
theorem scan_source_append {name : String} (hname : IsName name.toList) (closing closed : Bool) (after : List Char) :
    Item.scan (Token.source closing closed name.toList ++ after) =
      .token (.ofName closing closed name.toList) :: Item.scan after :=
  Item.scan_of_match? (Token.match?_source_append hname closing closed after)

/-- A printed text adds the values of its trees to what was read, and leaves the open tags as they were. -/
theorem foldl_step_scan_printed (wrap : Wrapper α) {trees : List Tree} {text : String} (h : Printed trees text)
    (hwell : WellFormed trees) {more : List Char} (hmore : AtToken more) (frames : Frames α) :
    (Item.scan (text.toList ++ more)).foldl (Frames.step wrap) frames =
      (Item.scan more).foldl (Frames.step wrap) (frames.extend (Tree.values wrap trees)) := by
  induction h generalizing more frames with
  | nil => simp [Frames.extend, Tree.values]
  | text content htrees ih =>
    cases hwell with
    | text hne hcontent hnext hwell =>
      rename_i trees rest
      -- the text has no bracket in it, and behind it comes a token or nothing, so it is one literal
      have hscan : Item.scan ((content ++ rest).toList ++ more) =
          .literal content.toList :: Item.scan (rest.toList ++ more) := by
        rw [String.toList_append, List.append_assoc]
        exact Item.scan_text_append (by simpa using hne) hcontent (htrees.atToken hwell hnext hmore)
      rw [hscan, List.foldl_cons, ih hwell hmore, Tree.values, ← extend_push]
      simp [Frames.step, Tree.value]
  | element name hchildren htrees ihchildren ih =>
    cases hwell with
    | element hname hwellchildren hwell =>
      rename_i children trees inner rest
      have hcloser := atToken_source_append hname true false (rest.toList ++ more)
      rw [toList_element_append, scan_source_append hname, List.foldl_cons, ihchildren hwellchildren hcloser,
        scan_source_append hname, List.foldl_cons, ih hwell hmore, Tree.values, ← extend_push]
      -- the closer takes its opener's frame away and puts the element into the frame that was open before
      simp [Frames.step, Token.ofName, Frames.extend, Frames.push, Tree.value]
  | short name htrees ih =>
    cases hwell with
    | element hname _ hwell =>
      rw [toList_short_append, scan_source_append hname, List.foldl_cons, ih hwell hmore, Tree.values, ← extend_push]
      simp [Frames.step, Token.ofName, Tree.value, Tree.values]

/-- Reading undoes printing: however trees are printed, the fallback gets their values, under no name. -/
theorem render_printed (wrappers : List (String × Wrapper α)) (fallback : Wrapper α) {trees : List Tree}
    (hwell : WellFormed trees) :
    (∃ text, Printed trees text) ∧ ∀ text, Printed trees text →
      render wrappers fallback text = fallback (Tree.values (wrapperFor wrappers fallback) trees) "" := by
  refine ⟨hwell.exists_printed, fun text hprinted => ?_⟩
  have hread := foldl_step_scan_printed (wrapperFor wrappers fallback) hprinted hwell (.inl rfl) Frames.start
  rw [List.append_nil, Item.scan_nil, List.foldl_nil] at hread
  calc render wrappers fallback text
    _ = fallback
          ((Item.scan text.toList).foldl (Frames.step (wrapperFor wrappers fallback)) Frames.start).nodes "" := rfl
    _ = fallback (Tree.values (wrapperFor wrappers fallback) trees) "" := by
      rw [hread]
      rfl

/-- An element in an element, between texts: one prints its name twice though it has no content, and one only once. -/
theorem render_printed_nested :
    let trees : List Tree :=
      [.text "0", .element "a" [.text "1", .element "b<" [], .element "c" [], .text "2"], .text "3"]
    let text := "0<a>1<b<></b<><c/>2</a>3"
    WellFormed trees ∧ Printed trees text ∧
      render [("c", concatenate)] bracket text =
        bracket (Tree.values (wrapperFor [("c", concatenate)] bracket) trees) "" ∧
      render [("c", concatenate)] bracket text = .tag "[0a[1b<[]2]3]" := by
  intro trees text
  have ha : IsName "a".toList := ⟨by decide, by simp [endsName, isBlank]⟩
  have hb : IsName "b<".toList := ⟨by decide, by simp [endsName, isBlank]⟩
  have hc : IsName "c".toList := ⟨by decide, by simp [endsName, isBlank]⟩
  have hinside : WellFormed [.text "1", .element "b<" [], .element "c" [], .text "2"] :=
    .text (by decide) (by decide) (by simp)
      (.element hb .nil (.element hc .nil (.text (by decide) (by decide) (by simp) .nil)))
  have hwell : WellFormed trees :=
    .text (by decide) (by decide) (by simp) (.element ha hinside (.text (by decide) (by decide) (by simp) .nil))
  have hprinted : Printed trees text :=
    .text "0" (.element "a" (.text "1" (.element "b<" .nil (.short "c" (.text "2" .nil)))) (.text "3" .nil))
  have hread := (render_printed [("c", concatenate)] bracket hwell).2 text hprinted
  refine ⟨hwell, hprinted, hread, hread.trans ?_⟩
  decide

end Phrasebook.Markup
