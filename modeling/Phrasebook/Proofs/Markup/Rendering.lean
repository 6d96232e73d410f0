import Mathlib
import Phrasebook.Proofs.Markup.Calls
import Phrasebook.Proofs.Markup.Grammar

/-!
# What becomes of a marked text

Of a text, rendering looks at its literals, at the names of closers and of tags that close themselves, and at how the
tags match, but not at the names of openers (`calls_map_nameless`). Wrappers that concatenate leave the literals
(`render_concatenate`), which are the text without its tokens (`letters_scan`). Main statement: `calls_scan`.
-/

namespace Phrasebook.Markup

variable {α : Type}

/-! ## Names -/

/-- Forget the name of an opener. -/
def Item.nameless : Item → Item
  | .token (.opener _) => .token (.opener "")
  | item => item

/-- The name of an opener plays no part when it is taken up. -/
theorem stepM_nameless {m : Type → Type} [Monad m] (wrap : List (Node α) → String → m (Node α)) (frames : Frames α)
    (item : Item) : frames.stepM wrap item.nameless = frames.stepM wrap item := by
  cases item with
  | literal text => rfl
  | token token => cases token <;> rfl

/-- The names of openers are not looked at. -/
theorem calls_map_nameless (wrappers : List (String × Wrapper α)) (fallback : Wrapper α) (items : List Item) :
    calls wrappers fallback (items.map Item.nameless) = calls wrappers fallback items := by
  rw [calls, renderItemsM, List.foldlM_map]
  simp only [stepM_nameless]
  rfl

/-- No tag of a text has an empty name, so the call for the root is no call for a tag. -/
theorem ne_empty_of_mem_callers {cs : List Char} {k : Nat} {caller : Nat × String}
    (h : caller ∈ callers (Item.scan cs) k) : caller.2 ≠ "" := by
  obtain ⟨place, -, hcaller⟩ := List.mem_filterMap.1 h
  obtain ⟨name, hname, rfl⟩ := Option.map_eq_some_iff.1 hcaller
  obtain ⟨item, hitem, hcalled⟩ := Option.bind_eq_some_iff.1 hname
  have hmem := List.mem_of_getElem? hitem
  cases item with
  | literal text => contradiction
  | token token =>
    -- only a tag has a name here, and the scanner gives no tag an empty one
    obtain ⟨closing, closed, letters, hletters, rfl⟩ := Item.exists_name_of_mem_scan hmem
    have hne : String.ofList letters ≠ "" := by simpa using hletters.1
    cases closed with
    | true =>
      obtain rfl : String.ofList letters = name := Option.some.inj hcalled
      exact hne
    | false =>
      cases closing with
      | true =>
        obtain rfl : String.ofList letters = name := Option.some.inj hcalled
        exact hne
      | false => contradiction

/-! ## Erasing tags -/

/-- A text without its tokens. -/
def eraseTokens (cs : List Char) : List Char :=
  match _h : Token.match? cs with
  | some (_, after) => eraseTokens after
  | none =>
    match cs with
    | [] => []
    | c :: cs => c :: eraseTokens cs
termination_by cs.length
decreasing_by
  · exact Token.length_of_match? ‹_›
  · simp

/-- A token is erased. -/
theorem eraseTokens_of_match? {cs after : List Char} {token : Token} (h : Token.match? cs = some (token, after)) :
    eraseTokens cs = eraseTokens after := by
  rw [eraseTokens]
  split
  · rename_i found
    rw [h] at found
    rw [(Prod.mk.inj (Option.some.inj found)).2]
  · rename_i hnone
    rw [h] at hnone
    contradiction

/-- A character where no token begins is kept. -/
theorem eraseTokens_cons_of_match?_eq_none {c : Char} {cs : List Char} (h : Token.match? (c :: cs) = none) :
    eraseTokens (c :: cs) = c :: eraseTokens cs := by
  rw [eraseTokens]
  split
  · rename_i found
    rw [h] at found
    contradiction
  · rfl

/-- Nothing is left of nothing. -/
theorem eraseTokens_nil : eraseTokens [] = [] := by
  rw [eraseTokens]
  rfl

/-- A character that joins a literal is the first letter. -/
theorem letters_consLiteral (c : Char) (items : List Item) :
    (Item.consLiteral c items).flatMap Item.letters = c :: items.flatMap Item.letters := by
  unfold Item.consLiteral
  split <;> rfl

/-- The literals of a text are what is left of it. -/
theorem letters_scan (cs : List Char) : (Item.scan cs).flatMap Item.letters = eraseTokens cs := by
  induction cs using Item.scan.induct with
  | case1 cs token after hmatch ih =>
    rw [Item.scan_of_match? hmatch, eraseTokens_of_match? hmatch, ← ih]
    rfl
  | case2 =>
    rw [Item.scan_nil, eraseTokens_nil]
    rfl
  | case3 c cs hnone ih =>
    rw [Item.scan_cons_of_match?_eq_none hnone, eraseTokens_cons_of_match?_eq_none hnone, letters_consLiteral, ih]

/-- The strings in nodes, one after another. -/
def joined (nodes : List (Node String)) : String :=
  String.join (nodes.map Node.toString)

/-- Nodes are joined in order. -/
theorem joined_append (nodes later : List (Node String)) : joined (nodes ++ later) = joined nodes ++ joined later := by
  simp [joined]

/-- Of all nodes in the frames the pushed one is the last. -/
theorem nodes_push (frames : Frames α) (node : Node α) : (frames.push node).nodes = frames.nodes ++ [node] := by
  simp [Frames.push, Frames.nodes]

/-- Concatenating wrappers neither add nor lose text. -/
theorem joined_nodes_step (frames : Frames String) (item : Item) :
    joined (frames.step concatenate item).nodes = joined frames.nodes ++ String.ofList item.letters := by
  cases item with
  | literal text =>
    rw [Frames.step, nodes_push, joined_append]
    simp [joined, Node.toString, Item.letters]
  | token token =>
    have hletters : String.ofList (Item.token token).letters = "" := rfl
    rw [hletters, String.append_empty]
    cases token with
    | opener name => simp [Frames.step, Frames.nodes]
    | selfClosing name =>
      rw [Frames.step, nodes_push, joined_append]
      simp [joined, concatenate, Node.toString]
    | closer name =>
      obtain ⟨outer, current⟩ := frames
      cases outer with
      | nil =>
        show joined (Frames.push ⟨[], current⟩ (concatenate [] name)).nodes = _
        rw [nodes_push, joined_append]
        simp [joined, concatenate, Node.toString]
      | cons enclosing outer =>
        -- the closer puts together what its frame holds and leaves the order as it is
        show joined (Frames.nodes ⟨outer, enclosing ++ [concatenate current name]⟩) = _
        simp [joined, Frames.nodes, concatenate, Node.toString]

/-- Taking up items adds their letters, however the tags are nested. -/
theorem joined_nodes_foldl (frames : Frames String) (items : List Item) :
    joined (items.foldl (Frames.step concatenate) frames).nodes =
      joined frames.nodes ++ String.ofList (items.flatMap Item.letters) := by
  induction items generalizing frames with
  | nil => simp
  | cons item items ih => rw [List.foldl_cons, ih, joined_nodes_step, List.flatMap_cons, String.ofList_append,
      String.append_assoc]

/-- If all wrappers concatenate, so does each of them. -/
theorem wrapperFor_concatenate (names : List String) :
    wrapperFor (names.map fun name => (name, concatenate)) concatenate = concatenate := by
  funext nodes name
  have hown : ((names.map fun name => (name, concatenate)).lookup name).getD concatenate = concatenate := by
    induction names with
    | nil => rfl
    | cons other names ih =>
      rw [List.map_cons, Entries.lookup_cons]
      by_cases hname : name = other
      · rw [if_pos hname, Option.getD_some]
      · rw [if_neg hname, ih]
  rw [wrapperFor, hown]

/-- Wrappers that all concatenate leave the text without its tokens. -/
theorem render_concatenate (names : List String) (text : String) :
    render (names.map fun name => (name, concatenate)) concatenate text =
      .text (String.ofList (eraseTokens text.toList)) := by
  have hfold := joined_nodes_foldl Frames.start (Item.scan text.toList)
  rw [letters_scan] at hfold
  calc render (names.map fun name => (name, concatenate)) concatenate text
    _ = .text (joined ((Item.scan text.toList).foldl
          (Frames.step (wrapperFor (names.map fun name => (name, concatenate)) concatenate)) Frames.start).nodes) := rfl
    _ = .text (String.ofList (eraseTokens text.toList)) := by
      rw [wrapperFor_concatenate, hfold]
      simp [joined, Frames.start, Frames.nodes]

/-! ## Every text -/

/-- An item that closes no pair contains nothing. -/
theorem children_eq_nil_of_not_mem {items : List Item} {place : Nat}
    (h : place ∉ (pairs items items.length).map Prod.snd) : children items place = [] := by
  refine List.filter_eq_nil_iff.2 fun inner _ hhome => h ?_
  obtain ⟨pair, hfound, rfl⟩ := Option.map_eq_some_iff.1 (of_decide_eq_true hhome)
  exact List.mem_map.2 ⟨pair, List.mem_of_find?_eq_some hfound, rfl⟩

/-- The wrapper under the empty name is not used for tags. -/
theorem not_mem_wrapper_calls (wrappers : List (String × Wrapper α)) (fallback : Wrapper α) (cs : List Char) :
    some "" ∉ (calls wrappers fallback (Item.scan cs)).2.map Call.wrapper := by
  rw [calls_eq_map_callAt]
  intro hmem
  obtain ⟨call, hcall, hempty⟩ := List.mem_map.1 hmem
  rcases List.mem_append.1 hcall with htag | hroot
  · obtain ⟨caller, hcaller, rfl⟩ := List.mem_map.1 htag
    obtain ⟨wrap, -, hname⟩ := Option.map_eq_some_iff.1 hempty
    exact ne_empty_of_mem_callers hcaller hname
  · obtain rfl := List.mem_singleton.1 hroot
    contradiction

/-- Rendering calls a wrapper for each closer and each tag that closes itself, in the order of the text, with the
nodes directly inside its pair, and then the fallback once, under no name, with the nodes that are in no pair; so each
node reaches one call. The names of openers do not matter, and wrappers that only concatenate leave the text without
its tokens. -/
theorem calls_scan (wrappers : List (String × Wrapper α)) (fallback : Wrapper α) (text : String) :
    let items := Item.scan text.toList
    let node := nodeAt (wrapperFor wrappers fallback) items
    renderItemsM (m := Id) wrappers fallback items = render wrappers fallback text ∧
    calls wrappers fallback items =
      (render wrappers fallback text,
        (callers items items.length).map (fun caller =>
          ⟨(wrappers.lookup caller.2).map fun _ => caller.2, (children items caller.1).map node, caller.2⟩) ++
          [⟨none, (roots items).map node, ""⟩]) ∧
    render wrappers fallback text = fallback ((roots items).map node) "" ∧
    some "" ∉ (calls wrappers fallback items).2.map Call.wrapper ∧
    (∀ place, place ∉ (pairs items items.length).map Prod.snd → children items place = []) ∧
    ((callers items items.length).flatMap (fun caller => children items caller.1) ++ roots items).Perm
      (nodePlaces items) ∧
    (∀ other : String, (Item.scan other.toList).map Item.nameless = items.map Item.nameless →
      calls wrappers fallback (Item.scan other.toList) = calls wrappers fallback items ∧
        render wrappers fallback other = render wrappers fallback text) ∧
    ∀ names : List String, render (names.map fun name => (name, concatenate)) concatenate text =
      .text (String.ofList (eraseTokens text.toList)) := by
  intro items node
  have hcalls : calls wrappers fallback items = _ := calls_eq_map_callAt wrappers fallback items
  have hresult : render wrappers fallback text = fallback ((roots items).map node) "" := by
    rw [← fst_calls wrappers fallback text, hcalls]
  refine ⟨renderItemsM_id wrappers fallback text, ?_, hresult, not_mem_wrapper_calls wrappers fallback _,
    fun place => children_eq_nil_of_not_mem, perm_nodePlaces items, ?_, fun names => render_concatenate names text⟩
  · rw [hcalls, hresult]
    rfl
  · intro other hother
    have hsame : calls wrappers fallback (Item.scan other.toList) = calls wrappers fallback items := by
      rw [← calls_map_nameless, hother, calls_map_nameless]
    refine ⟨hsame, ?_⟩
    rw [← fst_calls wrappers fallback other, hsame, fst_calls]

/-- A wrapper that puts what it gets between brackets, behind its name. -/
def bracket : Wrapper String :=
  fun nodes name => .tag (name ++ "[" ++ joined nodes ++ "]")

/-- A closer too many, an opener that stays open, and a pair with two names: the first closer gets nothing, the second
one what the inner opener holds, and the rest goes to the fallback, which is not replaced by the wrapper under the
empty name. -/
theorem calls_scan_unbalanced :
    let wrappers := [("", concatenate), ("q", concatenate)]
    let text := "u</i><a>v<b>w</q><c/>"
    let other := "u</i><x>v<y>w</q><c/>"
    let items := Item.scan text.toList
    (Item.scan other.toList).map Item.nameless = items.map Item.nameless ∧
    1 ∉ (pairs items items.length).map Prod.snd ∧ children items 1 = [] ∧
    calls wrappers bracket (Item.scan other.toList) = calls wrappers bracket items ∧
    calls wrappers bracket items =
      (.tag "[ui[]vwc[]]",
        [⟨none, [], "i"⟩, ⟨some "q", [.text "w"], "q"⟩, ⟨none, [], "c"⟩,
          ⟨none, [.text "u", .tag "i[]", .text "v", .text "w", .tag "c[]"], ""⟩]) := by
  intro wrappers text other items
  obtain ⟨-, -, -, -, hexcess, -, hopeners, -⟩ := calls_scan wrappers bracket text
  -- the two texts differ in the names of their openers only
  have hother : (Item.scan other.toList).map Item.nameless = items.map Item.nameless := by
    simp only [other, items, text]
    cbv
  have hplace : 1 ∉ (pairs items items.length).map Prod.snd := by
    have hpairs : pairs items items.length = [(4, 6)] := by
      simp only [items, text]
      cbv
    rw [hpairs]
    decide
  refine ⟨hother, hplace, hexcess 1 hplace, (hopeners other hother).1, ?_⟩
  simp only [wrappers, items, text]
  cbv

end Phrasebook.Markup
