import Mathlib.Data.List.Basic
import Phrasebook.Entries
import Phrasebook.Proofs.Markup.Matching

/-!
# The calls of wrappers

Rendering goes through a text once, and wrappers may have effects on the way (`renderItemsM`; without effects it is
`render`, see `renderItemsM_id`). Here the effect is that each call is written down (`calls`). What the frames hold
behind some items is read off the matched pairs: the nodes that lie in no pair so far, cut by the tags that are still
open (`framesAt`, `run_foldlM`). Main statement: `calls_eq_map_callAt`, which says what every wrapper is called with,
and in which order.
-/

namespace Phrasebook.Markup

variable {α β : Type}

/-! ## Wrappers with effects -/

/-- The wrapper of a tag: its own, or else the fallback. -/
def wrapperFor (wrappers : List (String × (List (Node α) → String → β))) (fallback : List (Node α) → String → β) :
    List (Node α) → String → β :=
  fun nodes name => (wrappers.lookup name).getD fallback nodes name

/-- Take up one item of the text, where wrappers may have effects. -/
def Frames.stepM {m : Type → Type} [Monad m] (wrap : List (Node α) → String → m (Node α)) (frames : Frames α) :
    Item → m (Frames α)
  | .literal text => pure (frames.push (.text (String.ofList text)))
  | .token (.selfClosing name) => do
    let node ← wrap [] name
    pure (frames.push node)
  | .token (.opener _) => pure ⟨frames.current :: frames.outer, []⟩
  | .token (.closer name) =>
    match frames.outer with
    | [] => do
      let node ← wrap [] name
      pure (frames.push node)
    | enclosing :: outer => do
      let node ← wrap frames.current name
      pure ⟨outer, enclosing ++ [node]⟩

/-- Render the items of a text, where wrappers may have effects. -/
def renderItemsM {m : Type → Type} [Monad m] (wrappers : List (String × (List (Node α) → String → m (Node α))))
    (fallback : List (Node α) → String → m (Node α)) (items : List Item) : m (Node α) := do
  let frames ← items.foldlM (Frames.stepM (wrapperFor wrappers fallback)) Frames.start
  fallback frames.nodes ""

/-- Without effects an item is taken up as `render` does it. -/
theorem stepM_id (wrap : Wrapper α) (frames : Frames α) (item : Item) :
    Frames.stepM (m := Id) wrap frames item = Frames.step wrap frames item := by
  cases item with
  | literal text => rfl
  | token token =>
    cases token with
    | opener name => rfl
    | selfClosing name => rfl
    | closer name =>
      unfold Frames.stepM Frames.step
      cases frames.outer with
      | nil => rfl
      | cons enclosing outer => rfl

/-- Without effects, wrappers are called by `render`. -/
theorem renderItemsM_id (wrappers : List (String × Wrapper α)) (fallback : Wrapper α) (text : String) :
    renderItemsM (m := Id) wrappers fallback (Item.scan text.toList) = render wrappers fallback text := by
  have hstep : Frames.stepM (m := Id) (wrapperFor wrappers fallback) = Frames.step (wrapperFor wrappers fallback) := by
    funext frames item
    exact stepM_id (wrapperFor wrappers fallback) frames item
  rw [renderItemsM, hstep, render, List.foldl_eq_foldlM]
  rfl

/-! ## Calls -/

/-- A call of a wrapper: the tag whose wrapper it is, or none for the fallback, and the nodes and the name that it
gets. -/
structure Call (α : Type) where
  wrapper : Option String
  nodes : List (Node α)
  name : String
  deriving DecidableEq, Repr

/-- A wrapper that writes down its calls. -/
def recorded (tag : Option String) (wrap : Wrapper α) (nodes : List (Node α)) (name : String) :
    StateM (List (Call α)) (Node α) := do
  modify (· ++ [⟨tag, nodes, name⟩])
  pure (wrap nodes name)

/-- The wrappers of tags, each of which writes down its calls. -/
def recordedAll (wrappers : List (String × Wrapper α)) :
    List (String × (List (Node α) → String → StateM (List (Call α)) (Node α))) :=
  wrappers.map fun entry => (entry.1, recorded (some entry.1) entry.2)

/-- What the items of a text render to, and the calls made for it. -/
def calls (wrappers : List (String × Wrapper α)) (fallback : Wrapper α) (items : List Item) :
    Node α × List (Call α) :=
  (renderItemsM (recordedAll wrappers) (recorded none fallback) items).run []

/-- Writing calls down gives every tag the wrapper that it had, and none to the others. -/
theorem lookup_recordedAll (wrappers : List (String × Wrapper α)) (name : String) :
    (recordedAll wrappers).lookup name = (wrappers.lookup name).map (recorded (some name)) := by
  unfold recordedAll
  induction wrappers with
  | nil => rfl
  | cons entry wrappers ih =>
    rw [List.map_cons, Entries.lookup_cons, Entries.lookup_cons, ih]
    by_cases hname : name = entry.1
    · rw [if_pos hname, if_pos hname, hname]
      rfl
    · rw [if_neg hname, if_neg hname]

/-- The wrapper for a name writes down whose wrapper it is. -/
theorem wrapperFor_recorded (wrappers : List (String × Wrapper α)) (fallback : Wrapper α) (nodes : List (Node α))
    (name : String) :
    wrapperFor (recordedAll wrappers) (recorded none fallback) nodes name =
      recorded ((wrappers.lookup name).map fun _ => name) (wrapperFor wrappers fallback) nodes name := by
  cases hown : wrappers.lookup name with
  | none => simp only [wrapperFor, lookup_recordedAll, hown, Option.map_none, Option.getD_none, recorded]
  | some wrap => simp only [wrapperFor, lookup_recordedAll, hown, Option.map_some, Option.getD_some, recorded]

/-- A wrapper that writes down its call puts it behind the earlier ones and gives its node on. -/
theorem run_recorded_bind {γ : Type} (tag : Option String) (wrap : Wrapper α) (nodes : List (Node α)) (name : String)
    (next : Node α → StateM (List (Call α)) γ) (log : List (Call α)) :
    (recorded tag wrap nodes name >>= next).run log = (next (wrap nodes name)).run (log ++ [⟨tag, nodes, name⟩]) :=
  rfl

section Fst

variable (wrappers : List (String × Wrapper α)) (fallback : Wrapper α)

/-- Writing down calls changes nothing about the frames. -/
theorem fst_run_stepM (frames : Frames α) (item : Item) (log : List (Call α)) :
    ((frames.stepM (wrapperFor (recordedAll wrappers) (recorded none fallback)) item).run log).1 =
      frames.step (wrapperFor wrappers fallback) item := by
  cases item with
  | literal text => rfl
  | token token =>
    cases token with
    | opener name => rfl
    | selfClosing name =>
      rw [Frames.stepM, wrapperFor_recorded]
      rfl
    | closer name =>
      obtain ⟨outer, current⟩ := frames
      cases outer with
      | nil =>
        simp only [Frames.stepM, wrapperFor_recorded, run_recorded_bind]
        rfl
      | cons enclosing outer =>
        simp only [Frames.stepM, wrapperFor_recorded, run_recorded_bind]
        rfl

/-- Writing calls down changes nothing about what is rendered. -/
theorem fst_run_foldlM (frames : Frames α) (items : List Item) (log : List (Call α)) :
    ((items.foldlM (Frames.stepM (wrapperFor (recordedAll wrappers) (recorded none fallback))) frames).run log).1 =
      items.foldl (Frames.step (wrapperFor wrappers fallback)) frames := by
  induction items generalizing frames log with
  | nil => rfl
  | cons item items ih =>
    rw [List.foldlM_cons, List.foldl_cons, ← fst_run_stepM wrappers fallback frames item log]
    exact ih _ _

/-- Writing down calls changes nothing about the result. -/
theorem fst_calls (text : String) :
    (calls wrappers fallback (Item.scan text.toList)).1 = render wrappers fallback text := by
  have hframes := fst_run_foldlM wrappers fallback Frames.start (Item.scan text.toList) []
  show fallback (Frames.nodes _) "" = fallback (Frames.nodes _) ""
  exact congrArg (fun frames => fallback frames.nodes "") hframes

end Fst

/-! ## Nodes by place -/

/-- The literal text of an item. -/
def Item.letters : Item → List Char
  | .literal text => text
  | .token _ => []

/-- The nodes inside a pair stand before the closer. -/
theorem lt_of_mem_children {items : List Item} {place closer : Nat} (h : place ∈ children items closer) :
    place < closer := by
  have hhome := of_decide_eq_true (List.mem_filter.1 h).2
  obtain ⟨pair, hfound, hclosed⟩ := Option.map_eq_some_iff.1 hhome
  have haround : Around place pair := by simpa using List.find?_some hfound
  exact hclosed ▸ haround.2

/-- The node that the item at a place becomes: the value of a wrapper called with the nodes directly inside, or the
literal text. -/
def nodeAt (wrap : Wrapper α) (items : List Item) (place : Nat) : Node α :=
  match items[place]?.bind Item.called? with
  | some name => wrap ((children items place).attach.map fun inner => nodeAt wrap items inner.1) name
  | none => .text (String.ofList ((items[place]?.map Item.letters).getD []))
termination_by place
decreasing_by exact lt_of_mem_children inner.2

/-- A literal is its own node. -/
theorem nodeAt_of_literal {items : List Item} {place : Nat} {text : List Char} (wrap : Wrapper α)
    (hitem : items[place]? = some (.literal text)) : nodeAt wrap items place = .text (String.ofList text) := by
  rw [nodeAt, hitem]
  rfl

/-- A tag for which a wrapper is called becomes what the wrapper makes of the nodes inside. -/
theorem nodeAt_of_called {items : List Item} {item : Item} {place : Nat} {name : String} (wrap : Wrapper α)
    (hitem : items[place]? = some item) (hcalled : item.called? = some name) :
    nodeAt wrap items place = wrap ((children items place).map (nodeAt wrap items)) name := by
  have hname : items[place]?.bind Item.called? = some name := by rw [hitem, Option.bind_some, hcalled]
  rw [nodeAt, hname]
  simp only [List.attach_map_val]

/-! ## Frames by places -/

/-- The frames that hold the nodes at some places, cut by the open tags, which are given from the innermost one. -/
def framesOf (node : Nat → Node α) (places : List Nat) : List Nat → Frames α
  | [] => ⟨[], places.map node⟩
  | opener :: opens =>
    let below := framesOf node (places.filter (· < opener)) opens
    ⟨below.current :: below.outer, (places.filter (opener < ·)).map node⟩

section FramesOf

variable {node : Nat → Node α} {places opens : List Nat} {k : Nat}

/-- Behind a node, with no opener at its place, the innermost frame holds it too. -/
theorem framesOf_push (hopens : ∀ opener ∈ opens, opener < k) :
    framesOf node (places ++ [k]) opens = (framesOf node places opens).push (node k) := by
  cases opens with
  | nil => simp [framesOf, Frames.push]
  | cons opener opens =>
    have hlt : opener < k := hopens opener (by simp)
    have hbefore : (places ++ [k]).filter (· < opener) = places.filter (· < opener) := by
      rw [List.filter_append, List.filter_cons_of_neg (by simpa using Nat.le_of_lt hlt), List.filter_nil,
        List.append_nil]
    have hbehind : (places ++ [k]).filter (opener < ·) = places.filter (opener < ·) ++ [k] := by
      rw [List.filter_append, List.filter_cons_of_pos (by simpa using hlt), List.filter_nil]
    simp only [framesOf, hbefore, hbehind, Frames.push, List.map_append, List.map_cons, List.map_nil]

/-- Behind an opener a new frame begins. -/
theorem framesOf_open (hplaces : ∀ place ∈ places, place < k) :
    framesOf node places (k :: opens) =
      ⟨(framesOf node places opens).current :: (framesOf node places opens).outer, []⟩ := by
  have hbefore : places.filter (· < k) = places := List.filter_eq_self.2 (by simpa using hplaces)
  have hbehind : places.filter (k < ·) = [] := by
    refine List.filter_eq_nil_iff.2 fun place hmem => ?_
    simpa using Nat.le_of_lt (hplaces place hmem)
  simp only [framesOf, hbefore, hbehind, List.map_nil]

/-- A place in order is before or behind each other one. -/
theorem filter_lt_append_filter_gt {opener : Nat} (hsorted : places.Pairwise (· < ·)) (hopener : opener ∉ places) :
    places.filter (· < opener) ++ places.filter (opener < ·) = places := by
  induction places with
  | nil => rfl
  | cons place places ih =>
    obtain ⟨hlater, hsorted⟩ := List.pairwise_cons.1 hsorted
    obtain ⟨hne, hopener⟩ := List.ne_and_not_mem_of_not_mem_cons hopener
    by_cases hlt : place < opener
    · rw [List.filter_cons_of_pos (by simpa using hlt), List.filter_cons_of_neg (by simpa using Nat.le_of_lt hlt),
        List.cons_append, ih hsorted hopener]
    · -- the opener stands before this place, and so before all later ones
      have hbehind : ∀ later ∈ place :: places, opener < later := by
        intro later hmem
        rcases List.mem_cons.1 hmem with rfl | hmem
        · omega
        · have := hlater later hmem
          omega
      rw [List.filter_eq_nil_iff.2, List.filter_eq_self.2, List.nil_append]
      · simpa using hbehind
      · intro later hmem
        simpa using Nat.le_of_lt (hbehind later hmem)

/-- Open tags hide nothing. -/
theorem nodes_framesOf (hsorted : places.Pairwise (· < ·)) (hopens : ∀ opener ∈ opens, opener ∉ places) :
    (framesOf node places opens).nodes = places.map node := by
  induction opens generalizing places with
  | nil => simp [framesOf, Frames.nodes]
  | cons opener opens ih =>
    -- the frames below hold what stands before the opener
    have hbelow : (framesOf node (places.filter (· < opener)) opens).nodes = (places.filter (· < opener)).map node :=
      ih (hsorted.sublist List.filter_sublist) fun other hother hmem =>
        hopens other (by simp [hother]) (List.mem_filter.1 hmem).1
    have hsplit := filter_lt_append_filter_gt hsorted (hopens opener (by simp))
    calc (framesOf node places (opener :: opens)).nodes
      _ = (framesOf node (places.filter (· < opener)) opens).nodes ++ (places.filter (opener < ·)).map node := by
        simp [framesOf, Frames.nodes]
      _ = (places.filter (· < opener) ++ places.filter (opener < ·)).map node := by rw [hbelow, List.map_append]
      _ = places.map node := by rw [hsplit]

end FramesOf

/-! ## The run -/

section Run

variable {items : List Item} {item : Item} {k : Nat}

/-- The frames behind the first `k` items. -/
def framesAt (wrap : Wrapper α) (items : List Item) (k : Nat) : Frames α :=
  framesOf (nodeAt wrap items) (visible items k) (opens items k).reverse

/-- A node that closes nothing is pushed onto the innermost frame. -/
theorem framesAt_succ_of_node (wrap : Wrapper α) (hitem : items[k]? = some item) (h : item.isOpener = false)
    (hpairs : pairs items (k + 1) = pairs items k) :
    framesAt wrap items (k + 1) = (framesAt wrap items k).push (nodeAt wrap items k) := by
  rw [framesAt, visible_succ_of_node hitem h hpairs, opens_succ_of_not_opener hitem h hpairs]
  exact framesOf_push fun opener hmem => lt_of_mem_opens (List.mem_reverse.1 hmem)

/-- An opener begins a frame without nodes. -/
theorem framesAt_succ_of_opener (wrap : Wrapper α) (hitem : items[k]? = some item) (h : item.isOpener = true)
    (hpairs : pairs items (k + 1) = pairs items k) :
    framesAt wrap items (k + 1) = ⟨(framesAt wrap items k).current :: (framesAt wrap items k).outer, []⟩ := by
  rw [framesAt, visible_succ_of_opener hitem h hpairs, opens_succ_of_opener hitem h hpairs, List.reverse_append,
    List.reverse_singleton, List.singleton_append]
  exact framesOf_open fun place hmem => lt_of_mem_visible hmem

/-- A closer gets the nodes of the tag being read, and its own node goes to the frames below. -/
theorem framesAt_of_match (wrap : Wrapper α) (hitem : items[k]? = some item) (h : item.isOpener = false)
    {outer : List Nat} {i : Nat} (hopens : opens items k = outer ++ [i])
    (hpairs : pairs items (k + 1) = pairs items k ++ [(i, k)]) :
    ∃ below : Frames α, framesAt wrap items k =
        ⟨below.current :: below.outer, (children items k).map (nodeAt wrap items)⟩ ∧
      framesAt wrap items (k + 1) = below.push (nodeAt wrap items k) := by
  have hk : k < items.length := (List.getElem?_eq_some_iff.1 hitem).1
  refine ⟨framesOf (nodeAt wrap items) ((visible items k).filter (· < i)) outer.reverse, ?_, ?_⟩
  · rw [framesAt, hopens, List.reverse_append, List.reverse_singleton, List.singleton_append, framesOf,
      children_of_match hk hpairs]
  · rw [framesAt, visible_succ_of_match hitem h hopens hpairs, opens_succ_of_match hitem h hopens hpairs]
    refine framesOf_push fun opener hmem => ?_
    have hopen : opener ∈ opens items k := by
      rw [hopens]
      exact List.mem_append_left _ (List.mem_reverse.1 hmem)
    exact lt_of_mem_opens hopen

variable (wrappers : List (String × Wrapper α)) (fallback : Wrapper α)

/-- The call that is made for the tag at a place, with its name. -/
def callAt (items : List Item) (caller : Nat × String) : Call α :=
  ⟨(wrappers.lookup caller.2).map fun _ => caller.2,
    (children items caller.1).map (nodeAt (wrapperFor wrappers fallback) items), caller.2⟩

/-- Each item leads from the frames in front of it to the frames behind it, and makes its call. -/
theorem run_stepM (hitem : items[k]? = some item) (log : List (Call α)) :
    (Frames.stepM (wrapperFor (recordedAll wrappers) (recorded none fallback))
        (framesAt (wrapperFor wrappers fallback) items k) item).run log =
      (framesAt (wrapperFor wrappers fallback) items (k + 1),
        log ++ (item.called?.map fun name => callAt wrappers fallback items (k, name)).toList) := by
  have hk : k < items.length := (List.getElem?_eq_some_iff.1 hitem).1
  cases item with
  | literal text =>
    have hpairs := pairs_succ_of_not_closer hitem rfl
    rw [framesAt_succ_of_node _ hitem rfl hpairs, nodeAt_of_literal _ hitem]
    exact congrArg _ (List.append_nil log).symm
  | token token =>
    cases token with
    | opener name =>
      have hpairs := pairs_succ_of_not_closer hitem rfl
      rw [framesAt_succ_of_opener _ hitem rfl hpairs]
      exact congrArg _ (List.append_nil log).symm
    | selfClosing name =>
      have hpairs := pairs_succ_of_not_closer hitem rfl
      have hnode := nodeAt_of_called (wrapperFor wrappers fallback) hitem rfl
      rw [children_eq_nil hpairs hk, List.map_nil] at hnode
      rw [framesAt_succ_of_node _ hitem rfl hpairs, hnode, Frames.stepM, wrapperFor_recorded, run_recorded_bind]
      simp only [Item.called?, callAt, children_eq_nil hpairs hk, List.map_nil]
      rfl
    | closer name =>
      have hnode := nodeAt_of_called (wrapperFor wrappers fallback) hitem rfl
      rcases List.eq_nil_or_concat' (opens items k) with hnone | ⟨outer, i, hopens⟩
      · have hpairs := pairs_succ_of_excess hnone
        -- no tag is open, so there is no frame below, and the closer gets nothing
        have houter : (framesAt (wrapperFor wrappers fallback) items k).outer = [] := by
          rw [framesAt, hnone]
          rfl
        rw [children_eq_nil hpairs hk, List.map_nil] at hnode
        rw [framesAt_succ_of_node _ hitem rfl hpairs, hnode, Frames.stepM, houter]
        simp only [wrapperFor_recorded, run_recorded_bind, Item.called?, callAt, children_eq_nil hpairs hk,
          List.map_nil]
        rfl
      · have hpairs := pairs_succ_of_match hitem rfl hopens
        -- the closer gets what its pair holds, and its own node goes below
        obtain ⟨below, hframes, hnext⟩ := framesAt_of_match (wrapperFor wrappers fallback) hitem rfl hopens hpairs
        rw [hnext, hnode, hframes, Frames.stepM]
        simp only [wrapperFor_recorded, run_recorded_bind]
        rfl

/-- Behind every number of items the frames are those read off the matched pairs, and the calls written down are those
of the tags so far. -/
theorem run_foldlM (hk : k ≤ items.length) :
    ((items.take k).foldlM (Frames.stepM (wrapperFor (recordedAll wrappers) (recorded none fallback)))
        Frames.start).run [] =
      (framesAt (wrapperFor wrappers fallback) items k, (callers items k).map (callAt wrappers fallback items)) := by
  induction k with
  | zero => rfl
  | succ k ih =>
    have hitem : items[k]? = some items[k] := List.getElem?_eq_getElem hk
    rw [List.take_add_one, hitem, List.foldlM_append, StateT.run_bind, ih (Nat.le_of_succ_le hk)]
    simp only [Option.toList_some, List.foldlM_cons, List.foldlM_nil, bind_pure]
    refine Eq.trans (run_stepM wrappers fallback hitem _) ?_
    rw [callers_succ, hitem, List.map_append, Option.bind_some]
    cases items[k].called? with
    | none => rfl
    | some name => rfl

/-- Every tag is rendered once, in the order of the text, from what lies directly inside; then what lies in no pair is
rendered. -/
theorem calls_eq_map_callAt (items : List Item) :
    calls wrappers fallback items =
      (fallback ((roots items).map (nodeAt (wrapperFor wrappers fallback) items)) "",
        (callers items items.length).map (callAt wrappers fallback items) ++
          [⟨none, (roots items).map (nodeAt (wrapperFor wrappers fallback) items), ""⟩]) := by
  have hnodes : (framesAt (wrapperFor wrappers fallback) items items.length).nodes =
      (roots items).map (nodeAt (wrapperFor wrappers fallback) items) := by
    rw [framesAt, roots_eq_visible]
    exact nodes_framesOf (pairwise_visible items _) fun opener hmem =>
      not_mem_visible_of_mem_opens (List.mem_reverse.1 hmem)
  have hrun := run_foldlM wrappers fallback (Nat.le_refl items.length)
  rw [List.take_length] at hrun
  rw [calls, renderItemsM, StateT.run_bind, hrun, ← hnodes]
  rfl

end Run

end Phrasebook.Markup
