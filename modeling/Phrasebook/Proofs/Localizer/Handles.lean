import Phrasebook.Proofs.Localizer.Session
import Phrasebook.Proofs.Navigation.Interning

/-!
# Handles of nodes

Nodes of the key tree are held by handles, and every move from a handle gives a new one (`Localizer.Tour`). A tour
keeps its tree interned and each handle on the node that its segments lead to (`Tour.Sound`), whatever else is done
to the localizer meanwhile. Main statement: `handles_intern_routes`.
-/

namespace Phrasebook

namespace KeyTree

/-- A way to go on from a node. -/
inductive Move where
  | get (segment : String)
  | path (dotted : String)
  /-- Stay at the node. -/
  | this
  deriving DecidableEq, Repr

/-- Go on from a node. -/
def go (tree : KeyTree) (place : Nat) : Move → KeyTree × Nat
  | .get segment => tree.get place segment
  | .path dotted => tree.path place dotted
  | .this => (tree, place)

/-- The segments that a move goes down. -/
def Move.segments : Move → List String
  | .get segment => [segment]
  | .path dotted => (Key.split dotted).filter (· ≠ "")
  | .this => []

/-- Each way to go on from a node follows segments. -/
theorem go_eq_follow (tree : KeyTree) (place : Nat) (move : Move) :
    tree.go place move = tree.follow place move.segments := by
  cases move with
  | get segment => rfl
  | path dotted => rw [go, path, Key.steps_eq_filter_split, Move.segments]
  | this => rfl

end KeyTree

namespace Localizer

variable {α : Type}

/-- A node that was reached, and the segments that it was reached by from the root. -/
structure Handle where
  place : Nat
  route : List String
  deriving DecidableEq, Repr

/-- A localizer, and the handles of its nodes in the order in which they were taken. -/
structure Tour (α : Type) where
  localizer : Localizer α
  handles : List Handle

/-- A step of a tour. -/
inductive Use where
  /-- Go on from the node of a handle, given by its number. -/
  | go (number : Nat) (move : KeyTree.Move)
  | store (command : Store.Command)
  | subscribe (handler : Phrasebook.Handler)
  | unsubscribe (id : Nat)
  | ask (question : Question)

namespace Tour

/-- The tour of a localizer begins at the root. -/
def start (localizer : Localizer α) : Tour α := ⟨localizer, [⟨KeyTree.root, []⟩]⟩

/-- Do a step. A move takes a new handle, and all other steps leave the handles alone. -/
def use (tour : Tour α) : Use → Tour α
  | .go number move =>
    match tour.handles[number]? with
    | none => tour
    | some handle =>
      let moved := tour.localizer.navigate (tour.localizer.tree.go handle.place move)
      ⟨moved.1, tour.handles ++ [⟨moved.2, handle.route ++ move.segments⟩]⟩
  | .store command => { tour with localizer := (tour.localizer.change (.store command)).1 }
  | .subscribe handler => { tour with localizer := (tour.localizer.change (.subscribe handler)).1 }
  | .unsubscribe id => { tour with localizer := (tour.localizer.change (.unsubscribe id)).1 }
  | .ask question => { tour with localizer := (tour.localizer.ask question).1 }

/-- Do steps one after another. -/
def useAll (tour : Tour α) (uses : List Use) : Tour α := uses.foldl use tour

/-- The nodes are interned, and each handle holds the node that its segments lead to. -/
structure Sound (tour : Tour α) : Prop where
  interned : tour.localizer.tree.Interned
  lt : ∀ {handle}, handle ∈ tour.handles → handle.place < tour.localizer.tree.nodes.length
  at_route : ∀ {handle}, handle ∈ tour.handles → (tour.localizer.tree.node handle.place).At handle.route

/-- Later there are the same handles, and perhaps more, and the nodes address what they addressed. -/
structure Leads (tour later : Tour α) : Prop where
  handles : tour.handles <+: later.handles
  keeps : tour.localizer.tree.Keeps later.localizer.tree

variable {tour : Tour α}

/-! ## What a step keeps -/

/-- A step goes on from a handle, or it leaves the tree and the handles alone. -/
theorem use_cases (tour : Tour α) (use : Use) :
    (∃ handle ∈ tour.handles, ∃ segments,
      tour.use use = ⟨(tour.localizer.navigate (tour.localizer.tree.follow handle.place segments)).1,
        tour.handles ++ [⟨(tour.localizer.tree.follow handle.place segments).2, handle.route ++ segments⟩]⟩) ∨
    ((tour.use use).localizer.tree = tour.localizer.tree ∧ (tour.use use).handles = tour.handles) := by
  cases use with
  | go number move =>
    cases hhandle : tour.handles[number]? with
    | none => exact .inr (by simp only [Tour.use, hhandle, and_self])
    | some handle =>
      refine .inl ⟨handle, List.mem_of_getElem? hhandle, move.segments, ?_⟩
      simp only [Tour.use, hhandle, KeyTree.go_eq_follow]
      rfl
  | store command => exact .inr ⟨rfl, rfl⟩
  | subscribe handler => exact .inr ⟨rfl, rfl⟩
  | unsubscribe id => exact .inr ⟨rfl, rfl⟩
  | ask question =>
    obtain ⟨templates, heq⟩ := tour.localizer.ask_eq question
    exact .inr ⟨by rw [Tour.use, heq], rfl⟩

/-- A use keeps all nodes, and their handles stay where they are. -/
theorem leads_use (tour : Tour α) (use : Use) : tour.Leads (tour.use use) := by
  rcases tour.use_cases use with ⟨handle, -, segments, heq⟩ | ⟨htree, hhandles⟩
  · rw [heq]
    exact ⟨List.prefix_append _ _, KeyTree.keeps_follow _ handle.place segments⟩
  · constructor
    case handles => exact hhandles ▸ List.prefix_rfl
    case keeps => exact htree ▸ .refl _

/-- A step keeps a tour sound: the new handle holds the node that its segments lead to. -/
theorem Sound.use (h : tour.Sound) (use : Use) : (tour.use use).Sound := by
  rcases tour.use_cases use with ⟨handle, hhandle, segments, heq⟩ | ⟨htree, hhandles⟩
  · -- the new handle comes last, and for the old ones nothing has changed
    obtain ⟨hinterned, hlt⟩ := h.interned.follow (h.lt hhandle) segments
    have hkeeps := KeyTree.keeps_follow tour.localizer.tree handle.place segments
    rw [heq]
    constructor
    case interned => exact hinterned
    case lt =>
      intro other hother
      rcases List.mem_append.1 hother with hold | hnew
      · exact Nat.lt_of_lt_of_le (h.lt hold) hkeeps.length_le
      · rw [List.mem_singleton.1 hnew]
        exact hlt
    case at_route =>
      intro other hother
      rcases List.mem_append.1 hother with hold | hnew
      · exact hkeeps.at (h.lt hold) (h.at_route hold)
      · rw [List.mem_singleton.1 hnew]
        exact h.interned.node_follow (h.at_route hhandle) segments
  · constructor
    case interned =>
      rw [htree]
      exact h.interned
    case lt =>
      rw [htree, hhandles]
      exact h.lt
    case at_route =>
      rw [htree, hhandles]
      exact h.at_route

/-! ## Whole tours -/

/-- A tour begins with the root and a handle on it, which is sound. -/
theorem sound_start {localizer : Localizer α} (h : localizer.tree.Interned) : (start localizer).Sound where
  interned := h
  lt hmem := by
    rw [List.mem_singleton.1 hmem]
    exact h.length_pos
  at_route hmem := by
    rw [List.mem_singleton.1 hmem]
    exact h.root

/-- Over every tour the handles stand at their nodes. -/
theorem Sound.useAll (h : tour.Sound) (uses : List Use) : (tour.useAll uses).Sound := by
  induction uses generalizing tour with
  | nil => exact h
  | cons use uses ih => exact ih (h.use use)

/-- Over every tour the nodes are kept. -/
theorem leads_useAll (tour : Tour α) (uses : List Use) : tour.Leads (tour.useAll uses) := by
  induction uses generalizing tour with
  | nil => exact ⟨List.prefix_rfl, .refl _⟩
  | cons use uses ih =>
    have hfirst := tour.leads_use use
    have hrest := ih (tour.use use)
    exact ⟨hfirst.handles.trans hrest.handles, hfirst.keeps.trans hrest.keeps⟩

end Tour

/-- At a node there is the text of the key that leads to it from the root; the root stands for the module with the
empty name. -/
theorem formatAt_eq_format {localizer : Localizer α} {place : Nat} {route : List String}
    (h : (localizer.tree.node place).At route) (args : Option Args) :
    localizer.formatAt place args = localizer.format ⟨route.headD ""⟩ route.tail args := by
  simp only [formatAt, h.moduleId, h.key]
  cases route <;> rfl

/-- **Nodes are interned by address.** On every tour over the nodes of a localizer, in the course of which anything
else can be done to it: the first segment that leads to the node of a handle names its module and the others are its
key; two handles hold the same node if and only if the same segments lead to them from the root; handles stay, and
no node changes its module or key; going along a dotted text is going down its segments that are not empty, one by
one, so that texts joined by a dot are gone along one after the other and the empty text leads nowhere else; and at
the node of a handle there is the text of its module, at the root the one with the empty name, and its key. -/
theorem handles_intern_routes (blueprint : Blueprint α) (uses : List Use) :
    let tour := (Tour.start blueprint.build).useAll uses
    let tree := tour.localizer.tree
    (∀ handle ∈ tour.handles,
      (tree.node handle.place).moduleId = handle.route.head?.map ModuleId.mk ∧
        (tree.node handle.place).key = handle.route.tail) ∧
    (∀ handle ∈ tour.handles, ∀ handle' ∈ tour.handles,
      handle.place = handle'.place ↔ handle.route = handle'.route) ∧
    (∀ more, let later := tour.useAll more
      tour.handles <+: later.handles ∧
        ∀ place < tree.nodes.length, (later.localizer.tree.node place).moduleId = (tree.node place).moduleId ∧
          (later.localizer.tree.node place).key = (tree.node place).key) ∧
    (∀ handle ∈ tour.handles,
      (∀ dotted, tree.path handle.place dotted = ((Key.split dotted).filter (· ≠ "")).foldl
        (fun reached segment => reached.1.get reached.2 segment) (tree, handle.place)) ∧
      (∀ dotted more, tree.path handle.place (dotted ++ "." ++ more) =
        let reached := tree.path handle.place dotted
        reached.1.path reached.2 more) ∧
      tree.path handle.place "" = (tree, handle.place)) ∧
    ∀ handle ∈ tour.handles, ∀ args,
      tour.localizer.formatAt handle.place args =
        tour.localizer.format ⟨handle.route.headD ""⟩ handle.route.tail args := by
  intro tour tree
  have hsound : tour.Sound := (Tour.sound_start KeyTree.Interned.initial).useAll uses
  refine ⟨fun handle hmem => ?_, fun handle hmem handle' hmem' => ?_, fun more => ?_, fun handle hmem => ?_,
    fun handle hmem args => formatAt_eq_format (hsound.at_route hmem) args⟩
  · exact ⟨(hsound.at_route hmem).moduleId, (hsound.at_route hmem).key⟩
  · exact hsound.interned.eq_iff_of_at (hsound.lt hmem) (hsound.lt hmem') (hsound.at_route hmem)
      (hsound.at_route hmem')
  · obtain ⟨hhandles, hkeeps⟩ := tour.leads_useAll more
    exact ⟨hhandles, fun place hplace => ⟨hkeeps.moduleId hplace, hkeeps.key hplace⟩⟩
  · exact ⟨tree.path_eq_foldl handle.place, tree.path_dot handle.place, tree.path_empty handle.place⟩

end Localizer

end Phrasebook
