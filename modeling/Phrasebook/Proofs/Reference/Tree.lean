import Mathlib.Data.List.Forall2
import Phrasebook.Reference.Expansion

/-!
# Reference trees

What a key stands for is described by a tree: the text at the key, and below it one tree for each marker of
the text. Main statement: reading a key gives a text exactly when the key has a finite reference tree that is
not too high, and the text is the expansion of that tree (`Library.read_eq_ok_iff_exists_tree`).

`readWithin` counts the keys of a chain and a tree counts the references of its longest path, which are one
fewer.
-/

namespace Phrasebook

/-- Where a text stands within a locale. -/
structure Address where
  moduleId : ModuleId
  key : Key
  deriving DecidableEq, Repr

/-- The address of a target named in a text of the module `home`. -/
def Target.address (home : ModuleId) (target : Target) : Address :=
  ⟨target.moduleId.getD home, target.key⟩

/-! ## Pieces -/

namespace Piece

/-- The addresses that the markers among pieces refer to, from left to right. -/
def references (home : ModuleId) : List Piece → List Address
  | [] => []
  | .literal _ :: pieces => references home pieces
  | .marker inner :: pieces => (Target.ofInner inner).address home :: references home pieces

/-- Put pieces together with one reading in the place of each marker. -/
def fill : List Piece → List (List Char) → List Char
  | .literal text :: pieces, readings => text ++ fill pieces readings
  | .marker _ :: pieces, reading :: readings => reading ++ fill pieces readings
  | _, _ => []

/-- What pieces refer to is the target of one of their markers. -/
theorem exists_inner_of_mem_references {home : ModuleId} {pieces : List Piece} {address : Address}
    (h : address ∈ references home pieces) : ∃ inner, address = (Target.ofInner inner).address home := by
  induction pieces with
  | nil => simp [references] at h
  | cons piece pieces ih =>
    cases piece with
    | literal text => exact ih h
    | marker inner =>
      rcases List.mem_cons.1 h with rfl | h
      · exact ⟨inner, rfl⟩
      · exact ih h

end Piece

/-! ## Results -/

namespace Traced

variable {α β : Type}

@[simp] theorem result_done (a : α) : (done a).result = .ok a := rfl

@[simp] theorem result_after (events : List Event) (t : Traced α) : (t.after events).result = t.result := rfl

/-- A reading that fails has no value. -/
theorem result_failed_ne_ok (problem : Problem) (a : α) : (failed problem).result ≠ .ok a := nofun

/-- Going on succeeds when both parts succeed. -/
theorem result_andThen_eq_ok_iff {t : Traced α} {f : α → Traced β} {b : β} :
    (t.andThen f).result = .ok b ↔ ∃ a, t.result = .ok a ∧ (f a).result = .ok b := by
  unfold andThen
  cases h : t.result with
  | ok a => simp
  | error problem => simp

end Traced

namespace Library

/-- The node at a key of a pair, if the resource of the pair is there. -/
def node? (library : Library) (pair : Pair) (key : Key) : Option Resource :=
  (library.resource? pair).bind fun resource => resource.lookup key

/-- Putting a text together succeeds when following every marker does, and fills the readings in. -/
theorem result_expandPieces_eq_ok_iff {locale : Locale} {home : ModuleId}
    {follow : ModuleId → Key → Traced (List Char)} {pieces : List Piece} {text : List Char} :
    (expandPieces locale home follow pieces).result = .ok text ↔
      ∃ readings, List.Forall₂ (fun address reading => (follow address.moduleId address.key).result = .ok reading)
        (Piece.references home pieces) readings ∧ Piece.fill pieces readings = text := by
  induction pieces generalizing text with
  | nil => simp [expandPieces, Piece.references, Piece.fill, List.forall₂_nil_left_iff]
  | cons piece pieces ih =>
    cases piece with
    | literal head =>
      simp only [expandPieces, Traced.result_andThen_eq_ok_iff, Traced.result_done, Except.ok.injEq, ih,
        Piece.references]
      constructor
      · rintro ⟨tail, ⟨readings, hall, rfl⟩, rfl⟩
        exact ⟨readings, hall, rfl⟩
      · rintro ⟨readings, hall, rfl⟩
        exact ⟨_, ⟨readings, hall, rfl⟩, rfl⟩
    | marker inner =>
      simp only [expandPieces, Traced.result_after, Traced.result_andThen_eq_ok_iff, Traced.result_done,
        Except.ok.injEq, ih, Piece.references, List.forall₂_cons_left_iff]
      constructor
      · rintro ⟨reading, hread, tail, ⟨readings, hall, rfl⟩, rfl⟩
        exact ⟨reading :: readings, ⟨reading, readings, hread, hall, rfl⟩, rfl⟩
      · rintro ⟨_, ⟨reading, readings, hread, hall, rfl⟩, rfl⟩
        exact ⟨reading, hread, _, ⟨readings, hall, rfl⟩, rfl⟩

/-- One level of reading: the key has a text, and the text can be put together with one key less to spare. -/
theorem result_readWithin_succ_eq_ok_iff {library : Library} {locale : Locale} {room : Nat}
    {chain : List String} {address : Address} {text : List Char} :
    (library.readWithin locale (room + 1) chain address.moduleId address.key).result = .ok text ↔
      ∃ raw, library.node? ⟨locale, address.moduleId⟩ address.key = some (.text raw) ∧
        (expandPieces locale address.moduleId
          (library.readWithin locale room (chain ++ [addressLabel address.moduleId address.key]))
          (Marker.decompose raw.toList)).result = .ok text := by
  rw [readWithin, Traced.result_after, ← node?]
  cases library.node? ⟨locale, address.moduleId⟩ address.key with
  | none => simp [Traced.result_failed_ne_ok]
  | some node =>
    cases node with
    | text raw => simp
    | table entries => simp [Traced.result_failed_ne_ok]

end Library

/-! ## Trees -/

/-- A finite tree of texts: an address, the text there, and one tree for each marker of the text. -/
inductive ReferenceTree where
  | node (root : Address) (text : String) (children : List ReferenceTree)

namespace ReferenceTree

/-- The address of the topmost text. -/
def root : ReferenceTree → Address
  | .node root _ _ => root

mutual

/-- How many references the longest path follows. -/
def height : ReferenceTree → Nat
  | .node _ _ children => heightAbove children

/-- The height of a tree with the given children. -/
def heightAbove : List ReferenceTree → Nat
  | [] => 0
  | child :: children => max (child.height + 1) (heightAbove children)

end

mutual

/-- The topmost text with every marker replaced by the expansion of its tree. -/
def expansion : ReferenceTree → List Char
  | .node _ text children => Piece.fill (Marker.decompose text.toList) (expansions children)

/-- The expansions of trees, in order. -/
def expansions : List ReferenceTree → List (List Char)
  | [] => []
  | child :: children => child.expansion :: expansions children

end

/-- The tree holds what is loaded for a locale: every address leads to the text of its node, and the children
are the trees of what the text refers to. A target without a module belongs to the module of the text. -/
inductive Resolves (library : Library) (locale : Locale) : ReferenceTree → Prop
  | node {root : Address} {text : String} {children : List ReferenceTree}
      (found : library.node? ⟨locale, root.moduleId⟩ root.key = some (.text text))
      (roots : children.map ReferenceTree.root = Piece.references root.moduleId (Marker.decompose text.toList))
      (below : ∀ child ∈ children, Resolves library locale child) :
      Resolves library locale (.node root text children)

/-- Above some trees a bound on the height holds when each of them is lower. -/
theorem heightAbove_le_iff {trees : List ReferenceTree} {n : Nat} :
    heightAbove trees ≤ n ↔ ∀ tree ∈ trees, tree.height < n := by
  induction trees with
  | nil => simp [heightAbove]
  | cons tree trees ih =>
    simp only [heightAbove, Nat.max_le, ih, List.mem_cons, forall_eq_or_imp]
    exact and_congr_left fun _ => Nat.succ_le_iff

/-- The tree is the reference tree of a key of a pair. -/
structure IsTreeOf (tree : ReferenceTree) (library : Library) (pair : Pair) (key : Key) : Prop where
  root_eq : tree.root = ⟨pair.moduleId, key⟩
  resolves : tree.Resolves library pair.locale

/-- Addresses with a tree each have a list of trees. -/
theorem forall₂_exists_iff {P : ReferenceTree → Prop} {addresses : List Address}
    {readings : List (List Char)} :
    List.Forall₂ (fun address reading => ∃ tree : ReferenceTree, tree.root = address ∧ P tree ∧
        tree.expansion = reading) addresses readings ↔
      ∃ trees : List ReferenceTree, trees.map root = addresses ∧ (∀ tree ∈ trees, P tree) ∧
        expansions trees = readings := by
  constructor
  · intro h
    induction h with
    | nil => exact ⟨[], rfl, by simp, rfl⟩
    | cons hhead _ ih =>
      obtain ⟨tree, rfl, htree, rfl⟩ := hhead
      obtain ⟨trees, rfl, htrees, rfl⟩ := ih
      exact ⟨tree :: trees, rfl, by simpa using ⟨htree, htrees⟩, rfl⟩
  · rintro ⟨trees, rfl, htrees, rfl⟩
    induction trees with
    | nil => exact .nil
    | cons tree trees ih =>
      simp only [List.mem_cons, forall_eq_or_imp] at htrees
      exact .cons ⟨tree, rfl, htrees.1, rfl⟩ (ih htrees.2)

variable {library : Library} {locale : Locale}

/-- Lists of trees with the same roots are the same, if the trees in them are known by their roots. -/
theorem eq_of_map_root_eq {trees trees' : List ReferenceTree} (hroots : trees.map root = trees'.map root)
    (h : ∀ tree ∈ trees, ∀ tree' ∈ trees', tree.root = tree'.root → tree = tree') : trees = trees' := by
  induction trees generalizing trees' with
  | nil => simpa using hroots.symm
  | cons tree trees ih =>
    cases trees' with
    | nil => simp at hroots
    | cons tree' trees' =>
      simp only [List.map_cons, List.cons.injEq] at hroots
      rw [h tree (by simp) tree' (by simp) hroots.1,
        ih hroots.2 fun t ht t' ht' => h t (by simp [ht]) t' (by simp [ht'])]

/-- What is loaded fixes the tree above an address. -/
theorem Resolves.eq_of_root_eq {tree tree' : ReferenceTree} (h : tree.Resolves library locale)
    (h' : tree'.Resolves library locale) (hroot : tree.root = tree'.root) : tree = tree' := by
  induction h generalizing tree' with
  | @node root text children hfound hroots _ ih =>
    cases h' with
    | @node root' text' children' hfound' hroots' hbelow' =>
      obtain rfl : root = root' := hroot
      obtain rfl : text = text' := by simpa using hfound.symm.trans hfound'
      rw [eq_of_map_root_eq (hroots.trans hroots'.symm) fun child hchild child' hchild' =>
        ih child hchild (hbelow' child' hchild')]

/-- A text has one reference tree at most. -/
theorem IsTreeOf.unique {pair : Pair} {key : Key} {tree tree' : ReferenceTree}
    (h : tree.IsTreeOf library pair key) (h' : tree'.IsTreeOf library pair key) : tree = tree' :=
  h.resolves.eq_of_root_eq h'.resolves (h.root_eq.trans h'.root_eq.symm)

end ReferenceTree

namespace Library

/-- Reading with room for some keys gives the expansions of the reference trees with fewer references on
every path. -/
theorem result_readWithin_eq_ok_iff {library : Library} {locale : Locale} {room : Nat}
    {chain : List String} (address : Address) {text : List Char} :
    (library.readWithin locale room chain address.moduleId address.key).result = .ok text ↔
      ∃ tree : ReferenceTree, tree.root = address ∧ (tree.Resolves library locale ∧ tree.height < room) ∧
        tree.expansion = text := by
  -- on the room: the keys below are read with one key less to spare, as their trees are one lower
  induction room generalizing chain address text with
  | zero => simp [readWithin, Traced.result_failed_ne_ok]
  | succ room ih =>
    simp only [result_readWithin_succ_eq_ok_iff, result_expandPieces_eq_ok_iff, ih,
      ReferenceTree.forall₂_exists_iff]
    constructor
    · rintro ⟨raw, hfound, readings, ⟨children, hroots, hbelow, rfl⟩, rfl⟩
      -- the trees of what was followed are put below the text
      refine ⟨.node address raw children, rfl, ⟨.node hfound hroots fun child h => (hbelow child h).1, ?_⟩, rfl⟩
      exact Nat.lt_succ_of_le (ReferenceTree.heightAbove_le_iff.2 fun child h => (hbelow child h).2)
    · rintro ⟨tree, rfl, ⟨hresolves, hheight⟩, rfl⟩
      cases hresolves with
      | @node root raw children hfound hroots hbelow =>
        have hheights : ∀ child ∈ children, child.height < room :=
          ReferenceTree.heightAbove_le_iff.1 (Nat.le_of_lt_succ hheight)
        exact ⟨raw, hfound, _, ⟨children, hroots, fun child h => ⟨hbelow child h, hheights child h⟩, rfl⟩, rfl⟩

/-- The greatest height of a reference tree that can be read: the depth that is allowed, and one less if it
is the largest word, since then one key more than that cannot be counted. -/
def heightLimit (library : Library) : Nat :=
  min library.maxDepth (wordLimit - 1)

/-- The chain may hold one label more than references may be nested. -/
theorem chainLimit_eq (library : Library) : library.chainLimit = library.heightLimit + 1 := by
  simp only [chainLimit, heightLimit, wordLimit, UInt64.size]
  omega

/-- A key has the text of its reference tree if that is not too high. -/
theorem result_read_eq_ok_iff {library : Library} {pair : Pair} {key : Key} {text : String} :
    (library.read pair key).result = .ok text ↔
      ∃ tree : ReferenceTree, tree.IsTreeOf library pair key ∧ tree.height ≤ library.heightLimit ∧
        String.ofList tree.expansion = text := by
  have hreading (reading : List Char) :
      (library.readWithin pair.locale library.chainLimit [] pair.moduleId key).result = .ok reading ↔
        ∃ tree : ReferenceTree, tree.root = ⟨pair.moduleId, key⟩ ∧
          (tree.Resolves library pair.locale ∧ tree.height ≤ library.heightLimit) ∧ tree.expansion = reading := by
    simp only [← Nat.lt_succ_iff, Nat.succ_eq_add_one, ← chainLimit_eq]
    exact result_readWithin_eq_ok_iff ⟨pair.moduleId, key⟩
  simp only [read, Traced.result_andThen_eq_ok_iff, Traced.result_done, Except.ok.injEq, hreading]
  constructor
  · rintro ⟨_, ⟨tree, hroot, ⟨hresolves, hheight⟩, rfl⟩, rfl⟩
    exact ⟨tree, ⟨hroot, hresolves⟩, hheight, rfl⟩
  · rintro ⟨tree, ⟨hroot, hresolves⟩, hheight, rfl⟩
    exact ⟨_, ⟨tree, hroot, ⟨hresolves, hheight⟩, rfl⟩, rfl⟩

end Library

/-! ## Growing libraries -/

/-- A library in which more is loaded and nothing else is different. -/
structure Library.Grows (library later : Library) : Prop where
  resource?_eq_some : ∀ {pair : Pair} {resource : Resource},
    library.resource? pair = some resource → later.resource? pair = some resource
  maxDepth_eq : later.maxDepth = library.maxDepth

/-- A library to which nothing is added grows to itself. -/
theorem Library.Grows.refl (library : Library) : library.Grows library :=
  ⟨id, rfl⟩

/-- A library grows in several steps. -/
theorem Library.Grows.trans {library later last : Library} (h : library.Grows later) (hlater : later.Grows last) :
    library.Grows last :=
  ⟨fun hresource => hlater.resource?_eq_some (h.resource?_eq_some hresource),
    hlater.maxDepth_eq.trans h.maxDepth_eq⟩

/-- What is found in a library is found in each it grows to. -/
theorem Library.Grows.node?_eq_some {library later : Library} (h : library.Grows later) {pair : Pair} {key : Key}
    {node : Resource} (hnode : library.node? pair key = some node) : later.node? pair key = some node := by
  obtain ⟨resource, hresource, hlookup⟩ := Option.bind_eq_some_iff.1 hnode
  rw [node?, h.resource?_eq_some hresource]
  exact hlookup

/-- A tree stays the reference tree when more is loaded. -/
theorem ReferenceTree.Resolves.grow {library later : Library} (h : library.Grows later) {locale : Locale}
    {tree : ReferenceTree} (htree : tree.Resolves library locale) : tree.Resolves later locale := by
  induction htree with
  | node found roots _ ih => exact .node (h.node?_eq_some found) roots ih

/-- A text that a key has stays the text of the key when more is loaded. -/
theorem Library.Grows.read_eq_ok {library later : Library} (h : library.Grows later) {pair : Pair} {key : Key}
    {text : String} (hread : (library.read pair key).result = .ok text) :
    (later.read pair key).result = .ok text := by
  obtain ⟨tree, ⟨hroot, hresolves⟩, hheight, hexpansion⟩ := result_read_eq_ok_iff.1 hread
  refine result_read_eq_ok_iff.2 ⟨tree, ⟨hroot, hresolves.grow h⟩, ?_, hexpansion⟩
  rw [heightLimit, h.maxDepth_eq]
  exact hheight

end Phrasebook
