import Mathlib.Data.Finset.Card
import Mathlib.Data.List.Chain
import Mathlib.Logic.Relation
import Phrasebook.Proofs.Reference.Failure
import Phrasebook.Proofs.Reference.Lasting

/-!
# Cycles of references

The depth is a bound on the length of a chain, and what it guards against are cycles: addresses that following
references leads back to (`Library.Recurs`). A reference tree never holds such an address, as the tree there would
be a part of itself (`ReferenceTree.Resolves.not_recurs`), so a key that leads to a cycle has no text. In the
other direction a chain that is too long is a path of references (`Library.exists_path_of_cyclic`), and without
cycles a path holds each address once. Main statement: `Library.depth_guards_cycles`.
-/

namespace Phrasebook

/-! ## Following references -/

namespace Library

/-- The text at the source has a marker that refers to the target. -/
def RefersTo (library : Library) (locale : Locale) (source target : Address) : Prop :=
  ∃ text, library.node? ⟨locale, source.moduleId⟩ source.key = some (.text text) ∧
    target ∈ Piece.references source.moduleId (Marker.decompose text.toList)

/-- Following references, or none, leads from the source to the target. -/
def Reaches (library : Library) (locale : Locale) : Address → Address → Prop :=
  Relation.ReflTransGen (library.RefersTo locale)

/-- Following references leads from the address back to it. -/
def Recurs (library : Library) (locale : Locale) (address : Address) : Prop :=
  Relation.TransGen (library.RefersTo locale) address address

end Library

/-! ## Trees do not recur -/

namespace ReferenceTree.Resolves

variable {library : Library} {locale : Locale} {tree : ReferenceTree} {address : Address}

/-- What the topmost text refers to has a tree that is lower. -/
theorem exists_of_refersTo (h : tree.Resolves library locale) (hrefers : library.RefersTo locale tree.root address) :
    ∃ child : ReferenceTree, child.root = address ∧ child.Resolves library locale ∧ child.height < tree.height := by
  obtain ⟨text, hfound, hmem⟩ := hrefers
  cases h with
  | @node root text' children found roots below =>
    obtain rfl : text' = text := Resource.text.inj (Option.some.inj (found.symm.trans hfound))
    rw [ReferenceTree.root, ← roots, List.mem_map] at hmem
    obtain ⟨child, hchild, hroot⟩ := hmem
    exact ⟨child, hroot, below child hchild, heightAbove_le_iff.1 (Nat.le_refl _) child hchild⟩

/-- Where following references leads to, at least one of them, there is a tree that is lower. -/
theorem exists_of_transGen (h : tree.Resolves library locale)
    (hpath : Relation.TransGen (library.RefersTo locale) tree.root address) :
    ∃ below : ReferenceTree, below.root = address ∧ below.Resolves library locale ∧ below.height < tree.height := by
  induction hpath with
  | single hrefers => exact h.exists_of_refersTo hrefers
  | tail _ hrefers ih =>
    obtain ⟨below, rfl, hbelow, hlower⟩ := ih
    obtain ⟨child, hroot, hchild, hheight⟩ := hbelow.exists_of_refersTo hrefers
    exact ⟨child, hroot, hchild, hheight.trans hlower⟩

/-- The address of a tree does not recur: its tree would be lower than itself. -/
theorem not_recurs (h : tree.Resolves library locale) : ¬ library.Recurs locale tree.root := by
  intro hrecurs
  obtain ⟨below, hroot, hbelow, hlower⟩ := h.exists_of_transGen hrecurs
  rw [hbelow.eq_of_root_eq h hroot] at hlower
  exact Nat.lt_irrefl _ hlower

/-- Nothing recurs that can be reached from the address of a tree. -/
theorem not_recurs_of_reaches (h : tree.Resolves library locale) (hreach : library.Reaches locale tree.root address) :
    ¬ library.Recurs locale address := by
  rcases Relation.reflTransGen_iff_eq_or_transGen.1 hreach with rfl | hpath
  · exact h.not_recurs
  · obtain ⟨below, rfl, hbelow, -⟩ := h.exists_of_transGen hpath
    exact hbelow.not_recurs

end ReferenceTree.Resolves

/-! ## Paths -/

namespace Library

variable {library : Library} {locale : Locale}

/-- A chain that is too long names a path of references that begins at the key and is one longer than there is
room for. -/
theorem exists_path_of_cyclic {room : Nat} {chain : List String} (address : Address) {told : Locale}
    {names : List String}
    (h : (library.readWithin locale room chain address.moduleId address.key).result =
      .error (.cyclicReference told names)) :
    told = locale ∧ ∃ path : List Address, path.length = room ∧
      List.IsChain (library.RefersTo locale) (address :: path) ∧
      names = chain ++ (address :: path).map fun passed => addressLabel passed.moduleId passed.key := by
  -- on the room: the first marker that cannot be followed begins the rest of the path
  induction room generalizing chain address with
  | zero =>
    simp only [readWithin, Traced.failed, Except.error.injEq, Problem.cyclicReference.injEq] at h
    obtain ⟨rfl, rfl⟩ := h
    exact ⟨rfl, [], rfl, .singleton address, rfl⟩
  | succ room ih =>
    obtain ⟨-, hproblem⟩ | ⟨entries, -, hproblem⟩ | ⟨raw, hfound, hexpand⟩ := result_readWithin_succ_eq_error_iff.1 h
    · cases hproblem
    · cases hproblem
    · obtain ⟨before, target, after, hsplit, -, hread⟩ := result_expandPieces_eq_error_iff.1 hexpand
      obtain ⟨rfl, path, hlength, hchain, rfl⟩ := ih target hread
      have hrefers : library.RefersTo told address target := ⟨raw, hfound, by simp [hsplit]⟩
      exact ⟨rfl, target :: path, by simp [hlength], List.isChain_cons_cons.2 ⟨hrefers, hchain⟩, by simp⟩

variable {address : Address} {path : List Address}

/-- Every address of a path leads to every later one. -/
theorem pairwise_of_isChain (hchain : List.IsChain (library.RefersTo locale) path) :
    path.Pairwise (Relation.TransGen (library.RefersTo locale)) :=
  (hchain.imp fun _ _ => .single).pairwise

/-- Every address of a chain of references is reached from its first one. -/
theorem reaches_of_isChain (hchain : List.IsChain (library.RefersTo locale) (address :: path)) :
    ∀ passed ∈ address :: path, library.Reaches locale address passed := by
  refine List.forall_mem_cons.2 ⟨.refl, fun passed hmem => ?_⟩
  exact (List.rel_of_pairwise_cons (pairwise_of_isChain hchain) hmem).to_reflTransGen

/-- Without cycles a path holds each address once. -/
theorem nodup_of_isChain (hchain : List.IsChain (library.RefersTo locale) path)
    (hacyclic : ∀ passed ∈ path, ¬ library.Recurs locale passed) : path.Nodup := by
  refine (pairwise_of_isChain hchain).imp_of_mem fun {source target} hsource _ hpath => ?_
  rintro rfl
  exact hacyclic source hsource hpath

/-- Without cycles a chain is no longer than there are addresses, so it is too long only for a depth that is
smaller. -/
theorem chainLimit_lt_card {pair : Pair} {key : Key} {told : Locale} {names : List String}
    (hread : (library.read pair key).result = .error (.cyclicReference told names)) {reachable : Finset Address}
    (hreachable : ∀ address, library.Reaches pair.locale ⟨pair.moduleId, key⟩ address → address ∈ reachable)
    (hacyclic : ∀ address ∈ reachable, ¬ library.Recurs pair.locale address) :
    library.chainLimit < reachable.card := by
  rw [read, Traced.result_andThen_eq_error_iff] at hread
  obtain hread | ⟨_, -, hdone⟩ := hread
  · obtain ⟨-, path, hlength, hchain, -⟩ := exists_path_of_cyclic ⟨pair.moduleId, key⟩ hread
    have hmem : ∀ passed ∈ ⟨pair.moduleId, key⟩ :: path, passed ∈ reachable := fun passed hpassed =>
      hreachable passed (reaches_of_isChain hchain passed hpassed)
    have hnodup := nodup_of_isChain hchain fun passed hpassed => hacyclic passed (hmem passed hpassed)
    -- the path has one address more than there was room for, all of them different and reachable
    calc library.chainLimit
      _ < (⟨pair.moduleId, key⟩ :: path).length := by
        rw [List.length_cons, hlength]
        exact Nat.lt_succ_self _
      _ = (⟨pair.moduleId, key⟩ :: path).toFinset.card := (List.toFinset_card_of_nodup hnodup).symm
      _ ≤ reachable.card := Finset.card_le_card fun passed hpassed => hmem passed (List.mem_toFinset.1 hpassed)
  · cases hdone

/-- **The depth guards against cycles.** If following references from a key can come back to an address, reading
the key ends with a problem at every depth that is not the largest word. If it cannot and some number of addresses
can be reached, the key itself included, no chain is too long once the depth is one less than that number, provided
that at the largest word there are no more addresses than can be counted. More depth changes the result of a reading
only if that is a chain that was too long. -/
theorem depth_guards_cycles (library : Library) (pair : Pair) (key : Key) :
    let root : Address := ⟨pair.moduleId, key⟩
    let reading := (library.read pair key).result
    (library.maxDepth < wordLimit →
      (∃ address, library.Reaches pair.locale root address ∧ library.Recurs pair.locale address) →
      ∃ problem, reading = .error problem) ∧
    (∀ reachable : Finset Address, (∀ address, address ∈ reachable ↔ library.Reaches pair.locale root address) →
      (∀ address ∈ reachable, ¬ library.Recurs pair.locale address) →
      reachable.card - 1 ≤ library.maxDepth → (wordLimit ≤ library.maxDepth → reachable.card ≤ wordLimit) →
      ∀ locale names, reading ≠ .error (.cyclicReference locale names)) ∧
    ∀ depth, library.maxDepth ≤ depth →
      ({ library with maxDepth := depth }.read pair key).result ≠ reading →
      ∃ names, reading = .error (.cyclicReference pair.locale names) := by
  intro root reading
  refine ⟨fun _ => ?_, fun reachable hreachable hacyclic hdepth hword locale names hread => ?_,
    fun depth hdepth hchanged => ?_⟩
  · rintro ⟨address, hreach, hrecurs⟩
    cases hread : reading with
    | error problem => exact ⟨problem, rfl⟩
    | ok text =>
      obtain ⟨tree, htree, -, -⟩ := result_read_eq_ok_iff.1 hread
      have hroot : tree.root = root := htree.root_eq
      rw [← hroot] at hreach
      exact absurd hrecurs (htree.resolves.not_recurs_of_reaches hreach)
  · have hlong := chainLimit_lt_card hread (fun address => (hreachable address).2) hacyclic
    rw [chainLimit] at hlong
    omega
  · by_contra hnone
    refine hchanged (result_read_deepen ?_ hdepth (not_exists.1 hnone))
    exact fun _ => rfl

/-- Two keys that refer to each other use up any depth, and a key that is referred to twice uses up none. -/
example :
    let texts : Resource := .table [("a", .text "<:b/>"), ("b", .text "<:a/>"), ("c", .text "<:d/>, <:d/>"),
      ("d", .text "D")]
    let library : Library := { resource? := fun _ => some texts, notifies := fun _ => false, maxDepth := 1 }
    (library.read ⟨⟨"en"⟩, ⟨"app"⟩⟩ ["a"]).result =
        .error (.cyclicReference ⟨"en"⟩ ["app:a", "app:b", "app:a"]) ∧
      (library.read ⟨⟨"en"⟩, ⟨"app"⟩⟩ ["c"]).result = .ok "D, D" := by
  constructor
  · cbv
  · cbv

end Library

end Phrasebook
