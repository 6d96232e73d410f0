import Mathlib.Data.List.Nodup
import Mathlib.Data.Nat.Init
import Phrasebook.Markup.Render

/-!
# Matching tags by depth

Items of a text are known by their places. Each closer is matched with the most recent opener that is still open
(`pairs`), and everything but an opener becomes a node, which lies directly inside the innermost matched pair around it
(`home?`), or at the top. Main statements: how the openers that are still open and the nodes that lie in no pair so far
change from one item to the next one (`opens_succ_of_opener`, `visible_succ_of_match` and their likes).
-/

namespace Phrasebook.Markup

namespace Item

/-- Whether an item opens a tag. -/
def isOpener : Item → Bool
  | .token (.opener _) => true
  | _ => false

/-- Whether an item closes a tag. -/
def isCloser : Item → Bool
  | .token (.closer _) => true
  | _ => false

/-- The name under which an item is rendered by a wrapper, if it is. -/
def called? : Item → Option String
  | .token (.closer name) => some name
  | .token (.selfClosing name) => some name
  | _ => none

end Item

variable {items : List Item} {item : Item} {k : Nat}

/-- The openers among the first `k` items that are in none of the pairs. -/
def unmatched (items : List Item) (pairs : List (Nat × Nat)) (k : Nat) : List Nat :=
  (List.range k).filter fun i => items[i]?.any Item.isOpener && i ∉ pairs.map Prod.fst

/-- The matched pairs of openers and closers among the first `k` items: each closer is matched with the most recent
opener that is still open then, if there is one. -/
def pairs (items : List Item) : Nat → List (Nat × Nat)
  | 0 => []
  | k + 1 =>
    let earlier := pairs items k
    if items[k]?.any Item.isCloser then
      earlier ++ ((unmatched items earlier k).getLast?.map fun i => (i, k)).toList
    else earlier

/-- Whether a place lies inside a pair. -/
def Around (place : Nat) (pair : Nat × Nat) : Prop :=
  pair.1 < place ∧ place < pair.2

instance (place : Nat) (pair : Nat × Nat) : Decidable (Around place pair) :=
  inferInstanceAs (Decidable (_ ∧ _))

/-- The innermost matched pair around a place: of all pairs around it the one that is closed first. -/
def home? (items : List Item) (place : Nat) : Option (Nat × Nat) :=
  (pairs items items.length).find? fun pair => Around place pair

/-- The places of the items that become nodes. -/
def nodePlaces (items : List Item) : List Nat :=
  (List.range items.length).filter fun place => items[place]?.any fun item => !item.isOpener

/-- The places of the nodes directly inside the pair that is closed at a place. -/
def children (items : List Item) (closer : Nat) : List Nat :=
  (nodePlaces items).filter fun place => (home? items place).map Prod.snd = some closer

/-- The places of the nodes that are inside no pair. -/
def roots (items : List Item) : List Nat :=
  (nodePlaces items).filter fun place => home? items place = none

/-- The places of the tags among the first `k` items for which a wrapper is called, with their names. -/
def callers (items : List Item) (k : Nat) : List (Nat × String) :=
  (List.range k).filterMap fun place => (items[place]?.bind Item.called?).map fun name => (place, name)

/-! ## From one item to the next one -/

/-- The openers that are still open behind the first `k` items. -/
def opens (items : List Item) (k : Nat) : List Nat :=
  unmatched items (pairs items k) k

/-- The places of the nodes among the first `k` items that lie inside none of the pairs. -/
def outside (items : List Item) (pairs : List (Nat × Nat)) (k : Nat) : List Nat :=
  (List.range k).filter fun place =>
    items[place]?.any (fun item => !item.isOpener) && pairs.all fun pair => ¬Around place pair

/-- The places of the nodes among the first `k` items that lie inside no pair so far. -/
def visible (items : List Item) (k : Nat) : List Nat :=
  outside items (pairs items k) k

/-- One item more is one more opener at most. -/
theorem unmatched_succ (items : List Item) (pairs : List (Nat × Nat)) (k : Nat) :
    unmatched items pairs (k + 1) = unmatched items pairs k ++
      [k].filter fun i => items[i]?.any Item.isOpener && i ∉ pairs.map Prod.fst := by
  rw [unmatched, List.range_succ, List.filter_append, unmatched]

/-- One item more is one more node outside the pairs at most. -/
theorem outside_succ (items : List Item) (pairs : List (Nat × Nat)) (k : Nat) :
    outside items pairs (k + 1) = outside items pairs k ++
      [k].filter fun place =>
        items[place]?.any (fun item => !item.isOpener) && pairs.all fun pair => ¬Around place pair := by
  rw [outside, List.range_succ, List.filter_append, outside]

/-- An opener that is still open was read. -/
theorem lt_of_mem_opens {i : Nat} (h : i ∈ opens items k) : i < k :=
  List.mem_range.1 (List.mem_filter.1 h).1

/-- So was a node. -/
theorem lt_of_mem_visible {place : Nat} (h : place ∈ visible items k) : place < k :=
  List.mem_range.1 (List.mem_filter.1 h).1

/-- The nodes come in the order of the text. -/
theorem pairwise_visible (items : List Item) (k : Nat) : (visible items k).Pairwise (· < ·) :=
  List.pairwise_lt_range.sublist List.filter_sublist

/-- So do the openers that are still open; the innermost one is the last one. -/
theorem pairwise_opens (items : List Item) (k : Nat) : (opens items k).Pairwise (· < ·) :=
  List.pairwise_lt_range.sublist List.filter_sublist

/-- An opener becomes no node. -/
theorem not_node_of_mem_opens {i : Nat} (h : i ∈ opens items k) :
    items[i]?.any (fun item => !item.isOpener) = false := by
  have hopener := (List.mem_filter.1 h).2
  cases hitem : items[i]? with
  | none => rfl
  | some item => simp_all

/-- An opener is not among the nodes. -/
theorem not_mem_visible_of_mem_opens {i : Nat} (h : i ∈ opens items k) : i ∉ visible items k := by
  intro hvisible
  have hnode := (List.mem_filter.1 hvisible).2
  simp [not_node_of_mem_opens h] at hnode

/-- The items of a pair stand in order, among those that were read. -/
theorem lt_of_mem_pairs {pair : Nat × Nat} (h : pair ∈ pairs items k) : pair.1 < pair.2 ∧ pair.2 < k := by
  induction k with
  | zero => simp [pairs] at h
  | succ k ih =>
    -- an item adds one pair at most, whose closer is the item and whose opener was read before
    have hearlier (h : pair ∈ pairs items k) : pair.1 < pair.2 ∧ pair.2 < k + 1 := by
      have := ih h
      omega
    rw [pairs] at h
    split at h
    · rcases List.mem_append.1 h with hold | hnew
      · exact hearlier hold
      · obtain ⟨i, hlast, rfl⟩ := Option.map_eq_some_iff.1 (Option.mem_toList.1 hnew)
        have hlt : i < k := lt_of_mem_opens (List.mem_of_getLast? hlast)
        exact ⟨hlt, Nat.lt_succ_self k⟩
    · exact hearlier h

/-! ### Pairs -/

/-- Only closers make pairs. -/
theorem pairs_succ_of_not_closer (hitem : items[k]? = some item) (h : item.isCloser = false) :
    pairs items (k + 1) = pairs items k := by
  simp [pairs, hitem, h]

/-- A closer behind closed tags only is in no pair. -/
theorem pairs_succ_of_excess (hnone : opens items k = []) : pairs items (k + 1) = pairs items k := by
  rw [opens] at hnone
  simp [pairs, hnone]

/-- A closer is matched with the last opener that is still open. -/
theorem pairs_succ_of_match (hitem : items[k]? = some item) (h : item.isCloser = true) {outer : List Nat} {i : Nat}
    (hopens : opens items k = outer ++ [i]) : pairs items (k + 1) = pairs items k ++ [(i, k)] := by
  rw [opens] at hopens
  simp [pairs, hitem, h, hopens]

/-! ### Open tags -/

/-- An opener is open behind itself. -/
theorem opens_succ_of_opener (hitem : items[k]? = some item) (h : item.isOpener = true)
    (hpairs : pairs items (k + 1) = pairs items k) : opens items (k + 1) = opens items k ++ [k] := by
  have hnew : k ∉ (pairs items k).map Prod.fst := by
    intro hmem
    obtain ⟨pair, hpair, rfl⟩ := List.mem_map.1 hmem
    have := lt_of_mem_pairs hpair
    omega
  rw [opens, hpairs, unmatched_succ, List.filter_cons_of_pos (by simp [hitem, h, hnew])]
  rfl

/-- An item that neither opens nor closes leaves open what was open. -/
theorem opens_succ_of_not_opener (hitem : items[k]? = some item) (h : item.isOpener = false)
    (hpairs : pairs items (k + 1) = pairs items k) : opens items (k + 1) = opens items k := by
  rw [opens, hpairs, unmatched_succ, List.filter_cons_of_neg (by simp [hitem, h]), List.filter_nil, List.append_nil]
  rfl

/-- The opener of a pair is no longer open. -/
theorem opens_succ_of_match (hitem : items[k]? = some item) (h : item.isOpener = false) {outer : List Nat} {i : Nat}
    (hopens : opens items k = outer ++ [i]) (hpairs : pairs items (k + 1) = pairs items k ++ [(i, k)]) :
    opens items (k + 1) = outer := by
  -- the openers come in order, so the matched one is left out and all others stay
  have houter : ∀ j ∈ outer, j ≠ i := by
    intro j hj
    have hsorted := pairwise_opens items k
    rw [hopens, List.pairwise_append] at hsorted
    have := hsorted.2.2 j hj i (by simp)
    omega
  calc opens items (k + 1)
    _ = unmatched items (pairs items k ++ [(i, k)]) k := by
      rw [opens, hpairs, unmatched_succ, List.filter_cons_of_neg (by simp [hitem, h]), List.filter_nil,
        List.append_nil]
    _ = (opens items k).filter (· ≠ i) := by
      rw [opens, unmatched, unmatched, List.filter_filter]
      refine List.filter_congr fun j _ => ?_
      simp only [List.map_append, List.map_cons, List.map_nil, List.mem_append, List.mem_singleton]
      by_cases hj : j = i
      · simp [hj]
      · simp [hj]
    _ = outer := by
      rw [hopens, List.filter_append, List.filter_eq_self.2 (by simpa using houter)]
      simp

/-! ### Nodes in no pair -/

/-- An opener adds no node. -/
theorem visible_succ_of_opener (hitem : items[k]? = some item) (h : item.isOpener = true)
    (hpairs : pairs items (k + 1) = pairs items k) : visible items (k + 1) = visible items k := by
  rw [visible, hpairs, outside_succ, List.filter_cons_of_neg (by simp [hitem, h]), List.filter_nil, List.append_nil]
  rfl

/-- No pair so far reaches beyond the items that were read. -/
theorem not_around_of_mem_pairs {pair : Nat × Nat} (h : pair ∈ pairs items k) : ¬Around k pair := by
  intro haround
  have hlt := lt_of_mem_pairs h
  unfold Around at haround
  omega

/-- A node that closes nothing lies in no pair so far. -/
theorem visible_succ_of_node (hitem : items[k]? = some item) (h : item.isOpener = false)
    (hpairs : pairs items (k + 1) = pairs items k) : visible items (k + 1) = visible items k ++ [k] := by
  have hnone : ((pairs items k).all fun pair => ¬Around k pair) = true :=
    List.all_eq_true.2 fun pair hpair => by simpa using not_around_of_mem_pairs hpair
  rw [visible, hpairs, outside_succ, List.filter_cons_of_pos (by simp only [hitem, Option.any_some, h, hnone]; rfl)]
  rfl

/-- A closed tag hides the nodes inside it, and shows its own. -/
theorem visible_succ_of_match (hitem : items[k]? = some item) (h : item.isOpener = false) {outer : List Nat} {i : Nat}
    (hopens : opens items k = outer ++ [i]) (hpairs : pairs items (k + 1) = pairs items k ++ [(i, k)]) :
    visible items (k + 1) = (visible items k).filter (· < i) ++ [k] := by
  have hopen : i ∈ opens items k := by simp [hopens]
  -- the closer itself lies in no pair, not even in its own
  have hnone : ((pairs items k ++ [(i, k)]).all fun pair => ¬Around k pair) = true := by
    refine List.all_eq_true.2 fun pair hpair => ?_
    rcases List.mem_append.1 hpair with hold | hnew
    · simpa using not_around_of_mem_pairs hold
    · obtain rfl := List.mem_singleton.1 hnew
      simp [Around]
  rw [visible, hpairs, outside_succ, List.filter_cons_of_pos (by simp only [hitem, Option.any_some, h, hnone]; rfl)]
  refine congrArg (· ++ [k]) ?_
  rw [visible, outside, outside, List.filter_filter]
  refine List.filter_congr fun place hplace => ?_
  have hlt : place < k := List.mem_range.1 hplace
  by_cases hnode : items[place]?.any (fun item => !item.isOpener) = true
  · have hne : place ≠ i := by
      rintro rfl
      rw [not_node_of_mem_opens hopen] at hnode
      contradiction
    -- a node that was read lies inside the new pair unless it stands before the opener
    have haround : (!decide (Around place (i, k))) = decide (place < i) := by
      rw [← decide_not, decide_eq_decide, Around]
      omega
    simp [hnode, haround, Bool.and_comm]
  · simp [hnode]

/-! ## What lies inside a pair -/

/-- Later items add only pairs that they close. -/
theorem exists_later_pairs (items : List Item) {k n : Nat} (h : k ≤ n) :
    ∃ later, pairs items n = pairs items k ++ later ∧ ∀ pair ∈ later, k ≤ pair.2 := by
  induction n, h using Nat.le_induction with
  | base => exact ⟨[], by simp, by simp⟩
  | succ n hle ih =>
    obtain ⟨later, hpairs, hlater⟩ := ih
    rw [pairs]
    split
    · refine ⟨later ++ _, by rw [hpairs, List.append_assoc], fun pair hpair => ?_⟩
      rcases List.mem_append.1 hpair with hold | hnew
      · exact hlater pair hold
      · obtain ⟨i, -, rfl⟩ := Option.map_eq_some_iff.1 (Option.mem_toList.1 hnew)
        exact hle
    · exact ⟨later, hpairs, hlater⟩

/-- Beyond the places that pass there is nothing to find. -/
theorem filter_range_eq {p : Nat → Bool} {k n : Nat} (h : k ≤ n) (hlt : ∀ place, p place = true → place < k) :
    (List.range n).filter p = (List.range k).filter p := by
  obtain ⟨d, rfl⟩ := Nat.exists_eq_add_of_le h
  have hnone : ((List.range d).map (k + ·)).filter p = [] := by
    refine List.filter_eq_nil_iff.2 fun place hmem hp => ?_
    obtain ⟨e, -, rfl⟩ := List.mem_map.1 hmem
    have := hlt _ hp
    omega
  rw [List.range_add, List.filter_append, hnone, List.append_nil]

/-- Nothing lies inside an item that closes no pair. -/
theorem children_eq_nil (hpairs : pairs items (k + 1) = pairs items k) (hk : k < items.length) :
    children items k = [] := by
  obtain ⟨later, hall, hlater⟩ := exists_later_pairs items (Nat.succ_le_of_lt hk)
  refine List.filter_eq_nil_iff.2 fun place _ hhome => ?_
  obtain ⟨pair, hfound, hclosed⟩ := Option.map_eq_some_iff.1 (of_decide_eq_true hhome)
  have hmem := List.mem_of_find?_eq_some hfound
  rw [hall, hpairs, List.mem_append] at hmem
  rcases hmem with hearlier | hlate
  · have := lt_of_mem_pairs hearlier
    omega
  · have := hlater pair hlate
    omega

/-- The innermost pair around a place is the one that is closed now, if none was closed before and this one is around
the place. -/
theorem home?_eq_iff (hk : k < items.length) {i : Nat} (hpairs : pairs items (k + 1) = pairs items k ++ [(i, k)])
    (place : Nat) : (home? items place).map Prod.snd = some k ↔
      (∀ pair ∈ pairs items k, ¬Around place pair) ∧ Around place (i, k) := by
  obtain ⟨later, hall, hlater⟩ := exists_later_pairs items (Nat.succ_le_of_lt hk)
  rw [home?, hall, hpairs, List.append_assoc, List.find?_append]
  -- pairs are listed by their closers, so an earlier one around the place would be the innermost
  cases hearlier : (pairs items k).find? fun pair => Around place pair with
  | some pair =>
    have hmem := List.mem_of_find?_eq_some hearlier
    have haround := List.find?_some hearlier
    have hlt := lt_of_mem_pairs hmem
    constructor
    · intro hhome
      have : pair.2 = k := by simpa using hhome
      omega
    · rintro ⟨hnone, -⟩
      exact absurd (of_decide_eq_true haround) (hnone pair hmem)
  | none =>
    have hnone : ∀ pair ∈ pairs items k, ¬Around place pair := by
      simpa using List.find?_eq_none.1 hearlier
    by_cases haround : Around place (i, k)
    · refine iff_of_true ?_ ⟨hnone, haround⟩
      simp [haround]
    · simp only [Option.none_or, List.singleton_append]
      rw [List.find?_cons_of_neg (by simpa using haround)]
      refine iff_of_false (fun hhome => ?_) fun h => haround h.2
      obtain ⟨pair, hfound, hclosed⟩ := Option.map_eq_some_iff.1 hhome
      -- a later pair is closed by a later item
      have := hlater pair (List.mem_of_find?_eq_some hfound)
      omega

/-- Directly inside a pair lie the nodes behind its opener that were in no pair before it is closed. -/
theorem children_of_match (hk : k < items.length) {i : Nat} (hpairs : pairs items (k + 1) = pairs items k ++ [(i, k)]) :
    children items k = (visible items k).filter (i < ·) := by
  have hplaces : children items k = (List.range items.length).filter fun place =>
      (items[place]?.any (fun item => !item.isOpener) && (pairs items k).all fun pair => ¬Around place pair) &&
        Around place (i, k) := by
    rw [children, nodePlaces, List.filter_filter]
    refine List.filter_congr fun place _ => ?_
    -- to be directly inside is to lie in this pair and in none before it, by `home?_eq_iff`
    have hhome : decide ((home? items place).map Prod.snd = some k) =
        (((pairs items k).all fun pair => ¬Around place pair) && Around place (i, k)) := by
      rw [Bool.eq_iff_iff]
      simpa using home?_eq_iff hk hpairs place
    rw [hhome]
    ac_rfl
  rw [hplaces, filter_range_eq (Nat.le_of_lt hk), visible, outside, List.filter_filter]
  · refine List.filter_congr fun place hplace => ?_
    have hlt : place < k := List.mem_range.1 hplace
    have haround : decide (Around place (i, k)) = decide (i < place) := by
      rw [decide_eq_decide, Around]
      omega
    rw [haround, Bool.and_comm]
  · intro place hplace
    have haround : Around place (i, k) := by
      simp only [Bool.and_eq_true, decide_eq_true_eq] at hplace
      exact hplace.2
    exact haround.2

/-- At the top are the nodes that lie inside no pair at the end. -/
theorem roots_eq_visible (items : List Item) : roots items = visible items items.length := by
  rw [roots, nodePlaces, List.filter_filter, visible, outside]
  refine List.filter_congr fun place _ => ?_
  have hnone : decide (home? items place = none) =
      (pairs items items.length).all fun pair => ¬Around place pair := by
    rw [Bool.eq_iff_iff, decide_eq_true_iff, home?, List.find?_eq_none]
    simp
  rw [hnone, Bool.and_comm]

/-! ## Every node is somewhere -/

/-- One item more is one more tag to render at most. -/
theorem callers_succ (items : List Item) (k : Nat) :
    callers items (k + 1) = callers items k ++ ((items[k]?.bind Item.called?).map fun name => (k, name)).toList := by
  rw [callers, List.range_succ, List.filterMap_append, callers]
  refine congrArg _ ?_
  rw [List.filterMap_cons, List.filterMap_nil]
  cases (items[k]?.bind Item.called?).map fun name => (k, name) with
  | none => rfl
  | some caller => rfl

/-- The tags to render come in the order of the text. -/
theorem pairwise_callers (items : List Item) (k : Nat) :
    (callers items k).Pairwise fun caller later => caller.1 < later.1 := by
  refine List.pairwise_lt_range.filterMap _ fun place later hlt caller hcaller next hnext => ?_
  obtain ⟨name, -, rfl⟩ := Option.map_eq_some_iff.1 hcaller
  obtain ⟨other, -, rfl⟩ := Option.map_eq_some_iff.1 hnext
  exact hlt

/-- What closes a pair is called. -/
theorem exists_caller_of_mem_pairs {pair : Nat × Nat} (h : pair ∈ pairs items k) :
    ∃ name, (pair.2, name) ∈ callers items k := by
  induction k with
  | zero => simp [pairs] at h
  | succ k ih =>
    rw [callers_succ]
    rw [pairs] at h
    split at h
    · rename_i hcloser
      rcases List.mem_append.1 h with hold | hnew
      · obtain ⟨name, hmem⟩ := ih hold
        exact ⟨name, List.mem_append_left _ hmem⟩
      · obtain ⟨i, -, rfl⟩ := Option.map_eq_some_iff.1 (Option.mem_toList.1 hnew)
        obtain ⟨item, hitem, hcloser⟩ := (Option.any_eq_true _ _).1 hcloser
        obtain ⟨name, hname⟩ : ∃ name, item.called? = some name := by
          unfold Item.isCloser at hcloser
          split at hcloser
          · exact ⟨_, rfl⟩
          · contradiction
        exact ⟨name, List.mem_append_right _ (by simp [hitem, hname])⟩
    · obtain ⟨name, hmem⟩ := ih h
      exact ⟨name, List.mem_append_left _ hmem⟩

/-- Every node lies directly inside one tag, or else at the top. -/
theorem perm_nodePlaces (items : List Item) :
    ((callers items items.length).flatMap (fun caller => children items caller.1) ++ roots items).Perm
      (nodePlaces items) := by
  have hnodup : (nodePlaces items).Nodup := List.nodup_range.sublist List.filter_sublist
  -- no node is inside two tags, since its home is closed by one of them
  have hinside : ((callers items items.length).flatMap fun caller => children items caller.1).Nodup := by
    refine List.nodup_flatMap.2 ⟨fun caller _ => hnodup.sublist List.filter_sublist, ?_⟩
    refine (pairwise_callers items _).imp fun {caller later} hlt place hmem hother => ?_
    have hhome := of_decide_eq_true (List.mem_filter.1 hmem).2
    have hhome' := of_decide_eq_true (List.mem_filter.1 hother).2
    rw [hhome] at hhome'
    have := Option.some.inj hhome'
    omega
  -- both lists hold every place once, so it is enough that they hold the same places
  refine (List.perm_ext_iff_of_nodup ?_ hnodup).2 fun place => ?_
  · refine List.nodup_append.2 ⟨hinside, hnodup.sublist List.filter_sublist, ?_⟩
    rintro place hmem other htop rfl
    obtain ⟨caller, -, hchild⟩ := List.mem_flatMap.1 hmem
    have hhome := of_decide_eq_true (List.mem_filter.1 hchild).2
    have hnone := of_decide_eq_true (List.mem_filter.1 htop).2
    rw [hnone] at hhome
    contradiction
  · constructor
    · intro hmem
      rcases List.mem_append.1 hmem with hmem | htop
      · obtain ⟨caller, -, hchild⟩ := List.mem_flatMap.1 hmem
        exact (List.mem_filter.1 hchild).1
      · exact (List.mem_filter.1 htop).1
    · intro hnode
      cases hhome : home? items place with
      | none => exact List.mem_append_right _ (List.mem_filter.2 ⟨hnode, decide_eq_true hhome⟩)
      | some pair =>
        obtain ⟨name, hcaller⟩ := exists_caller_of_mem_pairs (List.mem_of_find?_eq_some hhome)
        refine List.mem_append_left _ (List.mem_flatMap.2 ⟨(pair.2, name), hcaller, ?_⟩)
        exact List.mem_filter.2 ⟨hnode, decide_eq_true (by rw [hhome, Option.map_some])⟩

end Phrasebook.Markup
