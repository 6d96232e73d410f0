import Mathlib
import Phrasebook.Proofs.Reference.Cycle
import Phrasebook.Proofs.Reference.Label
import Phrasebook.Proofs.Reference.Visits

/-!
# First failures

Where a reading fails is a place in the reference tree of its key: a list that tells which marker is followed at each
text on the way down. Places are ordered as lists, so a text stands before all that it refers to, and what one marker
leads to before what a later marker does. A reading goes through the places in this order up to the first one that has
a problem (`Library.tellsFirst_readWithin`). Main statement: `Library.read_fails_first`.
-/

namespace Phrasebook

/-- A place in a reference tree: which marker is followed at each text on the way down, counted from the left. -/
abbrev Place := List Nat

/-! ## Ways -/

namespace Library

/-- The way from an address down to a place: the addresses above the place, outermost first, and the one at it. -/
def way? (library : Library) (locale : Locale) : Address → Place → Option (List Address × Address)
  | address, [] => some ([], address)
  | address, i :: place =>
    (library.references locale address)[i]?.bind fun target =>
      (library.way? locale target place).map fun way => (address :: way.1, way.2)

variable {library : Library} {locale : Locale} {address last : Address} {above : List Address} {place : Place}

/-- An address that is among the references of another is what that refers to. -/
theorem refersTo_of_mem_references {target : Address} (h : target ∈ library.references locale address) :
    library.RefersTo locale address target := by
  unfold references at h
  split at h
  · exact ⟨_, by assumption, h⟩
  · simp at h

/-- What is referred to has a label that can be read back. -/
theorem RefersTo.named {target : Address} (h : library.RefersTo locale address target) : target.Named := by
  obtain ⟨text, -, hmem⟩ := h
  exact named_of_mem_references hmem

/-- The way to a place further down goes through the place above it. -/
theorem way?_append (address : Address) (place below : Place) :
    library.way? locale address (place ++ below) =
      (library.way? locale address place).bind fun way =>
        (library.way? locale way.2 below).map fun rest => (way.1 ++ rest.1, rest.2) := by
  induction place generalizing address with
  | nil => simp [way?]
  | cons i place ih =>
    rw [List.cons_append, way?, way?, Option.bind_assoc]
    refine congrArg _ (funext fun target => ?_)
    rw [ih, Option.bind_map, Option.map_bind]
    refine congrArg _ (funext fun way => ?_)
    exact Option.map_map ..

/-- One marker more leads to what the text at the end of the way refers to. -/
theorem way?_concat {i : Nat} {target : Address} (h : library.way? locale address place = some (above, last))
    (htarget : (library.references locale last)[i]? = some target) :
    library.way? locale address (place ++ [i]) = some (above ++ [last], target) := by
  simp [way?_append, h, way?, htarget]

/-- Each address on a way refers to the next one, and the first is where the way begins. -/
theorem isChain_of_way? (h : library.way? locale address place = some (above, last)) :
    (above ++ [last]).head? = some address ∧ List.IsChain (library.RefersTo locale) (above ++ [last]) := by
  induction place generalizing address above with
  | nil =>
    obtain ⟨rfl, rfl⟩ := Prod.mk.inj (Option.some.inj h)
    exact ⟨rfl, .singleton _⟩
  | cons i place ih =>
    obtain ⟨target, htarget, hway⟩ := Option.bind_eq_some_iff.1 h
    obtain ⟨⟨above', last'⟩, hbelow, heq⟩ := Option.map_eq_some_iff.1 hway
    obtain ⟨rfl, rfl⟩ := Prod.mk.inj heq
    obtain ⟨hhead, hchain⟩ := ih hbelow
    have hrefers := refersTo_of_mem_references (List.mem_of_getElem? htarget)
    refine ⟨rfl, List.isChain_cons.2 ⟨fun next hnext => ?_, hchain⟩⟩
    obtain rfl := Option.some.inj (hhead.symm.trans hnext)
    exact hrefers

/-- All but the first address on a way are named by markers. -/
theorem named_of_mem_tail {way : List Address} (hchain : List.IsChain (library.RefersTo locale) way) :
    ∀ address ∈ way.tail, address.Named := by
  induction hchain with
  | nil => simp
  | singleton => simp
  | cons_cons hrefers _ ih =>
    exact List.forall_mem_cons.2 ⟨hrefers.named, ih⟩

end Library

/-! ## Problems at places -/

namespace Library

/-- What is wrong at a place, if a way may hold `room` keys and `chain` names the keys above the address: the way is
too long, or what it leads to is no text. -/
def problemAt? (library : Library) (locale : Locale) (room : Nat) (chain : List String) (address : Address)
    (place : Place) : Option Problem :=
  (library.way? locale address place).bind fun way =>
    if room ≤ way.1.length then some (.cyclicReference locale (chain ++ (way.1 ++ [way.2]).map Address.label))
    else (Visit.node way.2).problem? library locale

variable {library : Library} {locale : Locale} {address : Address} {place : Place}

/-- A text that is found is no problem at the topmost place, as long as there is room for one key. -/
theorem problemAt?_nil_of_text {raw : String} (room : Nat) (chain : List String)
    (h : library.node? ⟨locale, address.moduleId⟩ address.key = some (.text raw)) :
    library.problemAt? locale (room + 1) chain address [] = none := by
  show (Visit.node address).problem? library locale = none
  simp only [Visit.problem?, h]

/-- Below a text, a place is a marker of the text and a place below what that refers to. -/
theorem problemAt?_cons (room : Nat) (chain : List String) (address : Address) (i : Nat) (place : Place) :
    library.problemAt? locale (room + 1) chain address (i :: place) =
      (library.references locale address)[i]?.bind fun target =>
        library.problemAt? locale room (chain ++ [addressLabel address.moduleId address.key]) target place := by
  rw [problemAt?, way?, Option.bind_assoc]
  refine congrArg _ (funext fun target => ?_)
  rw [problemAt?, Option.bind_map]
  refine congrArg _ (funext fun way => ?_)
  simp [Address.label]

/-- Below a place, problems are those of the address at the place with the rest of the room. -/
theorem problemAt?_append {above : List Address} {last : Address} (room : Nat) (chain : List String)
    (h : library.way? locale address place = some (above, last)) (below : Place) :
    library.problemAt? locale room chain address (place ++ below) =
      library.problemAt? locale (room - above.length) (chain ++ above.map Address.label) last below := by
  rw [problemAt?, way?_append, h, Option.bind_some, Option.bind_map, problemAt?]
  refine congrArg _ (funext fun way => ?_)
  simp [Nat.add_comm]

end Library

/-- The result tells of the first place with a problem: it is that problem, or there is no such place. -/
def Traced.TellsFirst {α : Type} (t : Traced α) (problemAt? : Place → Option Problem) : Prop :=
  match t.result with
  | .ok _ => ∀ place, problemAt? place = none
  | .error problem => ∃ place, problemAt? place = some problem ∧ ∀ earlier, earlier < place → problemAt? earlier = none

namespace Traced.TellsFirst

variable {α : Type} {t : Traced α} {problemAt? : Place → Option Problem}

/-- A reading that succeeds has a problem at no place. -/
theorem of_ok (h : t.TellsFirst problemAt?) {a : α} (hok : t.result = .ok a) (place : Place) :
    problemAt? place = none := by
  rw [TellsFirst, hok] at h
  exact h place

/-- A reading that fails tells the problem of the first place that has one. -/
theorem of_error (h : t.TellsFirst problemAt?) {problem : Problem} (herror : t.result = .error problem) :
    ∃ place, problemAt? place = some problem ∧ ∀ earlier, earlier < place → problemAt? earlier = none := by
  rw [TellsFirst, herror] at h
  exact h

/-- Nothing comes before the topmost place. -/
theorem at_top {problem : Problem} (herror : t.result = .error problem) (h : problemAt? [] = some problem) :
    t.TellsFirst problemAt? := by
  rw [TellsFirst, herror]
  exact ⟨[], h, fun earlier hearlier => absurd hearlier (List.not_lt_nil earlier)⟩

end Traced.TellsFirst

namespace Library

variable {library : Library} {locale : Locale}

/-- Reading fails with the problem of the first place that has one. -/
theorem tellsFirst_readWithin (room : Nat) (chain : List String) (address : Address) :
    (library.readWithin locale room chain address.moduleId address.key).TellsFirst
      (library.problemAt? locale room chain address) := by
  -- on the room: what a text refers to is read with one key less to spare
  induction room generalizing chain address with
  | zero => exact .at_top rfl rfl
  | succ room ih =>
    cases hresult : (library.readWithin locale (room + 1) chain address.moduleId address.key).result with
    | ok text =>
      obtain ⟨raw, hfound, hexpand⟩ := result_readWithin_succ_eq_ok_iff.1 hresult
      obtain ⟨readings, hall, -⟩ := result_expandPieces_eq_ok_iff.1 hexpand
      rw [Traced.TellsFirst, hresult]
      rintro (_ | ⟨i, place⟩)
      · exact problemAt?_nil_of_text room chain hfound
      · -- every marker was followed to a text, so by `ih` nothing is wrong below any of them
        rw [problemAt?_cons, references_of_text hfound, Option.bind_eq_none_iff]
        intro target htarget
        have hread := ((List.forall₂_and_left _ _).1 (hall.imp fun _ reading h => ⟨Exists.intro reading h, h⟩)).1
        obtain ⟨reading, hread⟩ := hread target (List.mem_of_getElem? htarget)
        exact (ih _ target).of_ok hread place
    | error problem =>
      obtain ⟨hfound, rfl⟩ | ⟨entries, hfound, rfl⟩ | ⟨raw, hfound, hexpand⟩ :=
        result_readWithin_succ_eq_error_iff.1 hresult
      · refine .at_top hresult ?_
        show (Visit.node address).problem? library locale = _
        simp only [Visit.problem?, hfound]
      · refine .at_top hresult ?_
        show (Visit.node address).problem? library locale = _
        simp only [Visit.problem?, hfound]
      · obtain ⟨before, target, after, hsplit, hbefore, hread⟩ := result_expandPieces_eq_error_iff.1 hexpand
        obtain ⟨place, hplace, hfirst⟩ := (ih _ target).of_error hread
        rw [Traced.TellsFirst, hresult]
        -- the first marker that fails begins the way to the first problem
        refine ⟨before.length :: place, ?_, ?_⟩
        · rw [problemAt?_cons, references_of_text hfound, hsplit]
          simpa using hplace
        · rintro (_ | ⟨i, earlier⟩) hearlier
          · exact problemAt?_nil_of_text room chain hfound
          · rw [problemAt?_cons, references_of_text hfound, hsplit]
            -- an earlier place is below a marker that was completed, or further left below the one that failed
            obtain hi | ⟨rfl, hbelow⟩ := List.cons_lt_cons_iff.1 hearlier
            · obtain ⟨reading, hread⟩ := hbefore before[i] (List.getElem_mem hi)
              rw [List.getElem?_append_left hi, List.getElem?_eq_getElem hi, Option.bind_some]
              exact (ih _ before[i]).of_ok hread earlier
            · simpa using hfirst earlier hbelow

/-- The reading of an address without a problem below it gives a text, so following references does not lead back to
the address. -/
theorem not_recurs_of_forall_problemAt?_eq_none {room : Nat} {chain : List String} {address : Address}
    (h : ∀ place, library.problemAt? locale room chain address place = none) : ¬ library.Recurs locale address := by
  cases hresult : (library.readWithin locale room chain address.moduleId address.key).result with
  | ok text =>
    obtain ⟨tree, rfl, ⟨hresolves, -⟩, -⟩ := (result_readWithin_eq_ok_iff address).1 hresult
    exact hresolves.not_recurs
  | error problem =>
    obtain ⟨place, hplace, -⟩ := (tellsFirst_readWithin room chain address).of_error hresult
    rw [h place] at hplace
    contradiction

/-- What the text at a place refers to before a marker that leads to a problem is completed, so it is none of the
addresses down to that marker. -/
theorem not_mem_of_completed {room : Nat} {chain : List String} {root parent other sibling : Address}
    {front back : Place} {passed : List Address} {i j : Nat}
    (hway : library.way? locale root front = some (passed, parent))
    (hsibling : (library.references locale parent)[j]? = some sibling)
    (hcompleted : ∀ below, library.problemAt? locale room chain root (front ++ [j] ++ below) = none)
    (hother : (library.references locale parent)[i]? = some other)
    (hfails : library.problemAt? locale room chain root (front ++ [i] ++ back) ≠ none) :
    sibling ∉ passed ++ [parent, other] := by
  have hclean (below : Place) := (problemAt?_append room chain (way?_concat hway hsibling) below).symm.trans
    (hcompleted below)
  rw [← List.singleton_append, ← List.append_assoc, List.mem_append, List.mem_singleton]
  rintro (hmem | rfl)
  · -- the sibling would refer back to itself, but a text was read for it
    have hchain := pairwise_of_isChain (isChain_of_way? (way?_concat hway hsibling)).2
    have hrecurs := (List.pairwise_append.1 hchain).2.2 sibling hmem sibling (List.mem_singleton_self sibling)
    exact not_recurs_of_forall_problemAt?_eq_none hclean hrecurs
  · -- what is wrong below the other marker would be wrong below the sibling
    rw [problemAt?_append room chain (way?_concat hway hother)] at hfails
    exact hfails (hclean back)

/-- **A failed reading reports its first failure.** At a depth below the largest word, a reading that fails has the
problem of the first place in the reference tree of its key that has one. A key that is missing or has a table is the
one at that place. A chain that is too long has two keys more than the depth allows references, the labels of the
addresses on the way to the place: the key, and then what a marker in the text before refers to. What was completed
beside the way is none of the addresses down to its level, and the labels below the key there are not its label;
further down the way may come to the same address again. -/
theorem read_fails_first (library : Library) (pair : Pair) (key : Key) (problem : Problem)
    (hdepth : library.maxDepth < wordLimit) (h : (library.read pair key).result = .error problem) :
    let root : Address := ⟨pair.moduleId, key⟩
    let problemAt? := library.problemAt? pair.locale (library.maxDepth + 1) [] root
    ∃ place above last, library.way? pair.locale root place = some (above, last) ∧
      problemAt? place = some problem ∧ (∀ earlier, earlier < place → problemAt? earlier = none) ∧
      (library.node? ⟨pair.locale, last.moduleId⟩ last.key = none ∧
          problem = .keyMissing ⟨pair.locale, last.moduleId⟩ last.key ∨
        (∃ entries, library.node? ⟨pair.locale, last.moduleId⟩ last.key = some (.table entries)) ∧
          problem = .keyPartial ⟨pair.locale, last.moduleId⟩ last.key ∨
        (above ++ [last]).length = library.maxDepth + 2 ∧
          problem = .cyclicReference pair.locale ((above ++ [last]).map Address.label)) ∧
      (above ++ [last]).head? = some root ∧ List.IsChain (library.RefersTo pair.locale) (above ++ [last]) ∧
      ∀ front i j passed parent other sibling, front ++ [i] <+: place →
        library.way? pair.locale root front = some (passed, parent) →
        (library.references pair.locale parent)[i]? = some other → j < i →
        (library.references pair.locale parent)[j]? = some sibling →
          sibling ∉ passed ++ [parent, other] ∧
            sibling.label ∉ (passed ++ [parent, other]).tail.map Address.label := by
  intro root problemAt?
  have hread : (library.readWithin pair.locale (library.maxDepth + 1) [] root.moduleId root.key).result =
      .error problem := by
    rw [read, Traced.result_andThen_eq_error_iff] at h
    obtain h | ⟨_, -, hdone⟩ := h
    · rwa [chainLimit, Nat.min_eq_left hdepth] at h
    · cases hdone
  obtain ⟨place, hplace, hfirst⟩ := (tellsFirst_readWithin (library.maxDepth + 1) [] root).of_error hread
  obtain ⟨⟨above, last⟩, hway, hproblem⟩ := Option.bind_eq_some_iff.1 hplace
  refine ⟨place, above, last, hway, hplace, hfirst, ?_, (isChain_of_way? hway).1, (isChain_of_way? hway).2, ?_⟩
  · by_cases hlong : library.maxDepth + 1 ≤ above.length
    · rw [if_pos hlong] at hproblem
      obtain rfl := Option.some.inj hproblem
      obtain ⟨-, path, hlength, -, hnames⟩ := exists_path_of_cyclic root hread
      have hcount := congrArg List.length hnames
      refine .inr (.inr ⟨?_, rfl⟩)
      simpa [hlength] using hcount
    · rw [if_neg hlong, Visit.problem?] at hproblem
      split at hproblem
      · contradiction
      · rename_i entries hfound
        exact .inr (.inl ⟨⟨entries, hfound⟩, (Option.some.inj hproblem).symm⟩)
      · rename_i hfound
        exact .inl ⟨hfound, (Option.some.inj hproblem).symm⟩
  · rintro front i j passed parent other sibling ⟨back, rfl⟩ hpassed hother hlt hsibling
    -- what lies below an earlier marker comes before the place of the failure
    have hcompleted (below : Place) : problemAt? (front ++ [j] ++ below) = none := by
      refine hfirst _ ?_
      rw [List.append_assoc, List.append_assoc]
      exact List.append_left_lt (List.cons_lt_cons_iff.2 (.inl hlt))
    have hfails : problemAt? (front ++ [i] ++ back) ≠ none := ne_of_eq_of_ne hplace (Option.some_ne_none problem)
    have hnot := not_mem_of_completed hpassed hsibling hcompleted hother hfails
    refine ⟨hnot, fun hlabel => ?_⟩
    -- an address with the sibling's label that a marker names is the sibling
    obtain ⟨named, hmem, heq⟩ := List.mem_map.1 hlabel
    have hchain := (isChain_of_way? (way?_concat hpassed hother)).2
    rw [List.append_assoc] at hchain
    have hsiblingNamed := (refersTo_of_mem_references (List.mem_of_getElem? hsibling)).named
    rw [(named_of_mem_tail hchain named hmem).eq_of_label_eq hsiblingNamed heq] at hmem
    exact hnot (List.mem_of_mem_tail hmem)

/-- What is completed beside the way does not stand in the chain, and what is missing further on is not met. -/
theorem read_fails_first_loop :
    let texts : Resource :=
      .table [("a", .text "<:x/>, <:b/>, <:gone/>"), ("b", .text "<:b/>, <:x/>"), ("x", .text "X")]
    let library : Library := { resource? := fun _ => some texts, notifies := fun _ => false, maxDepth := 2 }
    let pair : Pair := ⟨⟨"en"⟩, ⟨"app"⟩⟩
    let root : Address := ⟨⟨"app"⟩, ["a"]⟩
    let problem : Problem := .cyclicReference ⟨"en"⟩ ["app:a", "app:b", "app:b", "app:b"]
    library.maxDepth < wordLimit ∧ (library.read pair ["a"]).result = .error problem ∧
      ∃ place above last, library.way? ⟨"en"⟩ root place = some (above, last) ∧
        library.problemAt? ⟨"en"⟩ 3 [] root place = some problem ∧
        (∀ earlier, earlier < place → library.problemAt? ⟨"en"⟩ 3 [] root earlier = none) ∧
        List.IsChain (library.RefersTo ⟨"en"⟩) (above ++ [last]) := by
  intro texts library pair root problem
  have hdepth : library.maxDepth < wordLimit := by decide
  have hread : (library.read pair ["a"]).result = .error problem := by cbv
  obtain ⟨place, above, last, hway, hproblem, hfirst, -, -, hchain, -⟩ :=
    read_fails_first library pair ["a"] problem hdepth hread
  exact ⟨hdepth, hread, place, above, last, hway, hproblem, hfirst, hchain⟩

/-- The chain can come to what was completed beside it: `s` is read for the first marker of `a`, and stands in the chain
because the failing marker of `b`, further down, refers to it again. -/
theorem read_returns_to_completed :
    let texts : Resource := .table [("a", .text "<:s/> <:b/>"), ("b", .text "<:s/>"), ("s", .text "S")]
    let library : Library := { resource? := fun _ => some texts, notifies := fun _ => false, maxDepth := 1 }
    let root : Address := ⟨⟨"app"⟩, ["a"]⟩
    let other : Address := ⟨⟨"app"⟩, ["b"]⟩
    let sibling : Address := ⟨⟨"app"⟩, ["s"]⟩
    let chain : List String := ["app:a", "app:b", "app:s"]
    library.maxDepth < wordLimit ∧
      (library.read ⟨⟨"en"⟩, ⟨"app"⟩⟩ ["a"]).result = .error (.cyclicReference ⟨"en"⟩ chain) ∧
      library.references ⟨"en"⟩ root = [sibling, other] ∧ other.label ∈ chain ∧
      (library.readWithin ⟨"en"⟩ library.maxDepth [root.label] sibling.moduleId sibling.key).result = .ok ['S'] ∧
      sibling.label ∈ chain := by
  intro texts library root other sibling chain
  have hread : (library.read ⟨⟨"en"⟩, ⟨"app"⟩⟩ ["a"]).result = .error (.cyclicReference ⟨"en"⟩ chain) := by cbv
  have hreferences : library.references ⟨"en"⟩ root = [sibling, other] := by cbv
  have hcompleted :
      (library.readWithin ⟨"en"⟩ library.maxDepth [root.label] sibling.moduleId sibling.key).result = .ok ['S'] := by
    cbv
  exact ⟨by decide, hread, hreferences, by decide, hcompleted, by decide⟩

end Library

end Phrasebook
