import Mathlib.Data.List.Infix
import Phrasebook.Files.Path
import Phrasebook.Files.Tree

/-!
# Places below a directory

A path goes on from a directory along names, and `..` leads back by one name. `Path.LeadsTo` gives the place below
the directory that a path leads to if no name leads out of it. Names lead to a place exactly if no beginning of them has
more ways back than names that lead forward (`Path.isSome_descend?_iff`), and what is found in a file tree at a path
that leads to a place is at that place (`FileTree.eq_of_find`).
-/

namespace Phrasebook

/-- The last piece of a text goes on with what is written behind the text, up to the next separator. -/
theorem exists_pieces_append (sep : Char) (cs : List Char) :
    ∃ front last, ∀ tail, sep ∉ tail → pieces sep (cs ++ tail) = front ++ [last ++ tail] := by
  induction cs with
  | nil => exact ⟨[], [], fun tail htail => pieces_of_not_mem htail⟩
  | cons c cs ih =>
    obtain ⟨front, last, ih⟩ := ih
    by_cases hc : c = sep
    · refine ⟨[] :: front, last, fun tail htail => ?_⟩
      rw [List.cons_append, pieces, if_pos hc, ih tail htail, List.cons_append]
    · -- the character joins the first piece, which is the last one too if there is no other
      cases front with
      | nil =>
        refine ⟨[], c :: last, fun tail htail => ?_⟩
        rw [List.cons_append, pieces, if_neg hc, ih tail htail]
        rfl
      | cons first front =>
        refine ⟨(c :: first) :: front, last, fun tail htail => ?_⟩
        rw [List.cons_append, pieces, if_neg hc, ih tail htail]
        rfl

namespace Path

/-- A path that begins with a slash replaces what precedes it. -/
def IsAbsolute (path : String) : Prop :=
  path.toList.head? = some '/'

instance (path : String) : Decidable (IsAbsolute path) :=
  inferInstanceAs (Decidable (path.toList.head? = some '/'))

/-- The names along a path. -/
def names (path : String) : List String :=
  (components path).map String.ofList

/-! ## Names along joined paths -/

variable {base part dir path name : String}

/-- A relative path is written behind the path that it is joined to, with a slash between them. -/
theorem join_cases (base : String) (h : ¬ IsAbsolute part) :
    base = "" ∧ join base part = part ∨
      base ≠ "" ∧ ∃ front, (base = front ∨ base = front ++ "/") ∧ join base part = front ++ "/" ++ part := by
  unfold IsAbsolute at h
  simp only [join, if_neg h]
  by_cases hempty : base = ""
  · refine .inl ⟨hempty, ?_⟩
    simp [hempty]
  · refine .inr ⟨hempty, ?_⟩
    by_cases hslash : base.toList.getLast? = some '/'
    · obtain ⟨front, hfront⟩ := List.getLast?_eq_some_iff.1 hslash
      have hbase : base = String.ofList front ++ "/" := by
        rw [← String.toList_inj]
        simpa using hfront
      refine ⟨String.ofList front, .inr hbase, ?_⟩
      rw [if_pos (by simp [hslash]), ← hbase]
    · exact ⟨base, .inl rfl, if_neg (by simp [hempty, hslash])⟩

/-- There are no names along an empty path. -/
@[simp] theorem names_empty : names "" = [] := by
  simp [names, components, pieces]

/-- A slash ends a name. -/
theorem names_append_slash (front rest : String) : names (front ++ "/" ++ rest) = names front ++ names rest := by
  simp [names, components, pieces_append_sep]

/-- A relative path goes on from the path that it is joined to. -/
theorem names_join (h : ¬ IsAbsolute part) : names (join base part) = names base ++ names part := by
  obtain ⟨rfl, hjoin⟩ | ⟨-, front, rfl | rfl, hjoin⟩ := join_cases base h
  · rw [hjoin, names_empty, List.nil_append]
  · rw [hjoin, names_append_slash]
  · have hfront : names (front ++ "/") = names front := by
      simpa using names_append_slash front ""
    rw [hjoin, names_append_slash, hfront]

/-- Going on from a path keeps where it begins. -/
theorem isAbsolute_join (h : ¬ IsAbsolute part) : IsAbsolute (join base part) ↔ IsAbsolute base := by
  obtain ⟨rfl, hjoin⟩ | ⟨hbase, front, hfront, hjoin⟩ := join_cases base h
  · rw [hjoin]
    simpa [IsAbsolute] using h
  · rw [hjoin]
    cases hchars : front.toList with
    | nil =>
      obtain rfl := String.toList_eq_nil_iff.1 hchars
      obtain rfl := hfront.resolve_left hbase
      simp [IsAbsolute]
    | cons c cs =>
      obtain rfl | rfl := hfront
      · simp [IsAbsolute, hchars]
      · simp [IsAbsolute, hchars]

/-- A text without slashes is one name, unless it names nothing. -/
theorem names_of_not_mem (h : '/' ∉ name.toList) : names name = if name = "" ∨ name = "." then [] else [name] := by
  have hdot : name.toList = ['.'] ↔ name = "." := by rw [← String.toList_inj]; rfl
  by_cases hname : name = "" ∨ name = "."
  · rw [if_pos hname]
    obtain rfl | rfl := hname
    · exact names_empty
    · decide
  · rw [if_neg hname]
    obtain ⟨hempty, hdot'⟩ := not_or.1 hname
    simp [names, components, pieces_of_not_mem h, hempty, hdot, hdot']

/-- A text with a longer end is not the short one. -/
theorem append_ne_of_length_lt (front : String) {tail short : String} (h : short.length < tail.length) :
    front ++ tail ≠ short := by
  intro heq
  have hlength := congrArg String.length heq
  rw [String.length_append] at hlength
  omega

/-- With an extension the last name along a path is no way back. -/
theorem exists_names_append {tail : String} (hslash : '/' ∉ tail.toList) (hlong : 2 < tail.length) :
    ∃ front last, names (name ++ tail) = front ++ [last] ∧ last ≠ ".." := by
  obtain ⟨front, last, hpieces⟩ := exists_pieces_append '/' name.toList
  have hlast (short : String) (hshort : short.length ≤ 2) : last ++ tail.toList ≠ short.toList := by
    intro heq
    refine append_ne_of_length_lt (String.ofList last) (lt_of_le_of_lt hshort hlong) ?_
    rw [← String.toList_inj]
    simpa using heq
  -- the last piece is longer than `..`, so it is a name and leads forward
  refine ⟨(front.filter fun name => name ≠ [] && name ≠ ['.']).map String.ofList,
    String.ofList (last ++ tail.toList), ?_, fun heq => hlast ".." (by decide) (by rw [← heq, String.toList_ofList])⟩
  have hempty : last ++ tail.toList ≠ [] := hlast "" (by decide)
  have hdot : last ++ tail.toList ≠ ['.'] := hlast "." (by decide)
  rw [names, components, String.toList_append, hpieces _ hslash]
  simp [List.filter_append, hempty, hdot]

/-! ## Places below a directory -/

/-- The place that names lead to from a place below a directory, where `..` leads back by one name. There is none if
a name leads out of the directory. -/
def descend? (place : List String) : List String → Option (List String)
  | [] => some place
  | name :: names =>
    if name = ".." then
      if place = [] then none else descend? place.dropLast names
    else descend? (place ++ [name]) names

/-- In no beginning of the names do more names lead back than forward. -/
def NeverOut (names : List String) : Prop :=
  ∀ before, before <+: names → before.count ".." ≤ before.countP (· ≠ "..")

instance (names : List String) : Decidable (NeverOut names) :=
  decidable_of_iff (∀ before ∈ names.inits, before.count ".." ≤ before.countP (· ≠ ".."))
    (forall_congr' fun before => by rw [List.mem_inits])

variable {place place' added : List String}

/-- Without `..` no name leads back. -/
theorem neverOut_of_not_mem (h : ".." ∉ added) : NeverOut added := by
  intro before hbefore
  have hnone : ".." ∉ before := fun hmem => h (hbefore.subset hmem)
  rw [List.count_eq_zero_of_not_mem hnone]
  exact Nat.zero_le _

/-- Names lead to a place if they never lead back by more names than the place has and they went forward. -/
theorem isSome_descend?_iff (place names : List String) :
    (descend? place names).isSome ↔
      ∀ before, before <+: names → before.count ".." ≤ place.length + before.countP (· ≠ "..") := by
  induction names generalizing place with
  | nil => simp [descend?]
  | cons name names ih =>
    -- a beginning is empty or begins with the first name
    have hbefores (P : List String → Prop) (hnil : P []) :
        (∀ before, before <+: name :: names → P before) ↔ ∀ before, before <+: names → P (name :: before) := by
      simp only [List.prefix_cons_iff]
      constructor
      · intro h before hbefore
        exact h (name :: before) (.inr ⟨before, rfl, hbefore⟩)
      · rintro h before (rfl | ⟨rest, rfl, hrest⟩)
        · exact hnil
        · exact h rest hrest
    rw [hbefores _ (by simp), descend?]
    by_cases hback : name = ".."
    · subst hback
      rw [if_pos rfl]
      cases hplace : place with
      | nil =>
        simp only [if_true, Option.isSome_none, Bool.false_eq_true, false_iff, not_forall]
        exact ⟨[], List.nil_prefix, by simp⟩
      | cons first rest =>
        -- the place has one name less now, and the ways back are counted from there
        rw [if_neg (List.cons_ne_nil first rest), ih]
        refine forall_congr' fun before => imp_congr_right fun _ => ?_
        simp
        omega
    · rw [if_neg hback, ih]
      refine forall_congr' fun before => imp_congr_right fun _ => ?_
      simp [hback]
      omega

/-- Names that never lead back are added to the place. -/
theorem descend?_of_not_mem (h : ".." ∉ added) : descend? place added = some (place ++ added) := by
  induction added generalizing place with
  | nil => simp [descend?]
  | cons name added ih =>
    obtain ⟨hname, hadded⟩ := List.ne_and_not_mem_of_not_mem_cons h
    rw [descend?, if_neg hname.symm, ih hadded, List.append_assoc, List.singleton_append]

/-- A last name that does not lead back leads below where the others lead. -/
theorem descend?_concat {last : String} (hlast : last ≠ "..") :
    descend? place (added ++ [last]) = (descend? place added).map (· ++ [last]) := by
  induction added generalizing place with
  | nil => simp [descend?, hlast]
  | cons name added ih =>
    rw [List.cons_append, descend?, descend?, ih, ih]
    split
    · split <;> rfl
    · rfl

/-- A path leads to a place below a directory: it begins where the directory does, and goes on from it by names none of
which leads out. -/
def LeadsTo (dir path : String) (place : List String) : Prop :=
  (IsAbsolute path ↔ IsAbsolute dir) ∧ ∃ added, names path = names dir ++ added ∧ descend? [] added = some place

/-- A path stays strictly below a directory. -/
def StaysBelow (dir path : String) : Prop :=
  ∃ place, place ≠ [] ∧ LeadsTo dir path place

/-- A path that begins as the directory does and goes on by some names leads where these lead. -/
theorem leadsTo_iff (habsolute : IsAbsolute path ↔ IsAbsolute dir) (hnames : names path = names dir ++ added) :
    LeadsTo dir path place ↔ descend? [] added = some place := by
  constructor
  · rintro ⟨-, added', hnames', hplace⟩
    obtain rfl := List.append_cancel_left (hnames.symm.trans hnames')
    exact hplace
  · intro hplace
    exact ⟨habsolute, added, hnames, hplace⟩

end Path

namespace FileTree

variable {tree : FileTree} {base place place' found next : List String} {name : String} {names : List String}

/-! ## Walks in a file tree -/

/-- A walk takes its first step and goes on from where that leads to. -/
theorem walk_cons (tree : FileTree) (place : List String) (name : String) (names : List String) :
    tree.walk place (name :: names) = tree.walk place [name] >>= fun next => tree.walk next names := by
  simp only [walk]
  split
  · rfl
  · rfl
  · split_ifs <;> rfl

/-- Walking along more names goes on where the first ones lead. -/
theorem walk_append (tree : FileTree) (place names more : List String) :
    tree.walk place (names ++ more) = tree.walk place names >>= fun next => tree.walk next more := by
  induction names generalizing place with
  | nil => rfl
  | cons name names ih =>
    rw [List.cons_append, walk_cons, walk_cons tree place name names, bind_assoc]
    exact congrArg _ (funext ih)

/-- A walk succeeds exactly if both parts do. -/
theorem walk_append_eq_ok_iff (names more : List String) :
    tree.walk place (names ++ more) = .ok found ↔
      ∃ next, tree.walk place names = .ok next ∧ tree.walk next more = .ok found := by
  rw [walk_append]
  cases tree.walk place names with
  | error fault => exact ⟨nofun, fun ⟨_, h, _⟩ => nomatch h⟩
  | ok next =>
    constructor
    · intro h
      exact ⟨next, rfl, h⟩
    · rintro ⟨_, hnext, h⟩
      obtain rfl := Except.ok.inj hnext
      exact h

/-- A walk succeeds exactly if its first step and the rest do. -/
theorem walk_cons_eq_ok_iff :
    tree.walk place (name :: names) = .ok found ↔
      ∃ next, tree.walk place [name] = .ok next ∧ tree.walk next names = .ok found :=
  walk_append_eq_ok_iff [name] names

/-- Where one step leads to. -/
theorem walk_singleton_cases (h : tree.walk place [name] = .ok next) :
    (name = "" ∨ name = ".") ∧ next = place ∨
      (name ≠ "" ∧ name ≠ ".") ∧ (name = ".." ∧ next = place.dropLast ∨ name ≠ ".." ∧ next = place ++ [name]) := by
  simp only [walk] at h
  split at h
  · cases h
  · cases h
  · split_ifs at h with hnothing hback
    · exact .inl ⟨by simpa using hnothing, (Except.ok.inj h).symm⟩
    · exact .inr ⟨by simpa using hnothing, .inl ⟨hback, (Except.ok.inj h).symm⟩⟩
    · exact .inr ⟨by simpa using hnothing, .inr ⟨hback, (Except.ok.inj h).symm⟩⟩

/-- Names that name nothing can be left out of a walk. -/
theorem walk_filter (h : tree.walk place names = .ok found) :
    tree.walk place (names.filter fun name => name ≠ "" ∧ name ≠ ".") = .ok found := by
  induction names generalizing place with
  | nil => exact h
  | cons name names ih =>
    obtain ⟨next, hstep, hrest⟩ := walk_cons_eq_ok_iff.1 h
    obtain ⟨hnothing, rfl⟩ | ⟨hname, -⟩ := walk_singleton_cases hstep
    · rw [List.filter_cons_of_neg (by rw [decide_eq_true_eq]; tauto)]
      exact ih hrest
    · rw [List.filter_cons_of_pos (by rw [decide_eq_true_eq]; exact hname)]
      exact walk_cons_eq_ok_iff.2 ⟨next, hstep, ih hrest⟩

/-- Along names that do not lead out of a directory, a walk from a place below it leads to their place. -/
theorem eq_of_walk (hnames : ∀ name ∈ names, name ≠ "" ∧ name ≠ ".")
    (hplace : Path.descend? place names = some place') (h : tree.walk (base ++ place) names = .ok found) :
    found = base ++ place' := by
  induction names generalizing place with
  | nil =>
    obtain rfl := Option.some.inj hplace
    exact (Except.ok.inj h).symm
  | cons name names ih =>
    obtain ⟨hname, hnames⟩ := List.forall_mem_cons.1 hnames
    obtain ⟨next, hstep, hrest⟩ := walk_cons_eq_ok_iff.1 h
    rw [Path.descend?] at hplace
    obtain ⟨hnothing, -⟩ | ⟨-, ⟨hback, rfl⟩ | ⟨hforward, rfl⟩⟩ := walk_singleton_cases hstep
    · exact absurd hnothing (by tauto)
    · rw [if_pos hback] at hplace
      split_ifs at hplace with hempty
      -- the place has a name to go back by, so the walk is still at a place below the directory
      rw [List.dropLast_append_of_ne_nil hempty] at hrest
      exact ih hnames hplace hrest
    · rw [if_neg hforward] at hplace
      rw [List.append_assoc] at hrest
      exact ih hnames hplace hrest

/-- The names along a path are its components without those that stay where they are. -/
theorem filter_components (path : String) :
    (components path).filter (fun name => name ≠ "" ∧ name ≠ ".") = Path.names path := by
  have hdot (cs : List Char) : String.ofList cs = "." ↔ cs = ['.'] := by rw [← String.toList_inj]; simp
  simp [components, Path.names, Path.components, List.filter_map, Function.comp_def, hdot]

/-- What is found at a path that leads to a place below a directory is at that place. -/
theorem eq_of_find {dir path : String} (hpath : Path.LeadsTo dir path place) (h : tree.find path = .ok found) :
    ∃ base, tree.walk [] (Path.names dir) = .ok base ∧ found = base ++ place := by
  obtain ⟨-, added, hnames, hplace⟩ := hpath
  have hwalk : tree.walk [] (Path.names path) = .ok found := by
    rw [← filter_components]
    apply walk_filter
    rw [find, checkPath] at h
    split_ifs at h
    · cases h
    · cases h
    · exact h
  have hadded : ∀ name ∈ added, name ≠ "" ∧ name ≠ "." := by
    intro name hname
    have hmem : name ∈ Path.names path := by
      rw [hnames]
      exact List.mem_append_right _ hname
    rw [← filter_components] at hmem
    simpa using (List.mem_filter.1 hmem).2
  rw [hnames] at hwalk
  obtain ⟨base, hbase, hrest⟩ := (walk_append_eq_ok_iff _ _).1 hwalk
  rw [← List.append_nil base] at hrest
  exact ⟨base, hbase, eq_of_walk hadded hplace hrest⟩

end FileTree

end Phrasebook
