import Phrasebook.Resource.Basic

/-!
# Flat resources

The texts of a resource with their keys are its leaves (`Resource.leaves`, exactly the texts that segments lead to:
`mem_leaves_iff`). Written into one table under their dotted keys they make the flat resource. Main statement: if no
name holds a dot, looking up a key without dotted segments finds the same text in a table and in its flat form
(`asText_lookup_flat`).
-/

namespace Phrasebook

namespace Key

/-- The key of one empty segment in the place of the empty key, which has the same dotted form. -/
def filled (key : Key) : Key :=
  if key = [] then [""] else key

/-- A key has a segment, if only the empty one. -/
theorem filled_ne_nil (key : Key) : key.filled ≠ [] := by
  unfold filled
  split
  · exact List.cons_ne_nil _ _
  · assumption

/-- The key that is filled in has the same dotted form. -/
@[simp] theorem dotted_filled (key : Key) : dotted key.filled = dotted key := by
  unfold filled
  split
  · rename_i h
    rw [h]
    rfl
  · rfl

/-- The segment that is filled in has no dot in it. -/
theorem Undotted.filled {key : Key} (h : key.Undotted) : key.filled.Undotted := by
  unfold Key.filled
  split
  · simp [Undotted]
  · exact h

/-- The dotted form of several segments holds a dot. -/
theorem dot_mem_dotted (first second : String) (key : Key) : '.' ∈ (dotted (first :: second :: key)).toList := by
  simp [dotted, joinTexts, joinWith]

end Key

namespace Resource

mutual

/-- The texts of a resource, each with the key that leads to it. -/
def leaves : Resource → List (Key × String)
  | .text content => [([], content)]
  | .table entries => leavesOf entries

/-- The texts below the entries of a table. What an earlier entry of the same name hides is left out. -/
def leavesOf : List (String × Resource) → List (Key × String)
  | [] => []
  | (name, node) :: entries =>
    node.leaves.map (fun leaf => (name :: leaf.1, leaf.2)) ++
      (leavesOf entries).filter fun leaf => leaf.1.head? ≠ some name

end

/-- The table of all texts of a resource under their dotted keys. -/
def flat (r : Resource) : Resource :=
  .ofList (r.leaves.map fun leaf => (Key.dotted leaf.1, .text leaf.2))

/-- No name of an entry holds a dot, at any level. -/
inductive Undotted : Resource → Prop
  | text (content : String) : Undotted (.text content)
  | table {entries : List (String × Resource)} (names : ∀ entry ∈ entries, '.' ∉ entry.1.toList)
      (nodes : ∀ entry ∈ entries, Undotted entry.2) : Undotted (.table entries)

/-! ## Leaves -/

/-- Only a text is read as one. -/
theorem bind_asText_eq_some_iff {node? : Option Resource} {content : String} :
    node?.bind asText = some content ↔ node? = some (.text content) := by
  rcases node? with _ | (_ | _)
  · simp
  · simp [asText]
  · simp [asText]

/-- A table is descended by the entry of the first segment. -/
theorem descend_cons (entries : List (String × Resource)) (segment : String) (key : Key) :
    descend (.table entries) (segment :: key) = (entries.lookup segment).bind fun node => node.descend key :=
  rfl

/-- No text stands at the root of a table. -/
theorem ne_nil_of_descend {r : Resource} (htable : r.asText = none) {key : Key} {content : String}
    (h : r.descend key = some (.text content)) : key ≠ [] := by
  rintro rfl
  obtain rfl : r = .text content := Option.some.inj h
  simp [asText] at htable

mutual

/-- The leaves are the texts that segments lead to. -/
theorem mem_leaves_iff (r : Resource) {key : Key} {content : String} :
    (key, content) ∈ r.leaves ↔ r.descend key = some (.text content) := by
  match r with
  | .text found => cases key <;> simp [leaves, descend, child, eq_comm]
  | .table entries =>
    rw [leaves]
    exact mem_leavesOf_iff entries

/-- The leaves of some entries are the texts that their table leads to. -/
theorem mem_leavesOf_iff (entries : List (String × Resource)) {key : Key} {content : String} :
    (key, content) ∈ leavesOf entries ↔ descend (.table entries) key = some (.text content) := by
  match entries with
  | [] => cases key <;> simp [leavesOf, descend, child]
  | (name, node) :: entries =>
    have hnode (key : Key) : (key, content) ∈ node.leaves ↔ node.descend key = some (.text content) :=
      mem_leaves_iff node
    have hentries (key : Key) : (key, content) ∈ leavesOf entries ↔
        descend (.table entries) key = some (.text content) :=
      mem_leavesOf_iff entries
    cases key with
    | nil => simp [leavesOf, hentries, descend]
    | cons segment key =>
      rw [leavesOf, List.mem_append, List.mem_filter, hentries, descend_cons, descend_cons, Entries.lookup_cons]
      -- the first entry hides what later ones of its name have, in the table as among the leaves
      by_cases h : segment = name
      · simp [h, hnode]
      · simp [h, Ne.symm h]

end

/-! ## Names without dots -/

variable {r : Resource}

/-- The children of a resource without dotted names have no dotted names either. -/
theorem Undotted.child (h : r.Undotted) {name : String} {node : Resource} (hchild : r.child name = some node) :
    '.' ∉ name.toList ∧ node.Undotted := by
  cases h with
  | text content => simp [Resource.child] at hchild
  | table names nodes =>
    obtain ⟨before, after, heq, -⟩ := List.lookup_eq_some_iff.1 hchild
    have hmem : (name, node) ∈ before ++ (name, node) :: after := by simp
    rw [← heq] at hmem
    exact ⟨names _ hmem, nodes _ hmem⟩

/-- Only segments without dots lead anywhere. -/
theorem Undotted.descend (h : r.Undotted) {key : Key} {node : Resource} (hnode : r.descend key = some node) :
    key.Undotted := by
  induction key generalizing r with
  | nil => simp [Key.Undotted]
  | cons segment key ih =>
    obtain ⟨below, hbelow, hrest⟩ := Option.bind_eq_some_iff.1 hnode
    obtain ⟨hsegment, hundotted⟩ := h.child hbelow
    exact List.forall_mem_cons.2 ⟨hsegment, ih hundotted hrest⟩

/-- In a table whose names hold no dot a key finds the text that its segments lead to. The empty key finds what
stands under the empty name. -/
theorem Undotted.asText_lookup (h : r.Undotted) (htable : r.asText = none) (key : Key) :
    (r.lookup key).bind asText = (r.descend key.filled).bind asText := by
  unfold lookup
  match key with
  | [] =>
    have hchild : r.child (Key.dotted []) = r.descend (Key.filled []) := by simp [Key.filled, Resource.descend]
    rw [hchild]
    cases r.descend (Key.filled []) with
    | none => exact htable
    | some node => rfl
  | [segment] =>
    have hchild : r.child (Key.dotted [segment]) = r.descend (Key.filled [segment]) := by
      simp [Key.filled, Resource.descend, Key.dotted, joinTexts, joinWith]
    rw [hchild]
    cases hdescend : r.descend (Key.filled [segment]) with
    | none =>
      rw [show r.descend [segment] = none from hdescend]
    | some node => rfl
  | first :: second :: key =>
    cases hchild : r.child (Key.dotted (first :: second :: key)) with
    | none => rfl
    | some node => exact absurd (Key.dot_mem_dotted first second key) (h.child hchild).1

/-! ## The flat resource -/

/-- The entries of the flat resource are the texts that segments lead to, under the dotted form of the segments. -/
theorem Undotted.child_flat_eq_some_iff (h : r.Undotted) (htable : r.asText = none) {name : String} {node : Resource} :
    r.flat.child name = some node ↔
      ∃ key content, r.descend key = some (.text content) ∧ Key.dotted key = name ∧ node = .text content := by
  have hne {key : Key} {content : String} (hleaf : (key, content) ∈ r.leaves) : key ≠ [] :=
    ne_nil_of_descend htable ((mem_leaves_iff r).1 hleaf)
  have hundotted {key : Key} {content : String} (hleaf : (key, content) ∈ r.leaves) : key.Undotted :=
    h.descend ((mem_leaves_iff r).1 hleaf)
  rw [flat, ofList, Resource.child, Entries.lookup_ofList, Entries.lookup_eq_some_iff]
  · simp only [List.mem_reverse, List.mem_map, Prod.mk.injEq, Prod.exists, mem_leaves_iff]
    exact exists₂_congr fun key content => and_congr_right fun _ => and_congr_right fun _ => eq_comm
  · -- two leaves under one dotted key have the same key
    intro name v w hv hw
    simp only [List.mem_reverse, List.mem_map, Prod.mk.injEq, Prod.exists] at hv hw
    obtain ⟨key, content, hleaf, rfl, rfl⟩ := hv
    obtain ⟨key', content', hleaf', hdotted, rfl⟩ := hw
    obtain rfl := (Key.dotted_inj (hundotted hleaf') (hundotted hleaf) (hne hleaf') (hne hleaf)).1 hdotted
    rw [mem_leaves_iff] at hleaf hleaf'
    exact Option.some.inj (hleaf.symm.trans hleaf')

/-- The flat resource has one level, so a text is found under its dotted key or not at all. -/
theorem Undotted.bind_asText_lookup_flat (h : r.Undotted) (htable : r.asText = none) (key : Key) :
    (r.flat.lookup key).bind asText = (r.flat.child (Key.dotted key)).bind asText := by
  have hbelow {name : String} {node : Resource} (hchild : r.flat.child name = some node) (segment : String) :
      node.child segment = none := by
    obtain ⟨_, content, _, _, rfl⟩ := (h.child_flat_eq_some_iff htable).1 hchild
    rfl
  rw [lookup]
  cases hchild : r.flat.child (Key.dotted key) with
  | some node => rfl
  | none =>
    cases key with
    | nil => rfl
    | cons first rest =>
      cases rest with
      | nil =>
        have hfirst : r.flat.child first = none := by
          simpa [Key.dotted, joinTexts, joinWith] using hchild
        simp [Resource.descend, hfirst]
      | cons second rest =>
        cases hfirst : r.flat.child first with
        | none => simp [Resource.descend, hfirst]
        | some node => simp [Resource.descend, hfirst, hbelow hfirst]

/-- A key without dotted segments finds the same text in a table and in its flat form, if no name in the table holds
a dot. -/
theorem Undotted.asText_lookup_flat (h : r.Undotted) (htable : r.asText = none) {key : Key} (hkey : key.Undotted) :
    (r.flat.lookup key).bind asText = (r.lookup key).bind asText := by
  refine Option.ext fun content => ?_
  rw [h.asText_lookup htable, h.bind_asText_lookup_flat htable, bind_asText_eq_some_iff, bind_asText_eq_some_iff,
    h.child_flat_eq_some_iff htable]
  constructor
  · rintro ⟨found, content', hdescend, hdotted, hcontent⟩
    obtain rfl := Resource.text.inj hcontent
    have hne : found ≠ [] := ne_nil_of_descend htable hdescend
    -- the dotted form tells the keys apart, as no segment holds a dot and none of the keys is empty
    rw [← Key.dotted_filled key, Key.dotted_inj (h.descend hdescend) hkey.filled hne key.filled_ne_nil] at hdotted
    rwa [← hdotted]
  · intro hdescend
    exact ⟨key.filled, content, hdescend, key.dotted_filled, rfl⟩

end Resource

end Phrasebook
