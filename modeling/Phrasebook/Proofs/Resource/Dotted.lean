import Mathlib.Data.List.Basic
import Phrasebook.Resource.Basic

/-!
# Dotted keys and flat entries

Splitting a text at its dots and joining segments with dots undo each other, up to the keys that no text is split
into (`Key.split_dotted_eq_self_iff`). So the name of every entry of a table leads to that entry, whatever dots it has.
Main statement: `Resource.dotted_names_lead_to_entries`.
-/

namespace Phrasebook

namespace Key

/-- The keys that a text can be split into: no segment holds a dot, and the empty text has no segments. -/
theorem split_dotted_eq_self_iff {key : Key} : split (dotted key) = key ↔ key.Undotted ∧ key ≠ [""] := by
  constructor
  · intro heq
    constructor
    · rw [← heq]
      exact undotted_split (dotted key)
    · rintro rfl
      have hnone : split (dotted [""]) = [] := rfl
      rw [hnone] at heq
      cases heq
  · rintro ⟨hundotted, hne⟩
    exact split_dotted hundotted hne

end Key

namespace Resource

/-- The segments of a name lead to the entry with that name. -/
theorem lookup_split_of_child {r node : Resource} {name : String} (h : r.child name = some node) :
    r.lookup (Key.split name) = some node := by
  apply lookup_of_child
  rw [Key.dotted_split]
  exact h

/-- Every name of a table has an entry. -/
theorem exists_child_of_mem {entries : Entries Resource} {name : String} (h : name ∈ entries.map Prod.fst) :
    ∃ node, (name, node) ∈ entries ∧ (table entries).child name = some node := by
  obtain ⟨⟨n, v⟩, hmem, rfl⟩ := List.mem_map.1 h
  have hsome : (entries.lookup n).isSome = true :=
    List.lookup_isSome_iff.2 ⟨(n, v), hmem, beq_self_eq_true n⟩
  obtain ⟨node, hnode⟩ := Option.isSome_iff_exists.1 hsome
  obtain ⟨before, after, heq, -⟩ := List.lookup_eq_some_iff.1 hnode
  refine ⟨node, ?_, hnode⟩
  rw [heq]
  simp

/-- **Dotted names lead to their entries.** Joining the segments of a text with dots gives the text back, and no segment
holds a dot. Splitting the dotted form of a key gives the key back exactly if no segment of it holds a dot and it is not
the key of one empty segment. So the segments of the name of an entry lead to that very entry, even if the name is empty
or has dots at its ends or side by side. -/
theorem dotted_names_lead_to_entries :
    (∀ text, Key.dotted (Key.split text) = text ∧ ∀ segment ∈ Key.split text, '.' ∉ segment.toList) ∧
    (∀ key : Key, Key.split (Key.dotted key) = key ↔ (∀ segment ∈ key, '.' ∉ segment.toList) ∧ key ≠ [""]) ∧
    ∀ (entries : Entries Resource) (name : String), name ∈ entries.map Prod.fst →
      ∃ node, (name, node) ∈ entries ∧ (table entries).child name = some node ∧
        (table entries).lookup (Key.split name) = some node := by
  refine ⟨fun text => ⟨Key.dotted_split text, Key.undotted_split text⟩, fun key => Key.split_dotted_eq_self_iff, ?_⟩
  intro entries name hname
  obtain ⟨node, hmem, hchild⟩ := exists_child_of_mem hname
  exact ⟨node, hmem, hchild, lookup_split_of_child hchild⟩

/-- A name with dots at its ends and side by side is found, and not the entry that its segments lead to. -/
theorem dotted_names_lead_to_ellipsis :
    let entries : Entries Resource := [("", .table [("a", .table [("", .text "nested")])]), (".a..", .text "flat")]
    (∀ segment ∈ Key.split ".a..", '.' ∉ segment.toList) ∧ ".a.." ∈ entries.map Prod.fst ∧
      (table entries).lookup ["", "a", "", ""] = some (.text "flat") := by
  intro entries
  obtain ⟨hsplit, -, hentries⟩ := dotted_names_lead_to_entries
  have hname : ".a.." ∈ entries.map Prod.fst := by decide
  obtain ⟨node, -, hchild, hlookup⟩ := hentries entries ".a.." hname
  have hnode : (table entries).child ".a.." = some (.text "flat") := rfl
  obtain rfl := Option.some.inj (hchild.symm.trans hnode)
  exact ⟨(hsplit ".a..").2, hname, hlookup⟩

end Resource

end Phrasebook
