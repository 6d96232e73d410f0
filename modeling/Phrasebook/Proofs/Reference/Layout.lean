import Mathlib
import Phrasebook.Proofs.Reference.Tree
import Phrasebook.Proofs.Resource.Flattening

/-!
# Nested and flat layouts

Resources can be written as nested tables or as one flat table of dotted keys. Markers name keys without dots in
their segments (`undotted_of_mem_references`), so the reference tree of a key is the same for both layouts. Main
statement: what a key without dotted segments reads to does not depend on the layout (`Library.read_flattened`).
-/

namespace Phrasebook

/-- The library with every resource flat. -/
def Library.flattened (library : Library) : Library :=
  { library with resource? := fun pair => (library.resource? pair).map Resource.flat }

/-- Every resource of the library is a table, and no name in it holds a dot. -/
structure Library.Undotted (library : Library) : Prop where
  undotted : ∀ {pair : Pair} {resource : Resource}, library.resource? pair = some resource → resource.Undotted
  table : ∀ {pair : Pair} {resource : Resource}, library.resource? pair = some resource → resource.asText = none

/-- The key of a marker is split at its dots, so none is left in its segments. -/
theorem Target.undotted_ofInner (inner : List Char) : (Target.ofInner inner).key.Undotted := by
  unfold Target.ofInner
  split
  · simp [Key.Undotted]
  · exact Key.undotted_split _
  · exact Key.undotted_split _

/-- The keys that markers refer to have no dots in their segments. -/
theorem undotted_of_mem_references {home : ModuleId} {pieces : List Piece} {address : Address}
    (h : address ∈ Piece.references home pieces) : address.key.Undotted := by
  obtain ⟨inner, rfl⟩ := Piece.exists_inner_of_mem_references h
  exact Target.undotted_ofInner inner

/-- A tree above a key without dotted segments depends only on the texts of such keys. -/
theorem ReferenceTree.Resolves.of_texts {library other : Library} {locale : Locale} {tree : ReferenceTree}
    (htexts : ∀ {pair key text}, Key.Undotted key → library.node? pair key = some (.text text) →
      other.node? pair key = some (.text text))
    (h : tree.Resolves library locale) (hroot : tree.root.key.Undotted) : tree.Resolves other locale := by
  induction h with
  | @node root text children found roots _ ih =>
    refine .node (htexts hroot found) roots fun child hchild => ih child hchild ?_
    exact undotted_of_mem_references (roots ▸ List.mem_map_of_mem hchild)

namespace Library

variable {library : Library}

/-- A text is found alike in a library and in the flattened one. -/
theorem asText_node?_flattened (h : library.Undotted) (pair : Pair) {key : Key} (hkey : key.Undotted) :
    (library.flattened.node? pair key).bind Resource.asText = (library.node? pair key).bind Resource.asText := by
  cases hresource : library.resource? pair with
  | none => simp [node?, flattened, hresource]
  | some resource =>
    simpa [node?, flattened, hresource] using (h.undotted hresource).asText_lookup_flat (h.table hresource) hkey

/-- **Both layouts read the same.** If every loaded resource is a table and no name in it holds a dot, a key without
dotted segments has the same text in the flat layout, at any depth, and the same one is found for it in every single
resource. The flat form of a resource has one entry for each text that segments lead to, under the dotted form of the
segments. -/
theorem read_flattened (library : Library) (h : library.Undotted) :
    (∀ pair key text, Key.Undotted key →
      ((library.flattened.read pair key).result = .ok text ↔ (library.read pair key).result = .ok text)) ∧
    ∀ pair resource, library.resource? pair = some resource →
      (∀ key, Key.Undotted key →
        (resource.flat.lookup key).bind Resource.asText = (resource.lookup key).bind Resource.asText) ∧
      ∀ name node, resource.flat.child name = some node ↔
        ∃ key content, resource.descend key = some (.text content) ∧ Key.dotted key = name ∧ node = .text content := by
  refine ⟨fun pair key text hkey => ?_, fun pair resource hresource => ⟨fun key hkey => ?_, fun name node => ?_⟩⟩
  · have htexts {pair : Pair} {key : Key} {text : String} (hkey : key.Undotted) :
        library.flattened.node? pair key = some (.text text) ↔ library.node? pair key = some (.text text) := by
      rw [← Resource.bind_asText_eq_some_iff, asText_node?_flattened h pair hkey, Resource.bind_asText_eq_some_iff]
    rw [result_read_eq_ok_iff, result_read_eq_ok_iff]
    -- one tree serves both layouts, as it depends on the texts of undotted keys only
    refine exists_congr fun tree => and_congr_left fun _ => ?_
    constructor
    · rintro ⟨hroot, hresolves⟩
      exact ⟨hroot, hresolves.of_texts (fun hkey => (htexts hkey).1) (hroot ▸ hkey)⟩
    · rintro ⟨hroot, hresolves⟩
      exact ⟨hroot, hresolves.of_texts (fun hkey => (htexts hkey).2) (hroot ▸ hkey)⟩
  · exact (h.undotted hresource).asText_lookup_flat (h.table hresource) hkey
  · exact (h.undotted hresource).child_flat_eq_some_iff (h.table hresource)

/-- Two modules in the nested layout: the text of one refers to a text of the other, and stays what it is when both
are flat. -/
theorem read_flattened_menu :
    let menu : Resource := .table [("menu", .table [("open", .text "Open <:shared:app.name/>")])]
    let shared : Resource := .table [("", .text "-"), ("app", .table [("name", .text "Notes")])]
    let library : Library :=
      { resource? := fun pair => some (if pair.moduleId = ⟨"menus"⟩ then menu else shared)
        notifies := fun _ => false
        maxDepth := 1 }
    let pair : Pair := ⟨⟨"en"⟩, ⟨"menus"⟩⟩
    library.Undotted ∧ Key.Undotted ["menu", "open"] ∧ library.resource? pair = some menu ∧
      (library.flattened.read pair ["menu", "open"]).result = .ok "Open Notes" ∧
      (menu.flat.lookup ["menu", "open"]).bind Resource.asText = some "Open <:shared:app.name/>" := by
  intro menu shared library pair
  have hmenu : menu.Undotted := .table (by simp) (by simpa using .table (by simp) (by simpa using .text _))
  have hshared : shared.Undotted := by
    refine .table (by simp) ?_
    simpa using ⟨.text "-", .table (by simp) (by simpa using .text "Notes")⟩
  have hlibrary : library.Undotted := by
    refine ⟨fun {pair resource} hresource => ?_, fun {pair resource} hresource => ?_⟩ <;>
      obtain rfl := Option.some.inj hresource
    · split
      · exact hmenu
      · exact hshared
    · split <;> rfl
  have hkey : Key.Undotted ["menu", "open"] := by simp [Key.Undotted]
  have hread : (library.read pair ["menu", "open"]).result = .ok "Open Notes" := by cbv
  have hfound : (menu.lookup ["menu", "open"]).bind Resource.asText = some "Open <:shared:app.name/>" := by cbv
  obtain ⟨hreads, hlookups⟩ := read_flattened library hlibrary
  refine ⟨hlibrary, hkey, rfl, (hreads pair _ _ hkey).2 hread, ?_⟩
  rw [(hlookups pair menu rfl).1 _ hkey, hfound]

end Library

end Phrasebook
