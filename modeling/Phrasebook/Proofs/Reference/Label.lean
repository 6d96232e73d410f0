import Phrasebook.Proofs.Reference.Tree

/-!
# Labels of addresses

Error chains write an address as its module and its dotted key, with a colon between them. Main statement: addresses
that markers can name are known by their labels (`Address.Named.eq_of_label_eq`), since their keys hold no colon.
-/

namespace Phrasebook

/-- The address as error chains write it. -/
def Address.label (address : Address) : String :=
  addressLabel address.moduleId address.key

/-- The address is one that a marker can name: its key is written without a colon. -/
def Address.Named (address : Address) : Prop :=
  ∃ text : List Char, ':' ∉ text ∧ address.key = Key.split (String.ofList text)

/-- The address a marker points to has a label that can be read back. -/
theorem Target.named_address (home : ModuleId) (inner : List Char) : ((Target.ofInner inner).address home).Named := by
  -- the key is the last piece between colons, so no colon is in it
  have hpiece {piece : List Char} {before : List (List Char)} (h : (pieces ':' inner).reverse = piece :: before) :
      ':' ∉ piece := by
    have hmem : piece ∈ (pieces ':' inner).reverse := h ▸ List.mem_cons_self
    exact not_mem_of_mem_pieces (List.mem_reverse.1 hmem)
  unfold Target.ofInner
  split
  · exact ⟨[], by simp, rfl⟩
  · exact ⟨_, hpiece ‹_›, rfl⟩
  · exact ⟨_, hpiece ‹_›, rfl⟩

/-- Markers refer to addresses that they can name. -/
theorem named_of_mem_references {home : ModuleId} {pieces : List Piece} {address : Address}
    (h : address ∈ Piece.references home pieces) : address.Named := by
  obtain ⟨inner, rfl⟩ := Piece.exists_inner_of_mem_references h
  exact Target.named_address home inner

/-- Addresses that markers can name are known by their labels. -/
theorem Address.Named.eq_of_label_eq {address other : Address} (h : address.Named) (hother : other.Named)
    (hlabel : address.label = other.label) : address = other := by
  obtain ⟨⟨name⟩, key⟩ := address
  obtain ⟨⟨name'⟩, key'⟩ := other
  obtain ⟨text, htext, rfl⟩ := h
  obtain ⟨text', htext', rfl⟩ := hother
  have hchars : name.toList ++ ':' :: text = name'.toList ++ ':' :: text' := by
    simpa [label, addressLabel, Key.dotted_split] using congrArg String.toList hlabel
  obtain ⟨hname, rfl⟩ := append_cons_inj_of_not_mem_right htext htext' hchars
  rw [String.toList_inj.1 hname]

end Phrasebook
