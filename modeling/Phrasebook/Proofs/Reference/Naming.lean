import Phrasebook.Proofs.Config.Breach
import Phrasebook.Proofs.Reference.Cutting

/-!
# Naming modules in markers

A marker names a module in front of the last colon of its inner text. Valid module names hold no colon, so the name is
read back as it was written, but they may hold the character that ends a marker; then the marker ends inside the name
and no module is named. Main statement: `marker_of_valid_module`.
-/

namespace Phrasebook

variable {name key inner : List Char}

/-- The last colon of an inner text ends the name of the module. -/
theorem Target.ofInner_of_colon (hname : ':' ∉ name) (hkey : ':' ∉ key) :
    Target.ofInner (name ++ ':' :: key) = ⟨some ⟨String.ofList name⟩, Key.split (String.ofList key)⟩ := by
  rw [Target.ofInner, pieces_append hname, pieces_of_not_mem hkey]
  rfl

/-- Without a colon no module is named. -/
theorem Target.moduleId_ofInner (h : ':' ∉ inner) : (Target.ofInner inner).moduleId = none := by
  rw [Target.ofInner, pieces_of_not_mem h]
  rfl

namespace Marker

/-- A marker that stands alone is found as a whole if and only if it is one. -/
theorem next?_source_iff : next? (Piece.marker inner).source = some ([], inner, []) ↔ IsInner inner := by
  constructor
  · exact isInner_of_next?
  · intro h
    have hclose : close? (inner ++ ['/', '>']) = some (inner, []) := close?_eq_some_iff.2 ⟨h, by simp⟩
    simp [Piece.source, next?, hclose]

/-- If the name of a module ends a marker, the text of a marker that names it holds no marker with a colon: there are
two colons in the text, so the inner text of such a marker would begin with the name. -/
theorem colon_not_mem_of_infix (hname : ':' ∉ name) (hkey : ':' ∉ key) (hend : '>' ∈ name) (hinner : IsInner inner)
    (h : (Piece.marker inner).source <:+: (Piece.marker (name ++ ':' :: key)).source) : ':' ∉ inner := by
  obtain ⟨before, after, heq⟩ := h
  simp only [Piece.source, List.append_assoc, List.cons_append, List.nil_append] at heq
  intro hcolon
  -- of the two colons one is the opener's and one is in the inner text
  have hnone : ':' ∉ before := by
    rw [← List.count_eq_zero]
    have hcounts := congrArg (List.count ':') heq
    have hpos := List.count_pos_iff.2 hcolon
    simp [List.count_append, List.count_eq_zero_of_not_mem hname, List.count_eq_zero_of_not_mem hkey] at hcounts
    omega
  -- without a colon in front, the marker begins with the text
  have hbefore : before = [] := by
    rcases before with _ | ⟨c, _ | ⟨d, before⟩⟩
    · rfl
    · simp at heq
    · obtain ⟨-, rfl, -⟩ := by simpa using heq
      simp at hnone
  subst hbefore
  have hrest : inner ++ '/' :: '>' :: after = name ++ ':' :: (key ++ ['/', '>']) := by simpa using heq
  rcases List.append_eq_append_iff.1 hrest with ⟨rest, rfl, -⟩ | ⟨rest, rfl, -⟩
  · exact hname (List.mem_append_left rest hcolon)
  · exact hinner.2 (List.mem_append_left rest hend)

end Marker

/-- **Which modules markers can name.** For every module of a valid configuration and every dotted key without a
colon and without the end of a marker, the inner text that names them is read as just that module and that key.
The marker with this inner text is found as a whole if and only if the end of a marker is not in the name of the
module; otherwise what is found first, if anything, names no module. -/
theorem Config.marker_of_valid_module {config : Config} (hvalid : config.validate = .ok ()) {name key : String}
    (hname : name ∈ config.modules) (hcolon : ':' ∉ key.toList) (hend : '>' ∉ key.toList) :
    let inner := (name ++ ":" ++ key).toList
    let text := ("<:" ++ name ++ ":" ++ key ++ "/>").toList
    Target.ofInner inner = ⟨some ⟨name⟩, Key.split key⟩ ∧
      (Marker.next? text = some ([], inner, []) ↔ '>' ∉ name.toList) ∧
      ('>' ∈ name.toList → ∀ before found after, Marker.next? text = some (before, found, after) →
        (Target.ofInner found).moduleId = none) := by
  intro inner text
  have hmodule : ':' ∉ name.toList := (Config.validate_eq_ok_iff.1 hvalid).2.1 name hname
  have hinner : inner = name.toList ++ ':' :: key.toList := by simp [inner]
  have htext : text = (Piece.marker inner).source := by simp [text, inner, Piece.source]
  refine ⟨?_, ?_, fun hmem before found after hfound => ?_⟩
  · rw [hinner, Target.ofInner_of_colon hmodule hcolon, String.ofList_toList, String.ofList_toList]
  · rw [htext, Marker.next?_source_iff, hinner]
    simp [Marker.IsInner, hend]
  · have hinfix : (Piece.marker found).source <:+: (Piece.marker (name.toList ++ ':' :: key.toList)).source := by
      rw [← hinner, ← htext]
      exact ⟨before, after, (Marker.eq_of_next? hfound).symm⟩
    exact Target.moduleId_ofInner
      (Marker.colon_not_mem_of_infix hmodule hcolon hmem (Marker.isInner_of_next? hfound) hinfix)

/-- A key of a menu can be named from other modules. -/
theorem Config.marker_of_menu :
    let config : Config := { modules := ["app", "menu"] }
    config.validate = .ok () ∧ "menu" ∈ config.modules ∧ ':' ∉ "file.open".toList ∧ '>' ∉ "file.open".toList ∧
      Target.ofInner "menu:file.open".toList = ⟨some ⟨"menu"⟩, ["file", "open"]⟩ ∧
      Marker.next? "<:menu:file.open/>".toList = some ([], "menu:file.open".toList, []) := by
  intro config
  have hvalid : config.validate = .ok () := by cbv
  have hname : "menu" ∈ config.modules := by decide
  have hcolon : ':' ∉ "file.open".toList := by decide
  have hend : '>' ∉ "file.open".toList := by decide
  obtain ⟨htarget, hfound, -⟩ := Config.marker_of_valid_module hvalid hname hcolon hend
  exact ⟨hvalid, hname, hcolon, hend, htarget.trans (by cbv), hfound.2 (by decide)⟩

/-- A valid configuration can have a module that no marker names, since the marker would end inside the name. -/
theorem Config.marker_ends_in_module :
    let config : Config := { locales := ["en"], modules := ["app", "a>b"] }
    config.validate = .ok () ∧ "a>b" ∈ config.modules ∧ Marker.next? "<:a>b:k/>".toList = none := by
  intro config
  exact ⟨by cbv, by decide, by cbv⟩

end Phrasebook
