import Mathlib.Data.List.Basic
import Phrasebook.Localizer.Basic

/-!
# Markers of missing translations

The marker of a missing translation names the locales that were tried, the module and the key. Main statement:
`missingTranslation_unambiguous`. If the names of locales are not empty and hold no bar and no colon, and those of
modules hold no colon, then the marker says which locales, which module and which dotted key they were.
-/

namespace Phrasebook

section Joined

variable {sep : Char} {ps ps' : List (List Char)}

/-- Joined pieces hold nothing but the separator and what the pieces hold. -/
theorem mem_joinWith {c : Char} (h : c ∈ joinWith [sep] ps) : c = sep ∨ ∃ p ∈ ps, c ∈ p := by
  induction ps with
  | nil => cases h
  | cons p ps ih =>
    cases ps with
    | nil => exact .inr ⟨p, List.mem_singleton_self p, h⟩
    | cons q qs =>
      rw [joinWith, List.append_assoc, List.singleton_append] at h
      rcases List.mem_append.1 h with hp | hrest
      · exact .inr ⟨p, List.mem_cons_self, hp⟩
      · rcases List.mem_cons.1 hrest with hsep | hrest
        · exact .inl hsep
        · obtain hsep | ⟨r, hr, hc⟩ := ih hrest
          · exact .inl hsep
          · exact .inr ⟨r, List.mem_cons_of_mem p hr, hc⟩

/-- Pieces that are not empty are read off where they are joined, and the empty text is read as none. -/
theorem pieces_joinWith_of_ne_nil (h : ∀ p ∈ ps, p ≠ [] ∧ sep ∉ p) :
    (if joinWith [sep] ps = [] then [] else pieces sep (joinWith [sep] ps)) = ps := by
  by_cases hps : ps = []
  · subst hps
    rfl
  · have hpieces : pieces sep (joinWith [sep] ps) = ps := pieces_joinWith hps fun p hp => (h p hp).2
    -- the empty text would be read as one empty piece
    have hjoined : joinWith [sep] ps ≠ [] := by
      intro hempty
      rw [hempty] at hpieces
      have hmem : [] ∈ ps := by
        rw [← hpieces]
        exact List.mem_singleton_self []
      exact (h [] hmem).1 rfl
    rw [if_neg hjoined, hpieces]

/-- Parts that are not empty and lack the separator can be told from the joined text. -/
theorem joinWith_inj (h : ∀ p ∈ ps, p ≠ [] ∧ sep ∉ p) (h' : ∀ p ∈ ps', p ≠ [] ∧ sep ∉ p)
    (heq : joinWith [sep] ps = joinWith [sep] ps') : ps = ps' := by
  rw [← pieces_joinWith_of_ne_nil h, heq, pieces_joinWith_of_ne_nil h']

end Joined

/-- The name is not empty and holds neither the bar nor the colon of markers. -/
def Locale.IsPlain (locale : Locale) : Prop :=
  locale.name ≠ "" ∧ '|' ∉ locale.name.toList ∧ ':' ∉ locale.name.toList

instance (locale : Locale) : Decidable locale.IsPlain :=
  inferInstanceAs (Decidable (_ ∧ _ ∧ _))

variable {locales locales' : List Locale} {moduleId moduleId' : ModuleId} {key key' : Key}

/-- The characters of the marker: the locales between bars, the module and the key between colons. -/
theorem toList_missingTranslation (locales : List Locale) (moduleId : ModuleId) (key : Key) :
    (missingTranslation locales moduleId key).toList =
      joinWith ['|'] (locales.map (·.name.toList)) ++
        ':' :: (moduleId.name.toList ++ ':' :: (Key.dotted key).toList) := by
  simp [missingTranslation, joinTexts, Function.comp_def]

/-- No colon stands among plain locales. -/
theorem colon_not_mem_joined (h : ∀ locale ∈ locales, locale.IsPlain) :
    ':' ∉ joinWith ['|'] (locales.map (·.name.toList)) := by
  intro hmem
  obtain hbar | ⟨p, hp, hcolon⟩ := mem_joinWith hmem
  · exact absurd hbar (by decide)
  · obtain ⟨locale, hlocale, rfl⟩ := List.mem_map.1 hp
    exact (h locale hlocale).2.2 hcolon

/-- Plain locales can be told from the text in front of the first colon. -/
theorem locales_eq_of_joined_eq (h : ∀ locale ∈ locales, locale.IsPlain) (h' : ∀ locale ∈ locales', locale.IsPlain)
    (heq : joinWith ['|'] (locales.map (·.name.toList)) = joinWith ['|'] (locales'.map (·.name.toList))) :
    locales = locales' := by
  have hpieces {locales : List Locale} (h : ∀ locale ∈ locales, locale.IsPlain) :
      ∀ p ∈ locales.map (·.name.toList), p ≠ [] ∧ '|' ∉ p := by
    intro p hp
    obtain ⟨locale, hlocale, rfl⟩ := List.mem_map.1 hp
    exact ⟨mt String.toList_eq_nil_iff.1 (h locale hlocale).1, (h locale hlocale).2.1⟩
  have hinj : Function.Injective fun locale : Locale => locale.name.toList := by
    rintro ⟨name⟩ ⟨name'⟩ hname
    exact congrArg Locale.mk (String.toList_inj.1 hname)
  exact hinj.list_map (joinWith_inj (hpieces h) (hpieces h') heq)

/-- **The marker of a missing translation is unambiguous.** If no name of a locale is empty or holds a bar or a colon,
and no name of a module holds a colon, then two markers are the same exactly if their locales, their modules and their
dotted keys are. The keys themselves are the same if no segment of theirs holds a dot and neither is the key of one
empty segment. -/
theorem missingTranslation_unambiguous (hlocales : ∀ locale ∈ locales, locale.IsPlain)
    (hlocales' : ∀ locale ∈ locales', locale.IsPlain) (hmodule : ':' ∉ moduleId.name.toList)
    (hmodule' : ':' ∉ moduleId'.name.toList) :
    (missingTranslation locales moduleId key = missingTranslation locales' moduleId' key' ↔
      locales = locales' ∧ moduleId = moduleId' ∧ Key.dotted key = Key.dotted key') ∧
    (missingTranslation locales moduleId key = missingTranslation locales' moduleId' key' →
      key.Undotted → key ≠ [""] → key'.Undotted → key' ≠ [""] → key = key') := by
  have hparts : missingTranslation locales moduleId key = missingTranslation locales' moduleId' key' →
      locales = locales' ∧ moduleId = moduleId' ∧ Key.dotted key = Key.dotted key' := by
    intro heq
    have hchars := congrArg String.toList heq
    rw [toList_missingTranslation, toList_missingTranslation] at hchars
    obtain ⟨hjoined, hrest⟩ :=
      append_cons_inj_of_not_mem_left (colon_not_mem_joined hlocales) (colon_not_mem_joined hlocales') hchars
    -- the key may hold colons, as it stands behind the last one that counts
    obtain ⟨hname, hkey⟩ := append_cons_inj_of_not_mem_left hmodule hmodule' hrest
    refine ⟨locales_eq_of_joined_eq hlocales hlocales' hjoined, ?_, String.toList_inj.1 hkey⟩
    obtain ⟨name⟩ := moduleId
    exact congrArg ModuleId.mk (String.toList_inj.1 hname)
  refine ⟨⟨hparts, ?_⟩, ?_⟩
  · rintro ⟨rfl, rfl, hdotted⟩
    rw [missingTranslation, missingTranslation, hdotted]
  · intro heq hundotted hne hundotted' hne'
    rw [← Key.split_dotted hundotted hne, ← Key.split_dotted hundotted' hne', (hparts heq).2.2]

/-- Without locales the marker is another one than with two of them, and a key that holds the bar and the colon of
markers is read off its marker. -/
theorem missingTranslation_unambiguous_menu :
    let locales : List Locale := [⟨"en"⟩, ⟨"pt-BR"⟩]
    let menu : ModuleId := ⟨"menu"⟩
    let key : Key := ["file", "a|b:c"]
    (∀ locale ∈ locales, locale.IsPlain) ∧ ':' ∉ menu.name.toList ∧
      missingTranslation locales menu key ≠ missingTranslation [] menu key ∧
      missingTranslation locales menu (Key.split "file.a|b:c") = missingTranslation locales menu key ∧
      Key.split "file.a|b:c" = key := by
  intro locales menu key
  have hlocales : ∀ locale ∈ locales, locale.IsPlain := by decide
  have hnone : ∀ locale ∈ ([] : List Locale), locale.IsPlain := by decide
  have hmenu : ':' ∉ menu.name.toList := by decide
  have hundotted : key.Undotted := by
    unfold Key.Undotted
    decide
  have hmarker : missingTranslation locales menu (Key.split "file.a|b:c") = missingTranslation locales menu key := by
    decide
  have hdifferent : missingTranslation locales menu key = missingTranslation [] menu key ↔ _ :=
    (missingTranslation_unambiguous hlocales hnone hmenu hmenu).1
  have hsame := (missingTranslation_unambiguous hlocales hlocales hmenu hmenu).2 hmarker
  refine ⟨hlocales, hmenu, fun heq => ?_, hmarker,
    hsame (Key.undotted_split _) (by decide) hundotted (by decide)⟩
  exact absurd (hdifferent.1 heq).1 (by decide)

end Phrasebook
