import Mathlib.Data.List.Nodup
import Mathlib.Data.Prod.Lex
import Phrasebook.Config.Validation

/-!
# Breaches of a configuration

`Config.Breach` lists what can be wrong with a configuration, each breach at its place: the check that it belongs to,
and the place of the name in its list. A sequence of checks reports the first breach, and passes if there is none
(`Reports`); so does the validation of a configuration (`reports_validate`), and what passes it is described without
reference to the checks (`validate_eq_ok_iff`).
-/

namespace Phrasebook

/-- A check reports the first of the breaches that it looks for, and passes if there is none. -/
structure Reports {ι : Type} [LinearOrder ι] (result : Except Violation Unit) (Breaks : ι → Violation → Prop) :
    Prop where
  ok_iff : result = .ok () ↔ ∀ place violation, ¬ Breaks place violation
  error_iff : ∀ violation, result = .error violation ↔
    ∃ place, Breaks place violation ∧ ∀ other violation', Breaks other violation' → place ≤ other

namespace Reports

variable {ι κ : Type} [LinearOrder ι] [LinearOrder κ] {result rest : Except Violation Unit}
  {Breaks Breaks' : ι → Violation → Prop} {place : ι} {violation : Violation}

/-- A check passes where nothing can be wrong. -/
theorem of_none (h : ∀ place violation, ¬ Breaks place violation) : Reports (.ok ()) Breaks where
  ok_iff := ⟨fun _ => h, fun _ => rfl⟩
  error_iff violation := ⟨nofun, fun ⟨place, hbreaks, _⟩ => absurd hbreaks (h place violation)⟩

/-- A check may stop at a breach if no other one is at its place or before. -/
theorem of_first (hbreaks : Breaks place violation)
    (hfirst : ∀ other violation', Breaks other violation' → place ≤ other)
    (honly : ∀ violation', Breaks place violation' → violation' = violation) :
    Reports (.error violation) Breaks where
  ok_iff := ⟨nofun, fun hnone => absurd hbreaks (hnone place violation)⟩
  error_iff violation' := by
    constructor
    · intro heq
      obtain rfl := Except.error.inj heq
      exact ⟨place, hbreaks, hfirst⟩
    · rintro ⟨other, hother, hleast⟩
      obtain rfl := le_antisymm (hleast place violation hbreaks) (hfirst other violation' hother)
      rw [honly violation' hother]

/-- What is wrong may be said differently. -/
theorem congr (h : Reports result Breaks) (hiff : ∀ place violation, Breaks' place violation ↔ Breaks place violation) :
    Reports result Breaks' where
  ok_iff := by simp only [hiff, h.ok_iff]
  error_iff violation := by simp only [hiff, h.error_iff]

/-- The places of breaches can be renamed in order. -/
theorem map {f : ι → κ} (hf : StrictMono f) (h : Reports result Breaks) :
    Reports result fun place violation => ∃ old, place = f old ∧ Breaks old violation where
  ok_iff := by
    rw [h.ok_iff]
    constructor
    · rintro hnone _ violation ⟨old, rfl, hbreaks⟩
      exact hnone old violation hbreaks
    · intro hnone old violation hbreaks
      exact hnone (f old) violation ⟨old, rfl, hbreaks⟩
  error_iff violation := by
    rw [h.error_iff]
    constructor
    · rintro ⟨old, hbreaks, hfirst⟩
      refine ⟨f old, ⟨old, rfl, hbreaks⟩, ?_⟩
      rintro _ violation' ⟨other, rfl, hother⟩
      exact hf.monotone (hfirst other violation' hother)
    · rintro ⟨_, ⟨old, rfl, hbreaks⟩, hfirst⟩
      refine ⟨old, hbreaks, fun other violation' hother => ?_⟩
      exact hf.le_iff_le.1 (hfirst (f other) violation' ⟨other, rfl, hother⟩)

/-- Of two checks made one after the other the second one reports if the first one passes. -/
theorem andThen (h : Reports result Breaks) (hrest : Reports rest Breaks')
    (hbefore : ∀ {place violation other violation'}, Breaks place violation → Breaks' other violation' →
      place < other) :
    Reports (result >>= fun _ => rest) fun place violation => Breaks place violation ∨ Breaks' place violation := by
  cases result with
  | ok =>
    have hnone := h.ok_iff.1 rfl
    refine hrest.congr fun place violation => or_iff_right (hnone place violation)
  | error reported =>
    obtain ⟨first, hbreaks, hfirst⟩ := (h.error_iff reported).1 rfl
    refine of_first (.inl hbreaks) ?_ ?_
    · rintro other violation' (hother | hother)
      · exact hfirst other violation' hother
      · exact (hbefore hbreaks hother).le
    · rintro violation' (hother | hother)
      · have heq := (h.error_iff violation').2 ⟨first, hother, hfirst⟩
        exact (Except.error.inj heq).symm
      · -- the later check has no breach at the place of an earlier one
        exact absurd (hbefore hbreaks hother) (lt_irrefl first)

end Reports

/-- The number of the check of names among the checks. -/
def NameKind.check : NameKind → ℕ
  | .locale => 0
  | .moduleId => 1

namespace Config

/-- The names of a kind. -/
def names (config : Config) : NameKind → List String
  | .locale => config.locales
  | .moduleId => config.modules

/-- What is wrong with a configuration, and where: the number of the check, and the place of the name. -/
inductive Breach (config : Config) : ℕ ×ₗ ℕ → Violation → Prop
  | blank {kind : NameKind} {index : ℕ} {name : String} (hname : (config.names kind)[index]? = some name)
      (hblank : trim name.toList = []) : Breach config (toLex (kind.check, index)) (.blankName kind)
  | repeated {kind : NameKind} {earlier index : ℕ} {name : String} (hlt : earlier < index)
      (hearlier : (config.names kind)[earlier]? = some name) (hname : (config.names kind)[index]? = some name) :
      Breach config (toLex (kind.check, index)) (.repeatedName kind name)
  | colon {index : ℕ} {name : String} (hname : config.modules[index]? = some name) (hcolon : ':' ∈ name.toList) :
      Breach config (toLex (2, index)) (.colonInModule name)
  | noDepth (hdepth : config.templates.maxDepth = 0) : Breach config (toLex (3, 0)) .noDepth

/-! ## Names -/

/-- What is wrong with a list of names, and at which of them, after other names were seen. -/
inductive NameBreach (kind : NameKind) (seen names : List String) : ℕ → Violation → Prop
  | blank {index : ℕ} {name : String} (hname : names[index]? = some name) (hblank : trim name.toList = []) :
      NameBreach kind seen names index (.blankName kind)
  | seen {index : ℕ} {name : String} (hname : names[index]? = some name) (hseen : name ∈ seen) :
      NameBreach kind seen names index (.repeatedName kind name)
  | repeated {earlier index : ℕ} {name : String} (hlt : earlier < index) (hearlier : names[earlier]? = some name)
      (hname : names[index]? = some name) : NameBreach kind seen names index (.repeatedName kind name)

/-- Nothing is left of a name after trimming exactly if it is blank. -/
theorem trim_eq_nil_iff_isBlankText {name : String} : trim name.toList = [] ↔ isBlankText name = true := by
  rw [trim_eq_nil_iff, isBlankText, List.all_eq_true]

variable {kind : NameKind} {seen names : List String} {name : String} {index : ℕ} {violation : Violation}

/-- The first name is wrong if it is blank or was seen before. -/
theorem nameBreach_zero_iff :
    NameBreach kind seen (name :: names) 0 violation ↔
      trim name.toList = [] ∧ violation = .blankName kind ∨ name ∈ seen ∧ violation = .repeatedName kind name := by
  constructor
  · intro h
    cases h with
    | blank hname hblank =>
      obtain rfl := Option.some.inj hname
      exact .inl ⟨hblank, rfl⟩
    | seen hname hseen =>
      obtain rfl := Option.some.inj hname
      exact .inr ⟨hseen, rfl⟩
    | repeated hlt => exact absurd hlt (Nat.not_lt_zero _)
  · rintro (⟨hblank, rfl⟩ | ⟨hseen, rfl⟩)
    · exact .blank rfl hblank
    · exact .seen rfl hseen

/-- Behind the first name the breaches are those of the others after it was seen. -/
theorem nameBreach_succ_iff :
    NameBreach kind seen (name :: names) (index + 1) violation ↔
      NameBreach kind (name :: seen) names index violation := by
  constructor
  · intro h
    cases h with
    | blank hname hblank => exact .blank hname hblank
    | seen hname hseen => exact .seen hname (List.mem_cons_of_mem name hseen)
    | @repeated earlier _ _ hlt hearlier hname =>
      cases earlier with
      | zero =>
        obtain rfl := Option.some.inj hearlier
        exact .seen hname (List.mem_cons_self ..)
      | succ earlier => exact .repeated (Nat.lt_of_succ_lt_succ hlt) hearlier hname
  · intro h
    cases h with
    | blank hname hblank => exact .blank hname hblank
    | seen hname hseen =>
      rcases List.mem_cons.1 hseen with rfl | hseen
      · exact .repeated (Nat.succ_pos index) rfl hname
      · exact .seen hname hseen
    | repeated hlt hearlier hname => exact .repeated (Nat.succ_lt_succ hlt) hearlier hname

/-- Names are checked from left to right. No name that was seen is blank, since the check stops at a blank one. -/
theorem reports_checkNames (kind : NameKind) {seen : List String} (hseen : ∀ name ∈ seen, trim name.toList ≠ [])
    (names : List String) : Reports (checkNames kind seen names) (NameBreach kind seen names) := by
  induction names generalizing seen with
  | nil => exact .of_none fun index violation h => by cases h <;> simp at *
  | cons name names ih =>
    rw [checkNames]
    by_cases hblank : trim name.toList = []
    · rw [if_pos (trim_eq_nil_iff_isBlankText.1 hblank)]
      refine .of_first (nameBreach_zero_iff.2 (.inl ⟨hblank, rfl⟩)) (fun _ _ _ => Nat.zero_le _) fun violation h => ?_
      -- a blank name is reported as such, though it may stand there twice: a check that saw it before would have
      -- stopped
      rcases nameBreach_zero_iff.1 h with ⟨-, heq⟩ | ⟨hmem, -⟩
      · exact heq
      · exact absurd hblank (hseen name hmem)
    · rw [if_neg (mt trim_eq_nil_iff_isBlankText.2 hblank)]
      by_cases hmem : name ∈ seen
      · rw [if_pos hmem]
        refine .of_first (nameBreach_zero_iff.2 (.inr ⟨hmem, rfl⟩)) (fun _ _ _ => Nat.zero_le _) fun violation h => ?_
        rcases nameBreach_zero_iff.1 h with ⟨hblank', -⟩ | ⟨-, heq⟩
        · exact absurd hblank' hblank
        · exact heq
      · rw [if_neg hmem]
        have hrest := ih (List.forall_mem_cons.2 ⟨hblank, hseen⟩)
        refine (hrest.map (f := Nat.succ) fun _ _ => Nat.succ_lt_succ).congr fun index violation => ?_
        cases index with
        | zero => simp [nameBreach_zero_iff, hblank, hmem]
        | succ index => simp [nameBreach_succ_iff]

/-- The module names are checked for colons from left to right. -/
theorem reports_checkColons (modules : List String) :
    Reports (checkColons modules) fun (index : ℕ) violation =>
      ∃ name, modules[index]? = some name ∧ ':' ∈ name.toList ∧ violation = .colonInModule name := by
  induction modules with
  | nil => exact .of_none fun index violation h => by simp at h
  | cons name modules ih =>
    by_cases hcolon : ':' ∈ name.toList
    · have hcheck : checkColons (name :: modules) = .error (.colonInModule name) := by simp [checkColons, hcolon]
      rw [hcheck]
      refine .of_first ⟨name, rfl, hcolon, rfl⟩ (fun _ _ _ => Nat.zero_le _) ?_
      rintro violation ⟨name', hname, -, rfl⟩
      rw [Option.some.inj hname]
    · have hcheck : checkColons (name :: modules) = checkColons modules := by simp [checkColons, hcolon]
      rw [hcheck]
      refine (ih.map (f := Nat.succ) fun _ _ => Nat.succ_lt_succ).congr fun index violation => ?_
      cases index with
      | zero => simp [hcolon]
      | succ index => simp

/-! ## Whole configurations -/

/-- What is wrong with a configuration, check by check: its locales, its modules, colons in these, and the depth. -/
theorem breach_iff {config : Config} {place : ℕ ×ₗ ℕ} {violation : Violation} :
    Breach config place violation ↔
      (∃ index, place = toLex (0, index) ∧ NameBreach .locale [] config.locales index violation) ∨
      (∃ index, place = toLex (1, index) ∧ NameBreach .moduleId [] config.modules index violation) ∨
      (∃ index : ℕ, place = toLex (2, index) ∧
        ∃ name, config.modules[index]? = some name ∧ ':' ∈ name.toList ∧ violation = .colonInModule name) ∨
      ∃ index, place = toLex (3, index) ∧ index = 0 ∧ config.templates.maxDepth = 0 ∧ violation = .noDepth := by
  constructor
  · intro h
    cases h with
    | @blank kind index name hname hblank =>
      cases kind with
      | locale => exact .inl ⟨index, rfl, .blank hname hblank⟩
      | moduleId => exact .inr (.inl ⟨index, rfl, .blank hname hblank⟩)
    | @repeated kind earlier index name hlt hearlier hname =>
      cases kind with
      | locale => exact .inl ⟨index, rfl, .repeated hlt hearlier hname⟩
      | moduleId => exact .inr (.inl ⟨index, rfl, .repeated hlt hearlier hname⟩)
    | @colon index name hname hcolon => exact .inr (.inr (.inl ⟨index, rfl, name, hname, hcolon, rfl⟩))
    | noDepth hdepth => exact .inr (.inr (.inr ⟨0, rfl, rfl, hdepth, rfl⟩))
  · have hnames (kind : NameKind) {index : ℕ} (h : NameBreach kind [] (config.names kind) index violation) :
        Breach config (toLex (kind.check, index)) violation := by
      cases h with
      | blank hname hblank => exact .blank hname hblank
      | seen hname hseen => simp at hseen
      | repeated hlt hearlier hname => exact .repeated hlt hearlier hname
    rintro (⟨index, rfl, h⟩ | ⟨index, rfl, h⟩ | ⟨index, rfl, name, hname, hcolon, rfl⟩ | ⟨index, rfl, rfl, hdepth, rfl⟩)
    · exact hnames .locale h
    · exact hnames .moduleId h
    · exact .colon hname hcolon
    · exact .noDepth hdepth

/-- A configuration is reported by its first breach. -/
theorem reports_validate (config : Config) : Reports config.validate config.Breach := by
  -- places are ordered by their checks first, so each check may number its own breaches
  have hplaces (check : ℕ) : StrictMono fun index : ℕ => toLex (check, index) := fun _ _ h => Prod.Lex.right _ h
  have hbefore {check check' : ℕ} (h : check < check') (index index' : ℕ) :
      toLex (check, index) < toLex (check', index') := Prod.Lex.left _ _ h
  have hseen : ∀ name ∈ ([] : List String), trim name.toList ≠ [] := by simp
  have hdepth : Reports (if config.templates.maxDepth = 0 then .error .noDepth else pure ())
      fun index violation => index = 0 ∧ config.templates.maxDepth = 0 ∧ violation = .noDepth := by
    by_cases h : config.templates.maxDepth = 0
    · rw [if_pos h]
      exact .of_first ⟨rfl, h, rfl⟩ (fun _ _ _ => Nat.zero_le _) fun _ h' => h'.2.2
    · rw [if_neg h]
      exact .of_none fun _ _ h' => h h'.2.1
  have hlocales := (reports_checkNames .locale hseen config.locales).map (hplaces 0)
  have hmodules := (reports_checkNames .moduleId hseen config.modules).map (hplaces 1)
  have hcolons := (reports_checkColons config.modules).map (hplaces 2)
  have hlast := hcolons.andThen (hdepth.map (hplaces 3)) (by
    rintro _ _ _ _ ⟨index, rfl, -⟩ ⟨index', rfl, -⟩
    exact hbefore (by decide) index index')
  have hnames := hmodules.andThen hlast (by
    rintro _ _ _ _ ⟨index, rfl, -⟩ (⟨index', rfl, -⟩ | ⟨index', rfl, -⟩)
    · exact hbefore (by decide) index index'
    · exact hbefore (by decide) index index')
  have hall := hlocales.andThen hnames (by
    rintro _ _ _ _ ⟨index, rfl, -⟩ (⟨index', rfl, -⟩ | ⟨index', rfl, -⟩ | ⟨index', rfl, -⟩)
    · exact hbefore (by decide) index index'
    · exact hbefore (by decide) index index'
    · exact hbefore (by decide) index index')
  exact hall.congr fun place violation => breach_iff

/-- No name repeats exactly if none stands at two places. -/
theorem nodup_iff_getElem? {names : List String} :
    names.Nodup ↔ ∀ (earlier index : ℕ) (name : String), earlier < index → names[earlier]? = some name →
      names[index]? ≠ some name := by
  rw [List.nodup_iff_getElem?_ne_getElem?]
  constructor
  · intro h earlier index name hlt hearlier hname
    exact h earlier index hlt (List.getElem?_eq_some_iff.1 hname).1 (hearlier.trans hname.symm)
  · intro h earlier index hlt hlength heq
    have hname := List.getElem?_eq_getElem hlength
    exact h earlier index _ hlt (heq.trans hname) hname

/-- What passes the validation. -/
theorem validate_eq_ok_iff {config : Config} :
    config.validate = .ok () ↔
      (∀ kind, (∀ name ∈ config.names kind, trim name.toList ≠ []) ∧ (config.names kind).Nodup) ∧
      (∀ name ∈ config.modules, ':' ∉ name.toList) ∧ 1 ≤ config.templates.maxDepth := by
  rw [(reports_validate config).ok_iff]
  constructor
  · intro hnone
    refine ⟨fun kind => ⟨fun name hmem hblank => ?_, nodup_iff_getElem?.2 ?_⟩, fun name hmem hcolon => ?_, ?_⟩
    · obtain ⟨index, hname⟩ := List.mem_iff_getElem?.1 hmem
      exact hnone _ _ (.blank hname hblank)
    · intro earlier index name hlt hearlier hname
      exact hnone _ _ (.repeated hlt hearlier hname)
    · obtain ⟨index, hname⟩ := List.mem_iff_getElem?.1 hmem
      exact hnone _ _ (.colon hname hcolon)
    · exact Nat.one_le_iff_ne_zero.2 fun hdepth => hnone _ _ (.noDepth hdepth)
  · rintro ⟨hnames, hcolons, hdepth⟩ place violation h
    cases h with
    | @blank kind index name hname hblank => exact (hnames kind).1 name (List.mem_of_getElem? hname) hblank
    | @repeated kind earlier index name hlt hearlier hname =>
      exact nodup_iff_getElem?.1 (hnames kind).2 earlier index name hlt hearlier hname
    | @colon index name hname hcolon => exact hcolons name (List.mem_of_getElem? hname) hcolon
    | noDepth hzero => omega

end Config

end Phrasebook
