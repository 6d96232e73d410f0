import Phrasebook.Files.Location
import Phrasebook.Proofs.Config.Breach
import Phrasebook.Proofs.Files.Place

/-!
# Where resource files are

The names of a pair lead from the directory of the resources to the file of the pair (`Pair.fileNames`), and names are
not kept from leading out of it. Main statement: `resource_files_stay_below`, on when the files of a valid configuration
stay below the directory, and when they are different.
-/

namespace Phrasebook

/-! ## Files of pairs -/

/-- The names that lead from the directory of the resources to the file of a pair. -/
def Pair.fileNames (pair : Pair) (format : Format) : List String :=
  Path.names pair.locale.name ++ Path.names (pair.moduleId.name ++ "." ++ format.name)

/-- Neither name of the pair begins with a slash. -/
def Pair.IsRelative (pair : Pair) : Prop :=
  ¬ Path.IsAbsolute pair.locale.name ∧ ¬ Path.IsAbsolute pair.moduleId.name

instance (pair : Pair) : Decidable pair.IsRelative :=
  inferInstanceAs (Decidable (_ ∧ _))

/-- The configuration has the locale and the module of the pair. -/
def Config.Holds (config : Config) (pair : Pair) : Prop :=
  pair.locale.name ∈ config.locales ∧ pair.moduleId.name ∈ config.modules

instance (config : Config) (pair : Pair) : Decidable (config.Holds pair) :=
  inferInstanceAs (Decidable (_ ∧ _))

/-- The extension of a file holds no slash, and with its dot it is longer than a way back. -/
theorem Format.dotted_name (format : Format) : '/' ∉ ("." ++ format.name).toList ∧ 2 < ("." ++ format.name).length := by
  cases format <;> decide

variable {settings : ResourceSettings} {pair : Pair} {place : List String}

/-- The extension does not make a file name absolute. -/
theorem Pair.IsRelative.not_isAbsolute_file (h : pair.IsRelative) (format : Format) :
    ¬ Path.IsAbsolute (pair.moduleId.name ++ "." ++ format.name) := by
  have hmodule := h.2
  cases hname : pair.moduleId.name.toList with
  | nil => simp [Path.IsAbsolute, hname]
  | cons c cs => simpa [Path.IsAbsolute, hname] using hmodule

/-- Along the path of a pair come the names of the directory, and then its own. -/
theorem names_resourcePath (h : pair.IsRelative) :
    Path.names (resourcePath settings pair) = Path.names settings.dir ++ pair.fileNames settings.format := by
  rw [resourcePath, Path.names_join (h.not_isAbsolute_file settings.format), Path.names_join h.1, List.append_assoc,
    Pair.fileNames]

/-- Where the path of a pair leads is decided by the names of the pair alone. -/
theorem leadsTo_resourcePath_iff (h : pair.IsRelative) :
    Path.LeadsTo settings.dir (resourcePath settings pair) place ↔
      Path.descend? [] (pair.fileNames settings.format) = some place := by
  apply Path.leadsTo_iff
  · rw [resourcePath, Path.isAbsolute_join (h.not_isAbsolute_file settings.format), Path.isAbsolute_join h.1]
  · exact names_resourcePath h

/-- The last of the names is the one of a file, so names that do not lead out do not lead to the directory either. -/
theorem staysBelow_resourcePath_iff (h : pair.IsRelative) :
    Path.StaysBelow settings.dir (resourcePath settings pair) ↔ Path.NeverOut (pair.fileNames settings.format) := by
  obtain ⟨front, last, hfile, hlast⟩ :
      ∃ front last, pair.fileNames settings.format = front ++ [last] ∧ last ≠ ".." := by
    obtain ⟨hslash, hlong⟩ := settings.format.dotted_name
    obtain ⟨front, last, hnames, hlast⟩ := Path.exists_names_append hslash hlong
    refine ⟨Path.names pair.locale.name ++ front, last, ?_, hlast⟩
    rw [Pair.fileNames, String.append_assoc, hnames, List.append_assoc]
  have hsome := Path.isSome_descend?_iff [] (pair.fileNames settings.format)
  simp only [List.length_nil, Nat.zero_add] at hsome
  rw [Path.NeverOut, ← hsome, Option.isSome_iff_exists]
  constructor
  · rintro ⟨place, -, hplace⟩
    exact ⟨place, (leadsTo_resourcePath_iff h).1 hplace⟩
  · rintro ⟨place, hplace⟩
    refine ⟨place, ?_, (leadsTo_resourcePath_iff h).2 hplace⟩
    -- no way back follows the name of the file, so the place ends with it
    rw [hfile, Path.descend?_concat hlast] at hplace
    obtain ⟨above, -, rfl⟩ := Option.map_eq_some_iff.1 hplace
    simp

/-! ## Names without slashes -/

/-- Names without a slash do not begin with one. -/
theorem Pair.isRelative_of_not_mem (hlocale : '/' ∉ pair.locale.name.toList)
    (hmodule : '/' ∉ pair.moduleId.name.toList) : pair.IsRelative := by
  constructor
  · intro habsolute
    exact hlocale (List.mem_of_mem_head? habsolute)
  · intro habsolute
    exact hmodule (List.mem_of_mem_head? habsolute)

/-- A module without slashes names one file. -/
theorem Pair.fileNames_of_not_mem {format : Format} (hmodule : '/' ∉ pair.moduleId.name.toList) :
    pair.fileNames format = Path.names pair.locale.name ++ [pair.moduleId.name ++ "." ++ format.name] := by
  obtain ⟨hextension, hlong⟩ := format.dotted_name
  have hslash : '/' ∉ (pair.moduleId.name ++ ("." ++ format.name)).toList := by
    rw [String.toList_append]
    exact List.not_mem_append hmodule hextension
  have hname (short : String) (hshort : short.length ≤ 2) : pair.moduleId.name ++ ("." ++ format.name) ≠ short :=
    Path.append_ne_of_length_lt pair.moduleId.name (lt_of_le_of_lt hshort hlong)
  rw [fileNames, String.append_assoc, Path.names_of_not_mem hslash,
    if_neg (not_or.2 ⟨hname "" (by decide), hname "." (by decide)⟩)]

/-- Without slashes only a locale that is `..` could lead back. -/
theorem Pair.back_not_mem_fileNames {format : Format} (hlocale : '/' ∉ pair.locale.name.toList)
    (hmodule : '/' ∉ pair.moduleId.name.toList) (hback : pair.locale.name ≠ "..") : ".." ∉ pair.fileNames format := by
  rw [fileNames_of_not_mem hmodule, Path.names_of_not_mem hlocale, String.append_assoc]
  have hfile : pair.moduleId.name ++ ("." ++ format.name) ≠ ".." :=
    Path.append_ne_of_length_lt pair.moduleId.name format.dotted_name.2
  split_ifs
  · simpa using hfile.symm
  · simpa using ⟨hback.symm, hfile.symm⟩

/-- Pairs with names that are not empty and without slashes have different names for their files. -/
theorem Pair.eq_of_fileNames_eq {format : Format} {pair' : Pair} (hlocale : '/' ∉ pair.locale.name.toList)
    (hlocale' : '/' ∉ pair'.locale.name.toList) (hmodule : '/' ∉ pair.moduleId.name.toList)
    (hmodule' : '/' ∉ pair'.moduleId.name.toList) (hne : pair.locale.name ≠ "") (hne' : pair'.locale.name ≠ "")
    (h : pair.fileNames format = pair'.fileNames format) : pair = pair' := by
  rw [fileNames_of_not_mem hmodule, fileNames_of_not_mem hmodule'] at h
  obtain ⟨hlocales, hfiles⟩ := List.append_inj' h rfl
  rw [Path.names_of_not_mem hlocale, Path.names_of_not_mem hlocale'] at hlocales
  have hlocaleId : pair.locale.name = pair'.locale.name := by
    simp only [hne, hne', false_or] at hlocales
    split_ifs at hlocales with hdot hdot'
    · rw [hdot, hdot']
    · exact List.singleton_inj.1 hlocales
  have hmoduleId : pair.moduleId.name = pair'.moduleId.name := by
    simpa [String.append_assoc] using hfiles
  obtain ⟨⟨locale⟩, ⟨moduleId⟩⟩ := pair
  obtain ⟨⟨locale'⟩, ⟨moduleId'⟩⟩ := pair'
  obtain rfl : locale = locale' := hlocaleId
  obtain rfl : moduleId = moduleId' := hmoduleId
  rfl

/-- **Which resource files stay below the configured directory.** Take the pairs of a valid configuration whose names
do not begin with a slash. The path of such a pair is the directory's, with the names of the pair behind. It stays
strictly below the directory exactly if no beginning of these names has more ways back than names that lead forward.
What is found there is at the place below the directory that the names lead to, so two such pairs have different files
exactly if their names lead to different places. If no name holds a slash and no locale is a way back, the files of all
pairs stay strictly below, and all of them are different. -/
theorem resource_files_stay_below {config : Config} (hvalid : config.validate = .ok ()) :
    let dir := config.resources.dir
    let path := resourcePath config.resources
    (∀ pair, config.Holds pair → pair.IsRelative →
      Path.names (path pair) = Path.names dir ++ pair.fileNames config.resources.format ∧
      (Path.StaysBelow dir (path pair) ↔ Path.NeverOut (pair.fileNames config.resources.format)) ∧
      ∀ (files : FileTree) place found, Path.LeadsTo dir (path pair) place → files.find (path pair) = .ok found →
        ∃ base, files.walk [] (Path.names dir) = .ok base ∧ found = base ++ place) ∧
    (∀ pair pair', config.Holds pair → config.Holds pair' → pair.IsRelative → pair'.IsRelative →
      ∀ place place', Path.LeadsTo dir (path pair) place → Path.LeadsTo dir (path pair') place' →
      ∀ (files : FileTree) found found', files.find (path pair) = .ok found → files.find (path pair') = .ok found' →
        (found = found' ↔ place = place')) ∧
    ((∀ name ∈ config.locales, '/' ∉ name.toList ∧ name ≠ "..") → (∀ name ∈ config.modules, '/' ∉ name.toList) →
      ∀ pair, config.Holds pair → Path.StaysBelow dir (path pair) ∧
        ∀ pair' place, config.Holds pair' → Path.LeadsTo dir (path pair) place → Path.LeadsTo dir (path pair') place →
          pair = pair') := by
  intro dir path
  refine ⟨?_, ?_, ?_⟩
  · intro pair _ hrelative
    refine ⟨names_resourcePath hrelative, staysBelow_resourcePath_iff hrelative, ?_⟩
    intro files place found hplace hfound
    exact FileTree.eq_of_find hplace hfound
  · intro pair pair' _ _ _ _ place place' hplace hplace' files found found' hfound hfound'
    obtain ⟨base, hbase, rfl⟩ := FileTree.eq_of_find hplace hfound
    obtain ⟨base', hbase', rfl⟩ := FileTree.eq_of_find hplace' hfound'
    obtain rfl := Except.ok.inj (hbase.symm.trans hbase')
    exact List.append_right_inj base
  · intro hlocales hmodules
    -- then the names that a pair adds are a place themselves
    have hrelative {pair : Pair} (h : config.Holds pair) : pair.IsRelative :=
      Pair.isRelative_of_not_mem (hlocales _ h.1).1 (hmodules _ h.2)
    have hnonempty {name : String} (h : name ∈ config.locales) : name ≠ "" := by
      rintro rfl
      exact ((Config.validate_eq_ok_iff.1 hvalid).1 .locale).1 "" h rfl
    have hforward {pair : Pair} (h : config.Holds pair) : ".." ∉ pair.fileNames config.resources.format :=
      Pair.back_not_mem_fileNames (hlocales _ h.1).1 (hmodules _ h.2) (hlocales _ h.1).2
    intro pair hpair
    constructor
    · rw [staysBelow_resourcePath_iff (hrelative hpair)]
      exact Path.neverOut_of_not_mem (hforward hpair)
    · intro pair' place hpair' hplace hplace'
      rw [leadsTo_resourcePath_iff (hrelative hpair), Path.descend?_of_not_mem (hforward hpair)] at hplace
      rw [leadsTo_resourcePath_iff (hrelative hpair'), Path.descend?_of_not_mem (hforward hpair')] at hplace'
      have hnames : pair.fileNames config.resources.format = pair'.fileNames config.resources.format := by
        simpa using hplace.trans hplace'.symm
      exact Pair.eq_of_fileNames_eq (hlocales _ hpair.1).1 (hlocales _ hpair'.1).1 (hmodules _ hpair.2)
        (hmodules _ hpair'.2) (hnonempty hpair.1) (hnonempty hpair'.1) hnames

/-- A locale may lead back and forth again below the directory, and a module may be in a directory of its own. -/
theorem resource_files_of_shop_stay_below :
    let shop : Config := { locales := ["en", "pt/../de"], modules := ["app", "shop/cart"] }
    let app : Pair := ⟨⟨"en"⟩, ⟨"app"⟩⟩
    let cart : Pair := ⟨⟨"pt/../de"⟩, ⟨"shop/cart"⟩⟩
    let files : FileTree := .insertPath (.insertPath (.insertPath {} "locales/en/app.json" (.file .empty))
      "locales/de/shop/cart.json" (.file .empty)) "locales/pt" .directory
    let plain : Config := { locales := ["en", "de"], modules := ["app", "shop"] }
    (shop.validate = .ok () ∧ shop.Holds app ∧ shop.Holds cart ∧ app.IsRelative ∧ cart.IsRelative ∧
      Path.StaysBelow "locales" (resourcePath shop.resources cart) ∧
      (∃ base, files.walk [] (Path.names "locales") = .ok base ∧
        ["locales", "de", "shop", "cart.json"] = base ++ ["de", "shop", "cart.json"]) ∧
      ["locales", "en", "app.json"] ≠ ["locales", "de", "shop", "cart.json"]) ∧
    plain.validate = .ok () ∧ Path.StaysBelow "locales" (resourcePath plain.resources ⟨⟨"de"⟩, ⟨"shop"⟩⟩) := by
  intro shop app cart files plain
  have hshop : shop.validate = .ok () := rfl
  have hplain : plain.validate = .ok () := rfl
  have happ : shop.Holds app ∧ app.IsRelative := by decide
  have hcart : shop.Holds cart ∧ cart.IsRelative := by decide
  have happPlace : Path.LeadsTo "locales" (resourcePath shop.resources app) ["en", "app.json"] :=
    ⟨by decide, ["en", "app.json"], by decide, by decide⟩
  have hcartPlace : Path.LeadsTo "locales" (resourcePath shop.resources cart) ["de", "shop", "cart.json"] :=
    ⟨by decide, ["pt", "..", "de", "shop", "cart.json"], by decide, by decide⟩
  have happFound : files.find (resourcePath shop.resources app) = .ok ["locales", "en", "app.json"] := by decide
  have hcartFound :
      files.find (resourcePath shop.resources cart) = .ok ["locales", "de", "shop", "cart.json"] := by decide
  obtain ⟨hpairs, hapart, -⟩ := resource_files_stay_below hshop
  obtain ⟨-, hstays, hfound⟩ := hpairs cart hcart.1 hcart.2
  obtain ⟨-, -, hplainPairs⟩ := resource_files_stay_below hplain
  have hplainCart := hplainPairs (by decide) (by decide) ⟨⟨"de"⟩, ⟨"shop"⟩⟩ (by decide)
  have hdifferent :=
    hapart app cart happ.1 hcart.1 happ.2 hcart.2 _ _ happPlace hcartPlace files _ _ happFound hcartFound
  exact ⟨⟨hshop, happ.1, hcart.1, happ.2, hcart.2, hstays.2 (by decide), hfound files _ _ hcartPlace hcartFound,
    mt hdifferent.1 (by decide)⟩, hplain, hplainCart.1⟩

/-- Nothing in a valid configuration keeps a locale from leading out of the directory, by a way back or by a slash at
its beginning, nor the files of two pairs from being the same. -/
theorem resource_files_lead_out :
    let config : Config := { locales := ["en", "en/a", "..", "/etc"], modules := ["b", "a/b"] }
    let dir := config.resources.dir
    let path := resourcePath config.resources
    config.validate = .ok () ∧
      ¬ Path.StaysBelow dir (path ⟨⟨".."⟩, ⟨"b"⟩⟩) ∧ ¬ Path.StaysBelow dir (path ⟨⟨"/etc"⟩, ⟨"b"⟩⟩) ∧
      path ⟨⟨"en"⟩, ⟨"a/b"⟩⟩ = path ⟨⟨"en/a"⟩, ⟨"b"⟩⟩ := by
  intro config dir path
  refine ⟨rfl, ?_, ?_, by decide⟩
  · rw [staysBelow_resourcePath_iff (by decide)]
    decide
  · rintro ⟨place, -, habsolute, -⟩
    exact absurd (habsolute.1 (by decide)) (by decide)

end Phrasebook
