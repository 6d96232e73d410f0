import Phrasebook.Text.Pieces

/-!
# Language tags

The names of languages with optional script, region and variants, such as `pt-BR` or `zh-Hant-TW`.
-/

namespace Phrasebook

/-- A language tag in its usual spelling. The undetermined language is empty. -/
structure LanguageTag where
  language : String
  script : Option String := none
  region : Option String := none
  variants : List String := []
  deriving DecidableEq, Repr

namespace LanguageTag

/-- The parts of a tag, between hyphens or underscores. -/
def subtags (text : String) : List (List Char) :=
  pieces '-' (text.toList.map fun c => if c = '_' then '-' else c)

/-- The language that a subtag names. -/
def language? (cs : List Char) : Option String :=
  let lower := cs.map Char.toLower
  if cs.all Char.isAlpha && (cs.length = 2 || cs.length = 3 || (5 ≤ cs.length && cs.length ≤ 8)) then
    some (if lower = ['u', 'n', 'd'] then "" else String.ofList lower)
  else none

/-- The script that a subtag names: four letters, the first one large. -/
def script? : List Char → Option String
  | c :: cs =>
    if (c :: cs).all Char.isAlpha && cs.length = 3 then
      some (String.ofList (c.toUpper :: cs.map Char.toLower))
    else none
  | [] => none

/-- The region that a subtag names: two letters or three digits. -/
def region? (cs : List Char) : Option String :=
  if (cs.length = 2 && cs.all Char.isAlpha) || (cs.length = 3 && cs.all Char.isDigit) then
    some (String.ofList (cs.map Char.toUpper))
  else none

/-- The variant that a subtag names: five to eight letters or digits, or four characters that begin with a
digit or are letters and digits. -/
def variant? : List Char → Option String
  | [] => none
  | c :: cs =>
    let text := String.ofList ((c :: cs).map Char.toLower)
    if (4 ≤ cs.length && cs.length ≤ 7 && (c :: cs).all Char.isAlphanum) ||
        (cs.length = 3 && (c :: cs).all (fun c => 0 < c.toNat && c.toNat < 128) &&
          (c.isDigit || cs.all Char.isAlphanum)) then
      some text
    else none

/-- Read variants only. -/
def withVariants? (tag : LanguageTag) (subtags : List (List Char)) : Option LanguageTag :=
  (subtags.mapM variant?).map fun variants => { tag with variants }

/-- Read an optional region and variants. -/
def withRegion? (tag : LanguageTag) : List (List Char) → Option LanguageTag
  | [] => some tag
  | subtag :: subtags =>
    match region? subtag with
    | some region => { tag with region := some region }.withVariants? subtags
    | none => tag.withVariants? (subtag :: subtags)

/-- Read a tag: a language, and in this order a script, a region and variants, each of which can be left
out. -/
def ofText? (text : String) : Option LanguageTag :=
  match subtags text with
  | [] => none
  | first :: rest =>
    match language? first with
    | none => none
    | some language =>
      let tag : LanguageTag := { language }
      match rest with
      | [] => some tag
      | subtag :: subtags =>
        match script? subtag with
        | some script => { tag with script := some script }.withRegion? subtags
        | none => tag.withRegion? rest

end LanguageTag

end Phrasebook
