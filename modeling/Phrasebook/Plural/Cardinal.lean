import Phrasebook.LanguageTag
import Phrasebook.Plural.Rule

/-!
# Cardinal rules

The plural categories of counted things, by language. Each rule stands beside the languages that follow it.
-/

namespace Phrasebook.Plural

/-- The operand has one of the values. -/
def is (operand : Operand) (values : List Nat) : Relation :=
  ⟨operand, none, values.map fun v => (v, v), false⟩

/-- The operand has none of the values. -/
def isNot (operand : Operand) (values : List Nat) : Relation :=
  { is operand values with negated := true }

/-- The operand is within the range. -/
def within (operand : Operand) (low high : Nat) : Relation :=
  ⟨operand, none, [(low, high)], false⟩

/-- The relation about the remainder of its operand. -/
def Relation.mod (relation : Relation) (modulus : Nat) : Relation :=
  { relation with modulus := some modulus }

/-- The opposite of a relation. -/
def Relation.not (relation : Relation) : Relation :=
  { relation with negated := !relation.negated }

/-- No category but the general one. -/
def invariable : Rule := []

/-- One for a whole number that ends in the digit. -/
def endsIn (operand : Operand) (digit : Nat) (except : List Nat) : List Relation :=
  [(is operand [digit]).mod 10, (isNot operand except).mod 100]

/-- One for 0 and for what begins with it. -/
def oneUpToOne : Rule := [(.one, [[is .i [0]], [is .n [1]]])]

/-- One for whole parts 0 and 1. -/
def oneByWholePart : Rule := [(.one, [[is .i [0, 1]]])]

/-- One for 1 without places. -/
def oneWithoutPlaces : Rule := [(.one, [[is .i [1], is .v [0]]])]

/-- One for 1. -/
def oneExactly : Rule := [(.one, [[is .n [1]]])]

/-- One from 0 to 1. -/
def oneFromZero : Rule := [(.one, [[within .n 0 1]])]

/-- One and two. -/
def oneAndTwo : Rule := [(.one, [[is .n [1]]]), (.two, [[is .n [2]]])]

/-- The rule of Sinhala. -/
def sinhala : Rule := [(.one, [[is .n [0, 1]], [is .i [0], is .f [1]]])]

/-- The rule of Central Atlas Tamazight. -/
def tamazight : Rule := [(.one, [[within .n 0 1], [within .n 11 99]])]

/-- The rule of European Portuguese and its relatives is that of one without places; other Portuguese
counts by the whole part. -/
def portuguese : Rule := [(.one, [[within .i 0 1]])]

/-- The rule of Danish. -/
def danish : Rule := [(.one, [[is .n [1]], [isNot .t [0], is .i [0, 1]]])]

/-- The rule of Icelandic. -/
def icelandic : Rule := [(.one, [is .t [0] :: endsIn .i 1 [11], [isNot .t [0]]])]

/-- The rule of Macedonian. -/
def macedonian : Rule := [(.one, [is .v [0] :: endsIn .i 1 [11], endsIn .f 1 [11]])]

/-- The rule of Filipino and Cebuano. -/
def filipino : Rule :=
  [(.one, [[is .v [0], is .i [1, 2, 3]], [is .v [0], (isNot .i [4, 6, 9]).mod 10],
    [isNot .v [0], (isNot .f [4, 6, 9]).mod 10]])]

/-- The rule of Latvian and Prussian. -/
def latvian : Rule :=
  [(.one, [endsIn .n 1 [11], is .v [2] :: endsIn .f 1 [11], [isNot .v [2], (is .f [1]).mod 10]]),
    (.zero, [[(is .n [0]).mod 10], [(within .n 11 19).mod 100],
      [is .v [2], (within .f 11 19).mod 100]])]

/-- The rule of Langi. -/
def langi : Rule := [(.one, [[is .i [0, 1], isNot .n [0]]]), (.zero, [[is .n [0]]])]

/-- The rule of Colognian. -/
def colognian : Rule := [(.one, [[is .n [1]]]), (.zero, [[is .n [0]]])]

/-- The rule of Tachelhit. -/
def tachelhit : Rule := [(.few, [[within .n 2 10]]), (.one, [[is .i [0]], [is .n [1]]])]

/-- The rule of Romanian. -/
def romanian : Rule :=
  [(.few, [[isNot .v [0]], [is .n [0]], [(within .n 2 19).mod 100]]),
    (.one, [[is .i [1], is .v [0]]])]

/-- The rule of Serbian, Croatian and Bosnian. -/
def serbian : Rule :=
  [(.few, [[is .v [0], (within .i 2 4).mod 10, (within .i 12 14).mod 100 |>.not],
      [(within .f 2 4).mod 10, (within .f 12 14).mod 100 |>.not]]),
    (.one, [is .v [0] :: endsIn .i 1 [11], endsIn .f 1 [11]])]

/-- The rule of Scottish Gaelic. -/
def gaelic : Rule :=
  [(.few, [[within .n 3 10], [within .n 13 19]]), (.one, [[is .n [1, 11]]]),
    (.two, [[is .n [2, 12]]])]

/-- The rule of Slovenian. -/
def slovenian : Rule :=
  [(.few, [[is .v [0], (within .i 3 4).mod 100], [isNot .v [0]]]),
    (.one, [[is .v [0], (is .i [1]).mod 100]]), (.two, [[is .v [0], (is .i [2]).mod 100]])]

/-- The rule of the Sorbian languages. -/
def sorbian : Rule :=
  [(.few, [[is .v [0], (within .i 3 4).mod 100], [(within .f 3 4).mod 100]]),
    (.one, [[is .v [0], (is .i [1]).mod 100], [(is .f [1]).mod 100]]),
    (.two, [[is .v [0], (is .i [2]).mod 100], [(is .f [2]).mod 100]])]

/-- The rule of Hebrew. -/
def hebrew : Rule :=
  [(.many, [[is .v [0], (within .n 0 10).not, (is .n [0]).mod 10]]),
    (.one, [[is .i [1], is .v [0]]]), (.two, [[is .i [2], is .v [0]]])]

/-- The rule of Czech and Slovak. -/
def czech : Rule :=
  [(.few, [[within .i 2 4, is .v [0]]]), (.many, [[isNot .v [0]]]), (.one, [[is .i [1], is .v [0]]])]

/-- The rule of Polish. -/
def polish : Rule :=
  [(.few, [[is .v [0], (within .i 2 4).mod 10, (within .i 12 14).mod 100 |>.not]]),
    (.many, [[is .v [0], isNot .i [1], (within .i 0 1).mod 10], [is .v [0], (within .i 5 9).mod 10],
      [is .v [0], (within .i 12 14).mod 100]]),
    (.one, [[is .i [1], is .v [0]]])]

/-- The rule of Belarusian. -/
def belarusian : Rule :=
  [(.few, [[(within .n 2 4).mod 10, (within .n 12 14).mod 100 |>.not]]),
    (.many, [[(is .n [0]).mod 10], [(within .n 5 9).mod 10], [(within .n 11 14).mod 100]]),
    (.one, [endsIn .n 1 [11]])]

/-- The rule of Lithuanian. -/
def lithuanian : Rule :=
  [(.few, [[(within .n 2 9).mod 10, (within .n 11 19).mod 100 |>.not]]), (.many, [[isNot .f [0]]]),
    (.one, [[(is .n [1]).mod 10, (within .n 11 19).mod 100 |>.not]])]

/-- The rule of Maltese. -/
def maltese : Rule :=
  [(.few, [[is .n [0]], [(within .n 2 10).mod 100]]), (.many, [[(within .n 11 19).mod 100]]),
    (.one, [[is .n [1]]])]

/-- The rule of Russian and Ukrainian. -/
def russian : Rule :=
  [(.few, [[is .v [0], (within .i 2 4).mod 10, (within .i 12 14).mod 100 |>.not]]),
    (.many, [[is .v [0], (is .i [0]).mod 10], [is .v [0], (within .i 5 9).mod 10],
      [is .v [0], (within .i 11 14).mod 100]]),
    (.one, [is .v [0] :: endsIn .i 1 [11]])]

/-- The rule of Breton. -/
def breton : Rule :=
  [(.few, [[⟨.n, some 10, [(3, 4), (9, 9)], false⟩, ⟨.n, some 100, [(10, 19), (70, 79), (90, 99)], true⟩]]),
    (.many, [[isNot .n [0], (is .n [0]).mod 1000000]]), (.one, [endsIn .n 1 [11, 71, 91]]),
    (.two, [endsIn .n 2 [12, 72, 92]])]

/-- The rule of Irish. -/
def irish : Rule :=
  [(.few, [[within .n 3 6]]), (.many, [[within .n 7 10]]), (.one, [[is .n [1]]]), (.two, [[is .n [2]]])]

/-- The rule of Manx. -/
def manx : Rule :=
  [(.few, [[is .v [0], (is .i [0, 20, 40, 60, 80]).mod 100]]), (.many, [[isNot .v [0]]]),
    (.one, [[is .v [0], (is .i [1]).mod 10]]), (.two, [[is .v [0], (is .i [2]).mod 10]])]

/-- The rule of Cornish. -/
def cornish : Rule :=
  [(.few, [[(is .n [3, 23, 43, 63, 83]).mod 100]]),
    (.many, [[isNot .n [1], (is .n [1, 21, 41, 61, 81]).mod 100]]), (.one, [[is .n [1]]]),
    (.two, [[(is .n [2, 22, 42, 62, 82]).mod 100],
      [(is .n [0]).mod 1000,
        ⟨.n, some 100000, [(1000, 20000), (40000, 40000), (60000, 60000), (80000, 80000)], false⟩],
      [isNot .n [0], (is .n [100000]).mod 1000000]]),
    (.zero, [[is .n [0]]])]

/-- The rule of Arabic. -/
def arabic : Rule :=
  [(.few, [[(within .n 3 10).mod 100]]), (.many, [[(within .n 11 99).mod 100]]), (.one, [[is .n [1]]]),
    (.two, [[is .n [2]]]), (.zero, [[is .n [0]]])]

/-- The rule of Welsh. -/
def welsh : Rule :=
  [(.few, [[is .n [3]]]), (.many, [[is .n [6]]]), (.one, [[is .n [1]]]), (.two, [[is .n [2]]]),
    (.zero, [[is .n [0]]])]

/-- Rules with the languages that follow them, separated by spaces. -/
def groups : List (Rule × String) :=
  [(invariable, "bm bo dz id ig ii in ja jbo jv jw kde kea km ko lkt lo ms my nqo osa root sah ses sg su" ++
      " th to vi wo yo yue zh"),
    (oneUpToOne, "am as bn fa gu hi kn pcm zu"),
    (oneByWholePart, "ff fr hy kab"),
    (portuguese, "pt"),
    (oneWithoutPlaces, "ast ca de en et fi fy gl ia io it ji lij nl sc scn sv sw ur yi"),
    (sinhala, "si"),
    (oneFromZero, "ak bh guw ln mg nso pa ti wa"),
    (tamazight, "tzm"),
    (oneExactly, "af an asa az bem bez bg brx ce cgg chr ckb dv ee el eo es eu fo fur gsw ha haw hu jgo" ++
      " jmc ka kaj kcg kk kkj kl ks ksb ku ky lb lg mas mgo ml mn mr nah nb nd ne nn nnh no nr ny nyn om or" ++
      " os pap ps rm rof rwk saq sd sdh seh sn so sq ss ssy st syr ta te teo tig tk tn tr ts ug uz ve vo" ++
      " vun wae xh xog"),
    (danish, "da"),
    (icelandic, "is"),
    (macedonian, "mk"),
    (filipino, "ceb fil tl"),
    (latvian, "lv prg"),
    (langi, "lag"),
    (colognian, "ksh"),
    (oneAndTwo, "iu naq se sma smi smj smn sms"),
    (tachelhit, "shi"),
    (romanian, "mo ro"),
    (serbian, "bs hr sh sr"),
    (gaelic, "gd"),
    (slovenian, "sl"),
    (sorbian, "dsb hsb"),
    (hebrew, "he iw"),
    (czech, "cs sk"),
    (polish, "pl"),
    (belarusian, "be"),
    (lithuanian, "lt"),
    (maltese, "mt"),
    (russian, "ru uk"),
    (breton, "br"),
    (irish, "ga"),
    (manx, "gv"),
    (cornish, "kw"),
    (arabic, "ar ars"),
    (welsh, "cy")]

/-- The languages of a group. -/
def languages (group : String) : List String :=
  (pieces ' ' group.toList).map String.ofList

/-- The rule of a language; one that is not known follows the rule of English. -/
def ruleOf (tag : LanguageTag) : Rule :=
  if tag = { language := "pt", region := some "PT" } then oneWithoutPlaces
  else
    match groups.find? fun group => tag.language ∈ languages group.2 with
    | some group => group.1
    | none => oneWithoutPlaces

end Phrasebook.Plural
