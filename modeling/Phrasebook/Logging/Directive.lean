import Phrasebook.Decimal.Numeral
import Phrasebook.Logging.Line
import Phrasebook.Text.Blank

/-!
# Log filters

A filter is a list of directives between commas. A directive is a level, or a target with optional spans
and an optional level behind `=`; without a level it lets everything pass. A filter with a directive that
cannot be read is replaced by the one for `info`.
-/

namespace Phrasebook

/-- The least important level that passes; `none` lets nothing pass. -/
abbrev Threshold := Option Level

/-- The place of a threshold, from the one that lets nothing pass on. -/
def thresholdRank : Threshold → Nat
  | none => 0
  | some level => level.rank

/-- What a directive says about levels. -/
structure Directive where
  threshold : Threshold
  /-- Whether spans are chosen by the value of a field. -/
  hasValue : Bool := false
  deriving DecidableEq, Repr

namespace Directive

/-- The threshold with the given number, from 0 for off to 5 for trace, or with the given name. -/
def threshold? (cs : List Char) : Option Threshold :=
  let digits := match cs with
    | '+' :: ds => ds
    | ds => ds
  match Decimal.natural? 10 digits with
  | some 0 => some none
  | some n => (Level.all.find? fun level => level.rank = n).map some
  | none =>
    let name := String.ofList (Decimal.lowerCase cs)
    if name = "off" then some none else (Level.all.find? fun level => level.name = name).map some

/-- A character that a target can begin with. -/
def beginsTarget (c : Char) : Bool :=
  c == '-' || c == ':' || c == '_' || c.isAlphanum || (0xAA ≤ c.toNat && !isBlank c)

/-- Read a level behind `=`; without characters it is the one that lets everything pass. -/
def level? (cs : List Char) : Option Threshold :=
  if cs = [] then some (some .trace) else threshold? cs

/-- Read what follows a closing bracket; `position` is where it ends in the whole text. -/
def afterSpan (text : List Char) (hasValue : Bool) : List Char → Nat → Option Directive
  | [], _ => some ⟨some .trace, hasValue⟩
  | '=' :: _, position => (level? (text.drop (position + 1))).map (⟨·, hasValue⟩)
  | _, _ => none

/-- Read a span after its opening bracket: a name, and fields in braces. -/
def span (text : List Char) (cs : List Char) (position : Nat) : Option Directive :=
  let name := cs.takeWhile fun c => c ≠ ']' && c ≠ '{'
  let position := position + name.length + 1
  match cs.drop name.length with
  | ']' :: rest => afterSpan text false rest position
  | '{' :: rest =>
    let field := rest.takeWhile (· ≠ '}')
    match rest.drop field.length with
    | '}' :: ']' :: after =>
      if field = [] then none else afterSpan text ('=' ∈ field) after (position + field.length + 2)
    | _ => none
  | _ => none

/-- Read a directive. Blanks around it are skipped where it is scanned, but count where a level is cut
out of it. -/
def ofChars? (text : List Char) : Option Directive :=
  match trim text with
  | [] => none
  | '[' :: cs => span text cs 1
  | c :: cs =>
    if !beginsTarget c then none
    else
      let target := c :: cs.takeWhile fun c => c ≠ '=' && c ≠ '['
      match (c :: cs).drop target.length with
      | [] => some ⟨(threshold? text).getD (some .trace), false⟩
      | '=' :: _ => (level? (text.drop (target.length + 1))).map (⟨·, false⟩)
      | _ :: rest => span text rest (target.length + 1)

/-- The directives of a filter. -/
def ofFilter? (filter : String) : Option (List Directive) :=
  ((pieces ',' filter.toList).filter (· ≠ [])).mapM ofChars?

/-- What directives let pass at most. -/
def ceiling (directives : List Directive) : Threshold :=
  if directives.any (·.hasValue) then some .trace
  else directives.foldl (fun best directive =>
    if thresholdRank best < thresholdRank directive.threshold then directive.threshold else best) none

end Directive

/-- What a filter lets pass at most. -/
def filterCeiling (filter : String) : Threshold :=
  match Directive.ofFilter? filter with
  | some directives => Directive.ceiling directives
  | none => some .info

end Phrasebook
