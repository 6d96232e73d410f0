import Phrasebook.Fluent.Reader
import Phrasebook.Fluent.Resolution
import Phrasebook.Plural.Cardinal
import Phrasebook.Template.Engine

/-!
# The Fluent engine

Texts are read as Fluent patterns, with plurals and selections. Every line after the first is indented
before it is read, so that all of them belong to the pattern.
-/

namespace Phrasebook.Fluent

/-- The name by which a text can refer to itself. -/
def messageName : String := "tolk-message"

/-- The text with every line after the first indented, and the last one ended. -/
def indented (raw : List Char) : List Char :=
  raw.flatMap (fun c => if c = '\n' then "\n    ".toList else [c]) ++ ['\n']

/-- The template of a message. -/
def template (rule : Plural.Rule) (key : Key) (message : Message) : Template := fun args =>
  match message.value with
  | none => .error (.parse key .noValue)
  | some pattern =>
    match resolve ⟨args, rule, messageName, message⟩ pattern with
    | (text, []) => .ok text
    | (_, faults) => .error (.format key (faults.map Fault.account))

/-- The engine for Fluent patterns. A blank text stands for itself; for every other one the locale has to
be a language tag. -/
def engine : Engine where
  compile pair key raw :=
    if isBlankText raw then .ok fun _ => .ok raw
    else
      match message? (indented raw.toList) with
      | none => .error (.parse key .malformed)
      | some message =>
        match LanguageTag.ofText? pair.locale.name with
        | none => .error (.invalidLocale pair.locale)
        | some tag => .ok (template (Plural.ruleOf tag) key message)

end Phrasebook.Fluent
