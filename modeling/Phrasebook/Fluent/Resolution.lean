import Phrasebook.Fluent.Value
import Phrasebook.Text.Quoted

/-!
# Resolving Fluent patterns

A pattern is resolved to a text for given arguments. Faults are collected on the way, and resolution goes
on after a fault, so one pattern can report several. There are no terms and no functions to refer to, and
the only message is the one that the pattern belongs to.
-/

namespace Phrasebook.Fluent

/-- What is wrong with a pattern for the given arguments. -/
inductive Fault where
  | unknownVariable (name : String)
  | unknownMessage (name : String) (part : Option String)
  | unknownTerm (name : String) (part : Option String)
  | unknownFunction (name : String)
  /-- The message has attributes only. -/
  | noValue (name : String)
  /-- No variant meets the selector, and none is the default. -/
  | noDefault
  /-- The pattern refers to itself. -/
  | cyclic
  | tooManyPlaceables
  deriving DecidableEq, Repr

/-- The account of an optional name. -/
def Fault.accountOfPart : Option String → String
  | none => "None"
  | some part => "Some(" ++ Quoted.text part ++ ")"

/-- The account of a reference that leads nowhere. -/
def Fault.accountOfReference (kind : String) (fields : List (String × String)) : String :=
  "Reference(" ++ kind ++ " \x7b " ++ joinTexts ", " (fields.map fun (n, v) => n ++ ": " ++ v) ++ " \x7d)"

/-- The account of a fault. -/
def Fault.account (fault : Fault) : String :=
  let cause := match fault with
    | .unknownVariable name => accountOfReference "Variable" [("id", Quoted.text name)]
    | .unknownMessage name part =>
      accountOfReference "Message" [("id", Quoted.text name), ("attribute", accountOfPart part)]
    | .unknownTerm name part =>
      accountOfReference "Term" [("id", Quoted.text name), ("attribute", accountOfPart part)]
    | .unknownFunction name => accountOfReference "Function" [("id", Quoted.text name)]
    | .noValue name => "NoValue(" ++ Quoted.text name ++ ")"
    | .noDefault => "MissingDefault"
    | .cyclic => "Cyclic"
    | .tooManyPlaceables => "TooManyPlaceables"
  "ResolverError(" ++ cause ++ ")"

/-- How many placeables one resolution may meet. -/
def maxPlaceables : Nat := 100

/-- What a resolution depends on. -/
structure Environment where
  args : Option Args
  rule : Plural.Rule
  /-- The name of the message that the pattern belongs to. -/
  self : String
  message : Message

/-- The state of a resolution. -/
structure Scope where
  placeables : Nat := 0
  /-- Whether there were too many placeables; then nothing more is written. -/
  exhausted : Bool := false
  /-- The patterns that are being resolved, the innermost one first. -/
  travelled : List Pattern := []
  faults : List Fault := []

/-- Add a fault. -/
def Scope.report (scope : Scope) (fault : Fault) : Scope :=
  { scope with faults := scope.faults ++ [fault] }

/-- The faults that a reference to a message or to one of its attributes leads to, or its pattern. -/
def Environment.refer (env : Environment) (name : String) (part : Option String) : Except Fault Pattern :=
  if name ≠ env.self then .error (.unknownMessage name part)
  else
    match part with
    | none =>
      match env.message.value with
      | some pattern => .ok pattern
      | none => .error (.noValue name)
    | some part' =>
      match env.message.attributes.lookup part' with
      | some pattern => .ok pattern
      | none => .error (.unknownMessage name part)

section

variable (env : Environment) (follow : Pattern → Scope → String × Scope)

/-- Write a referred message, unless that leads back to a pattern that is being resolved. -/
def writeMessage (name : String) (part : Option String) (scope : Scope) : String × Scope :=
  match env.refer name part with
  | .error fault => ("", scope.report fault)
  | .ok pattern =>
    if scope.travelled.contains pattern then ("", scope.report .cyclic)
    else
      let written := follow pattern { scope with travelled := pattern :: scope.travelled }
      (written.1, { written.2 with travelled := scope.travelled })

/-- The value of a variable. -/
def variableValue (name : String) (scope : Scope) : Value × Scope :=
  match env.args.bind fun args => args.get? name with
  | some arg => (.ofArg arg, scope)
  | none => (.missing, scope.report (.unknownVariable name))

mutual

/-- Write the elements of a pattern; `whole` is the pattern that they belong to. -/
def writeElements (whole : Pattern) : List Element → Scope → String × Scope
  | [], scope => ("", scope)
  | element :: elements, scope =>
    if scope.exhausted then ("", scope)
    else
      let written := writeElement whole element scope
      let rest := writeElements whole elements written.2
      (written.1 ++ rest.1, rest.2)

/-- Write an element. -/
def writeElement (whole : Pattern) : Element → Scope → String × Scope
  | .text content, scope => (content, scope)
  | .placeable expression, scope =>
    if maxPlaceables ≤ scope.placeables then
      ("", { scope with placeables := scope.placeables + 1, exhausted := true }.report .tooManyPlaceables)
    else
      let travelled := if scope.travelled.isEmpty then [whole] else scope.travelled
      writeExpression expression { scope with placeables := scope.placeables + 1, travelled }

/-- Write an expression. -/
def writeExpression : Expression → Scope → String × Scope
  | .inline operand, scope => writeOperand operand scope
  | .select selector variants, scope =>
    let selected := operandValue selector scope
    match writeMeeting selected.1 variants selected.2 with
    | some written => written
    | none =>
      match writeDefault variants selected.2 with
      | some written => written
      | none => ("", selected.2.report .noDefault)

/-- Write the first variant that meets the selector. -/
def writeMeeting (selector : Value) : List Variant → Scope → Option (String × Scope)
  | [], _ => none
  | .mk key pattern _ :: variants, scope =>
    if key.value.meets env.rule selector then some (writeElements pattern pattern scope)
    else writeMeeting selector variants scope

/-- Write the first default variant. -/
def writeDefault : List Variant → Scope → Option (String × Scope)
  | [], _ => none
  | .mk _ pattern isDefault :: variants, scope =>
    if isDefault then some (writeElements pattern pattern scope) else writeDefault variants scope

/-- Write an operand. -/
def writeOperand : Operand → Scope → String × Scope
  | .string content, scope => (String.ofList (unescape content.toList), scope)
  | .number digits, scope => ((Value.ofDigits digits).display, scope)
  | .variable name, scope =>
    let value := variableValue env name scope
    (value.1.display, value.2)
  | .message name part, scope => writeMessage env follow name part scope
  | .term name part positional named, scope =>
    let scope := evaluateNamed named (evaluate positional scope)
    ("", scope.report (.unknownTerm name part))
  | .function name positional named, scope =>
    let scope := evaluateNamed named (evaluate positional scope)
    ("", scope.report (.unknownFunction name))
  | .placeable expression, scope => writeExpression expression scope

/-- The value of an operand. A function without a definition has none, and is no fault here. -/
def operandValue : Operand → Scope → Value × Scope
  | .number digits, scope => (.ofDigits digits, scope)
  | .variable name, scope => variableValue env name scope
  | .function _ positional named, scope => (.missing, evaluateNamed named (evaluate positional scope))
  | .string content, scope => (.text (String.ofList (unescape content.toList)), scope)
  | .message name part, scope =>
    let written := writeMessage env follow name part scope
    (.text written.1, written.2)
  | .term name part positional named, scope =>
    let scope := evaluateNamed named (evaluate positional scope)
    (.missing, scope.report (.unknownTerm name part))
  | .placeable expression, scope =>
    let written := writeExpression expression scope
    (.text written.1, written.2)

/-- Evaluate arguments for the faults in them. -/
def evaluate : List Operand → Scope → Scope
  | [], scope => scope
  | operand :: operands, scope => evaluate operands (operandValue operand scope).2

/-- Evaluate named arguments for the faults in them. -/
def evaluateNamed : List NamedOperand → Scope → Scope
  | [], scope => scope
  | .mk _ operand :: operands, scope => evaluateNamed operands (operandValue operand scope).2

end

end

/-- Write a pattern, following references to messages at most so many times in a row. -/
def writeWithin (env : Environment) : Nat → Pattern → Scope → String × Scope
  | 0, _, scope => ("", scope)
  | depth + 1, pattern, scope => writeElements env (writeWithin env depth) pattern pattern scope

/-- How many patterns can be underway at once: no pattern of the message is entered twice. -/
def Environment.maxDepth (env : Environment) : Nat :=
  env.message.attributes.length + 2

/-- Resolve a pattern: its text, and the faults in the order in which they were met. -/
def resolve (env : Environment) (pattern : Pattern) : String × List Fault :=
  let written := writeWithin env env.maxDepth pattern {}
  (written.1, written.2.faults)

end Phrasebook.Fluent
