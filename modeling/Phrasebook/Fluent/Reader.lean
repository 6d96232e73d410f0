import Phrasebook.Fluent.Pattern
import Phrasebook.Text.Blank

/-!
# Reading Fluent patterns

Readers take characters and give what they read together with the characters that follow; `none` is a
fault in the text. The number that the nested readers count down exceeds what they can nest, because each
of them takes a character or passes the number on to readers that do.
-/

namespace Phrasebook.Fluent

/-! ## Blanks -/

/-- Take spaces, and count them. -/
def skipSpaces (cs : List Char) : Nat × List Char :=
  ((cs.takeWhile (· = ' ')).length, cs.dropWhile (· = ' '))

/-- Take the end of a line. -/
def skipLineEnd? : List Char → Option (List Char)
  | '\n' :: cs => some cs
  | '\r' :: '\n' :: cs => some cs
  | _ => none

/-- Take lines that hold spaces only, at most `bound` of them. -/
def skipBlankLines : Nat → List Char → List Char
  | 0, cs => cs
  | bound + 1, cs =>
    match skipLineEnd? (skipSpaces cs).2 with
    | some rest => skipBlankLines bound rest
    | none => cs

/-- Take spaces and line ends. -/
def skipBlank : List Char → List Char
  | ' ' :: cs => skipBlank cs
  | '\n' :: cs => skipBlank cs
  | '\r' :: '\n' :: cs => skipBlank cs
  | cs => cs

/-- Take the given character. -/
def expect? (c : Char) : List Char → Option (List Char)
  | d :: cs => if d = c then some cs else none
  | [] => none

/-! ## Names, numbers and quoted texts -/

/-- A character inside a name. -/
def continuesName (c : Char) : Bool :=
  c.isAlphanum || c == '-' || c == '_'

/-- Read a name, which begins with a letter. -/
def name? : List Char → Option (String × List Char)
  | c :: cs =>
    if c.isAlpha then some (String.ofList (c :: cs.takeWhile continuesName), cs.dropWhile continuesName)
    else none
  | [] => none

/-- Read one or more digits. -/
def digits? (cs : List Char) : Option (List Char × List Char) :=
  match cs.takeWhile Char.isDigit with
  | [] => none
  | ds => some (ds, cs.dropWhile Char.isDigit)

/-- Read a number: digits with an optional sign and an optional fraction. -/
def number? (cs : List Char) : Option (String × List Char) := do
  let (sign, cs) := match cs with
    | '-' :: cs => (['-'], cs)
    | cs => ([], cs)
  let (whole, cs) ← digits? cs
  match cs with
  | '.' :: cs =>
    let (fraction, cs) ← digits? cs
    return (String.ofList (sign ++ whole ++ '.' :: fraction), cs)
  | cs => return (String.ofList (sign ++ whole), cs)

/-- A hexadecimal digit. -/
def isHexDigit (c : Char) : Bool :=
  c.isDigit || ('a' ≤ c && c ≤ 'f') || ('A' ≤ c && c ≤ 'F')

/-- Take so many hexadecimal digits. -/
def hexDigits? : Nat → List Char → Option (List Char × List Char)
  | 0, cs => some ([], cs)
  | n + 1, c :: cs => if isHexDigit c then (hexDigits? n cs).map fun (ds, rest) => (c :: ds, rest) else none
  | _ + 1, [] => none

/-- Read a quoted text after its opening quote, and keep its escapes. -/
def quoted? : List Char → Option (List Char × List Char)
  | [] => none
  | '"' :: cs => some ([], cs)
  | '\n' :: _ => none
  | '\\' :: '\\' :: cs => (quoted? cs).map fun (text, rest) => ('\\' :: '\\' :: text, rest)
  | '\\' :: '"' :: cs => (quoted? cs).map fun (text, rest) => ('\\' :: '"' :: text, rest)
  | '\\' :: 'u' :: a :: b :: c :: d :: cs =>
    if [a, b, c, d].all isHexDigit then
      (quoted? cs).map fun (text, rest) => ('\\' :: 'u' :: a :: b :: c :: d :: text, rest)
    else none
  | '\\' :: 'U' :: a :: b :: c :: d :: e :: f :: cs =>
    if [a, b, c, d, e, f].all isHexDigit then
      (quoted? cs).map fun (text, rest) => ('\\' :: 'U' :: a :: b :: c :: d :: e :: f :: text, rest)
    else none
  | '\\' :: _ => none
  | c :: cs => (quoted? cs).map fun (text, rest) => (c :: text, rest)

/-! ## Lines of a pattern -/

/-- A part of a pattern before the common indentation is taken away. -/
inductive RawElement where
  | placeable (expression : Expression) (atLineStart : Bool)
  /-- Text behind so many spaces, and whether it has a character that is no space. -/
  | text (content : List Char) (indent : Nat) (atLineStart : Bool) (solid : Bool)

/-- The indentation that an element sets a limit to. -/
def RawElement.limit? : RawElement → Option Nat
  | .placeable _ true => some 0
  | .text _ indent true true => some indent
  | _ => none

/-- Whether a pattern can end with an element. -/
def RawElement.isSolid : RawElement → Bool
  | .placeable .. => true
  | .text _ _ _ solid => solid

/-- The indentation that all lines have in common, if a line sets a limit. -/
def commonIndent (elements : List RawElement) : Option Nat :=
  (elements.filterMap RawElement.limit?).min?

/-- The element without the common indentation. -/
def RawElement.dedent (common : Option Nat) : RawElement → Element
  | .placeable expression _ => .placeable expression
  | .text content indent atLineStart _ =>
    let kept := if atLineStart then indent - (common.getD indent) else 0
    .text (String.ofList (List.replicate kept ' ' ++ content))

/-- Drop blanks from the end of a text that ends a pattern. -/
def trimEnd : Element → Element
  | .text content => .text (String.ofList (trimRight content.toList))
  | element => element

/-- Put the elements of a pattern together; a pattern without anything solid is none. -/
def assemble (elements : List RawElement) : Option Pattern :=
  let kept := (elements.reverse.dropWhile (!·.isSolid)).reverse
  match (kept.map (RawElement.dedent (commonIndent elements))).reverse with
  | [] => none
  | last :: before => some (trimEnd last :: before).reverse

/-- How a slice of text ends. -/
inductive SliceEnd where
  | lineEnd
  | placeable
  | textEnd
  deriving DecidableEq

/-- Read text up to the end of its line or to a placeable: its content, whether it has a character that is
no space, and how it ends. A carriage return before a line feed is left out of the content, and the line
feed is left for the next slice. A closing brace has no place in text. -/
def slice? (cs : List Char) : Option (List Char × Bool × SliceEnd × List Char) :=
  let text := cs.takeWhile fun c => c ≠ '\n' && c ≠ '{' && c ≠ '}'
  let solid (text : List Char) : Bool := text.any (· ≠ ' ')
  match cs.drop text.length with
  | [] => some (text, solid text, .textEnd, [])
  | '\n' :: rest =>
    if text.getLast? = some '\r' then
      some (text.dropLast, solid text.dropLast, .lineEnd, '\n' :: rest)
    else some (text ++ ['\n'], solid text, .lineEnd, rest)
  | '{' :: rest => some (text, solid text, .placeable, '{' :: rest)
  | _ => none

/-- Whether the line that begins here still belongs to the pattern. -/
def continuesPattern (indent : Nat) : List Char → Bool
  | [] => false
  | c :: _ =>
    if indent = 0 then c = '\r' || c = '\n'
    else !(c == '.' || c == '}' || c == '[' || c == '*')

/-- Names of functions are written in capitals. -/
def isFunctionName (name : String) : Bool :=
  name.toList.all fun c => c.isUpper || c.isDigit || c == '_' || c == '-'

/-! ## Nested readers -/

/-- Read the name of an attribute behind a point, if there is one. -/
def part? : List Char → Option (Option String × List Char)
  | '.' :: cs => (name? cs).map fun (name, rest) => (some name, rest)
  | cs => some (none, cs)

mutual

/-- Read the elements of a pattern. -/
def elements? : Nat → Bool → List Char → Option (List RawElement × List Char)
  | 0, _, _ => none
  | _ + 1, _, [] => some ([], [])
  | fuel + 1, atLineStart, '{' :: cs =>
    match placeable? fuel cs with
    | none => none
    | some (expression, rest) =>
      (elements? fuel false rest).map fun (elements, rest) =>
        (.placeable expression atLineStart :: elements, rest)
  | fuel + 1, atLineStart, cs =>
    let (indent, after) := if atLineStart then skipSpaces cs else (0, cs)
    if atLineStart && !continuesPattern indent after then
      some ([], if after = [] then [] else cs)
    else
      match slice? after with
      | none => none
      | some (content, solid, ending, rest) =>
        let element := RawElement.text content indent atLineStart solid
        let kept := content ≠ [] && (!atLineStart || solid || content.getLast? = some '\n')
        (elements? fuel (ending = .lineEnd) rest).map fun (elements, rest) =>
          (if kept then element :: elements else elements, rest)

/-- Read a pattern; it can be missing. -/
def pattern? : Nat → List Char → Option (Option Pattern × List Char)
  | 0, _ => none
  | fuel + 1, cs =>
    let cs := (skipSpaces cs).2
    let start := match skipLineEnd? cs with
      | some rest => elements? fuel true (skipBlankLines rest.length rest)
      | none => elements? fuel false cs
    start.map fun (elements, rest) => (assemble elements, rest)

/-- Read a placeable after its opening brace. -/
def placeable? : Nat → List Char → Option (Expression × List Char)
  | 0, _ => none
  | fuel + 1, cs =>
    match expression? fuel (skipBlank cs) with
    | none => none
    | some (expression, rest) => (expect? '}' (skipSpaces rest).2).map (expression, ·)

/-- Read an expression: an operand, or a selector with variants. An attribute of a term can only be
selected by. -/
def expression? : Nat → List Char → Option (Expression × List Char)
  | 0, _ => none
  | fuel + 1, cs =>
    match operand? fuel cs with
    | none => none
    | some (operand, rest) =>
      match skipBlank rest with
      | '-' :: '>' :: rest =>
        let selects := match operand with
          | .string _ | .number _ | .variable _ | .function .. => true
          | .term _ part _ _ => part.isSome
          | .message .. | .placeable _ => false
        if !selects then none
        else
          match skipLineEnd? (skipSpaces rest).2 with
          | none => none
          | some rest =>
            (variants? fuel false (skipBlank rest)).map fun (variants, rest) =>
              (.select operand variants, rest)
      | rest =>
        match operand with
        | .term _ (some _) _ _ => none
        | operand => some (.inline operand, rest)

/-- Read variants up to something that is none; one of them has to be marked as the default. -/
def variants? : Nat → Bool → List Char → Option (List Variant × List Char)
  | 0, _, _ => none
  | fuel + 1, hasDefault, cs =>
    let (marked, cs) := match cs with
      | '*' :: cs => (true, cs)
      | cs => (false, cs)
    if marked && hasDefault then none
    else
      let hasDefault := hasDefault || marked
      match cs with
      | '[' :: cs =>
        let key := match skipBlank cs with
          | c :: cs =>
            if c = '-' || c.isDigit then (number? (c :: cs)).map fun (ds, rest) => (VariantKey.number ds, rest)
            else (name? (c :: cs)).map fun (name, rest) => (VariantKey.name name, rest)
          | [] => none
        match key with
        | none => none
        | some (key, rest) =>
          match expect? ']' (skipBlank rest) with
          | none => none
          | some rest =>
            match pattern? fuel rest with
            | some (some value, rest) =>
              (variants? fuel hasDefault (skipBlank rest)).map fun (variants, rest) =>
                (.mk key value marked :: variants, rest)
            | _ => none
      | cs => if hasDefault then some ([], cs) else none

/-- Read an operand. -/
def operand? : Nat → List Char → Option (Operand × List Char)
  | 0, _ => none
  | _ + 1, [] => none
  | fuel + 1, c :: cs =>
    if c = '"' then (quoted? cs).map fun (text, rest) => (.string (String.ofList text), rest)
    else if c = '$' then (name? cs).map fun (name, rest) => (.variable name, rest)
    else if c = '{' then (placeable? fuel cs).map fun (expression, rest) => (.placeable expression, rest)
    else if c = '-' then
      match name? cs with
      | none => (number? (c :: cs)).map fun (ds, rest) => (.number ds, rest)
      | some (name, rest) =>
        match part? rest with
        | none => none
        | some (part, rest) =>
          (callArguments? fuel rest).map fun (args, rest) =>
            let (positional, named) := args.getD ([], [])
            (.term name part positional named, rest)
    else if c.isDigit then (number? (c :: cs)).map fun (ds, rest) => (.number ds, rest)
    else
      match name? (c :: cs) with
      | none => none
      | some (name, rest) =>
        match callArguments? fuel rest with
        | none => none
        | some (some (positional, named), rest) =>
          if isFunctionName name then some (.function name positional named, rest) else none
        | some (none, rest) => (part? rest).map fun (part, rest) => (.message name part, rest)

/-- Read arguments in parentheses, if there are any. -/
def callArguments? :
    Nat → List Char → Option (Option (List Operand × List NamedOperand) × List Char)
  | 0, _ => none
  | fuel + 1, cs =>
    match skipBlank cs with
    | '(' :: cs => (arguments? fuel [] (skipBlank cs)).map fun (args, rest) => (some args, rest)
    | cs => some (none, cs)

/-- Read arguments and the closing parenthesis, given the names used so far. Named arguments have different
names and come last, and begin with a quote, a digit or a letter; commas can be left out. -/
def arguments? :
    Nat → List String → List Char → Option ((List Operand × List NamedOperand) × List Char)
  | 0, _, _ => none
  | fuel + 1, names, cs =>
    let next (rest : List Char) : List Char :=
      match skipBlank rest with
      | ',' :: rest => skipBlank rest
      | rest => rest
    match cs with
    | ')' :: rest => some (([], []), rest)
    | cs =>
      match operand? fuel cs with
      | none => none
      | some (operand, rest) =>
        let label := match operand with
          | .message name none =>
            match skipBlank rest with
            | ':' :: rest => some (name, skipBlank rest)
            | _ => none
          | _ => none
        match label with
        | some (name, rest) =>
          if name ∈ names then none
          else
            let value :=
              match rest with
              | c :: _ => if c = '"' || c.isAlphanum then operand? fuel rest else none
              | [] => none
            match value with
            | none => none
            | some (value, rest) =>
              (arguments? fuel (name :: names) (next rest)).map fun ((positional, named), rest) =>
                ((positional, .mk name value :: named), rest)
        | none =>
          if names ≠ [] then none
          else
            (arguments? fuel names (next rest)).map fun ((positional, named), rest) =>
              ((operand :: positional, named), rest)

end

/-- Read attributes, each on a line of its own behind a point, up to something that is none. -/
def attributes (fuel : Nat) : Nat → List Char → List (String × Pattern) × List Char
  | 0, cs => ([], cs)
  | bound + 1, cs =>
    let entry := match (skipSpaces cs).2 with
      | '.' :: rest =>
        match name? rest with
        | none => none
        | some (name, rest) =>
          match expect? '=' (skipSpaces rest).2 with
          | none => none
          | some rest =>
            match pattern? fuel rest with
            | some (some value, rest) => some (name, value, rest)
            | _ => none
      | _ => none
    match entry with
    | none => ([], cs)
    | some (name, value, rest) =>
      let (more, rest) := attributes fuel bound rest
      ((name, value) :: more, rest)

/-- The message whose value begins a text and is followed by nothing but its attributes. -/
def message? (cs : List Char) : Option Message := do
  let fuel := 4 * cs.length + 8
  let (value, rest) ← pattern? fuel cs
  let (attributes, rest) := attributes fuel cs.length (skipBlankLines rest.length rest)
  if value.isNone && attributes.isEmpty then none
  else if skipBlankLines rest.length rest = [] then some ⟨value, attributes⟩ else none

end Phrasebook.Fluent
