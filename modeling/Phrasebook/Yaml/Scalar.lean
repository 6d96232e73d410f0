import Phrasebook.Decimal.Numeral
import Phrasebook.Yaml.Cursor

/-!
# YAML scalars

Reading the content of plain, quoted and block scalars. Line ends inside a scalar are folded: a single one
becomes a space, and of several the first is dropped. The number that readers count down is more than the
characters that are left.
-/

namespace Phrasebook.Yaml

/-- How a scalar is written. -/
inductive Style where
  | plain
  | quoted
  | literal
  | folded
  deriving DecidableEq, Repr

/-- Blank space inside a scalar that may turn out to end it: blanks of one line, or line ends. -/
inductive Gap where
  | blanks (cs : List Char)
  | lines (first more : List Char)

/-- What a gap contributes to the content when the scalar goes on. -/
def Gap.content : Gap → List Char
  | .blanks cs => cs
  | .lines first more =>
    if first = ['\n'] then (if more = [] then [' '] else more) else first ++ more

/-- Whether a gap holds a line end. -/
def Gap.isLines : Gap → Bool
  | .blanks _ => false
  | .lines .. => true

/-- Read blanks and line ends behind a gap. Tabs left of `margin` are refused at the start of a line. -/
def readGap? (margin : Option Int) : Nat → Gap → Cursor → Option (Gap × Cursor)
  | 0, _, _ => none
  | fuel + 1, gap, cursor =>
    match cursor.rest with
    | [] => some (gap, cursor)
    | c :: _ =>
      if isBlankChar c then
        match gap with
        | .blanks cs => readGap? margin fuel (.blanks (cs ++ [c])) (cursor.skip 1)
        | .lines first more =>
          if c = '\t' && (margin.any fun margin => (cursor.column : Int) < margin) then none
          else readGap? margin fuel (.lines first more) (cursor.skip 1)
      else if isBreak c then
        let (ending, next) := cursor.readBreak
        match gap with
        | .blanks _ => readGap? margin fuel (.lines ending []) next
        | .lines first more => readGap? margin fuel (.lines first (more ++ ending)) next
      else some (gap, cursor)

/-! ## Plain scalars -/

/-- A character that ends a plain scalar inside brackets. -/
def endsFlowScalar (c : Char) : Bool :=
  c == ',' || c == '[' || c == ']' || c == '{' || c == '}'

/-- Read a plain scalar that must not be indented less than `margin`, except inside brackets: its content,
whether a line end follows, and what is left. -/
def plain? (inFlow : Bool) (margin : Int) :
    Nat → List Char → Gap → Bool → Cursor → Option (List Char × Bool × Cursor)
  | 0, _, _, _, _ => none
  | fuel + 1, text, gap, afterGap, cursor =>
    let done := some (text, gap.isLines, cursor)
    match cursor.rest with
    | [] => done
    | c :: _ =>
      if afterGap && (cursor.atDocumentIndicator || c = '#') then done
      else if isBlankChar c || isBreak c then
        match readGap? (some margin) (cursor.rest.length + 1) (.blanks []) cursor with
        | none => none
        | some (gap, next) =>
          if !inFlow && (next.column : Int) < margin then some (text, gap.isLines, next)
          else plain? inFlow margin fuel text gap true next
      else if inFlow && c = ':' && (cursor.peek? 1).any (fun d => endsFlowScalar d || d == '?') then none
      else if (c = ':' && cursor.blankAt 1) || (inFlow && endsFlowScalar c) then done
      else plain? inFlow margin fuel (text ++ gap.content ++ [c]) (.blanks []) false (cursor.skip 1)

/-! ## Quoted scalars -/

/-- The character of an escape of one letter. -/
def escaped? (c : Char) : Option Char :=
  [('0', 0x00), ('a', 0x07), ('b', 0x08), ('t', 0x09), ('\t', 0x09), ('n', 0x0A), ('v', 0x0B),
    ('f', 0x0C), ('r', 0x0D), ('e', 0x1B), (' ', 0x20), ('"', 0x22), ('/', 0x2F), ('\\', 0x5C),
    ('N', 0x85), ('_', 0xA0), ('L', 0x2028), ('P', 0x2029)].lookup c |>.map Char.ofNat

/-- How many digits follow the letter of an escape that gives a code point. -/
def escapeWidth? (c : Char) : Option Nat :=
  [('x', 2), ('u', 4), ('U', 8)].lookup c

/-- Read an escape after its backslash. -/
def escape? (cursor : Cursor) : Option (Char × Cursor) :=
  match cursor.rest with
  | [] => none
  | c :: cs =>
    match escapeWidth? c with
    | none => (escaped? c).map (·, cursor.skip 1)
    | some width =>
      let digits := cs.take width
      if digits.length < width then none
      else
        match Decimal.natural? 16 digits with
        | some code => if code.isValidChar then some (Char.ofNat code, cursor.skip (width + 1)) else none
        | none => none

/-- The apostrophe, which is the quote of texts without escapes. -/
def apostrophe : Char := Char.ofNat 39

/-- Read a quoted scalar after its opening quote. -/
def quoted? (quote : Char) : Nat → List Char → Bool → Cursor → Option (List Char × Cursor)
  | 0, _, _, _ => none
  | fuel + 1, text, afterGap, cursor =>
    if afterGap && cursor.atDocumentIndicator then none
    else
      match cursor.rest with
      | [] => none
      | c :: _ =>
        if c = quote then
          if c = apostrophe && cursor.peek? 1 = some apostrophe then
            quoted? quote fuel (text ++ [c]) false (cursor.skip 2)
          else some (text, cursor.skip 1)
        else if c = '\\' && quote ≠ apostrophe then
          if (cursor.peek? 1).any isBreak then
            let next := (cursor.skip 1).readBreak.2
            match readGap? none (cursor.rest.length + 1) (.lines [] []) next with
            | none => none
            | some (gap, next) => quoted? quote fuel (text ++ gap.content) true next
          else
            match escape? (cursor.skip 1) with
            | none => none
            | some (c, next) => quoted? quote fuel (text ++ [c]) false next
        else if isBlankChar c || isBreak c then
          match readGap? none (cursor.rest.length + 1) (.blanks []) cursor with
          | none => none
          | some (gap, next) => quoted? quote fuel (text ++ gap.content) true next
        else quoted? quote fuel (text ++ [c]) false (cursor.skip 1)

/-! ## Block scalars -/

/-- What happens to the line ends at the end of a block scalar. -/
inductive Chomping where
  | strip
  | clip
  | keep
  deriving DecidableEq

/-- The chomping that an indicator stands for. -/
def chomping? : Option Char → Option Chomping
  | some '+' => some .keep
  | some '-' => some .strip
  | _ => none

/-- The indentation that an indicator stands for; zero is no indicator, and a fault. -/
def increment? : Option Char → Option Nat
  | some c => if c.isDigit then some (c.toNat - 48) else none
  | none => none

/-- Read the indicators of a block scalar: chomping and indentation, in any order. -/
def indicators? (cursor : Cursor) : Option (Chomping × Option Nat × Cursor) :=
  let result (chomping : Chomping) (increment : Option Nat) (n : Nat) :
      Option (Chomping × Option Nat × Cursor) :=
    if increment = some 0 then none else some (chomping, increment, cursor.skip n)
  match chomping? (cursor.peek? 0), increment? (cursor.peek? 0) with
  | some chomping, _ =>
    match increment? (cursor.peek? 1) with
    | some n => result chomping (some n) 2
    | none => result chomping none 1
  | none, some n =>
    match chomping? (cursor.peek? 1) with
    | some chomping => result chomping (some n) 2
    | none => result .clip (some n) 1
  | none, none => result .clip none 0

/-- Read indentation and empty lines. The indentation is at most `limit` if that is known. Gives the line
ends, the widest indentation, and what is left. -/
def blockBreaks? (limit : Option Nat) :
    Nat → List Char → Nat → Cursor → Option (List Char × Nat × Cursor)
  | 0, _, _, _ => none
  | fuel + 1, breaks, widest, cursor =>
    let within (column : Nat) : Bool :=
      match limit with
      | some limit => column < limit
      | none => true
    let spaces := (cursor.rest.takeWhile (· = ' ')).length
    let taken := match limit with
      | some limit => min spaces (limit - cursor.column)
      | none => spaces
    let cursor := cursor.skip taken
    let widest := max widest cursor.column
    if within cursor.column && cursor.sees '\t' then none
    else
      match cursor.rest with
      | [] => some (breaks, widest, cursor)
      | c :: _ =>
        if isBreak c then
          let (ending, next) := cursor.readBreak
          blockBreaks? limit fuel (breaks ++ ending) widest next
        else some (breaks, widest, cursor)

/-- Read the lines of a block scalar with a known indentation. `ending` is the line end before the current
place, `more` are the line ends of empty lines behind it, and `indented` tells whether the line before began
with a blank. -/
def blockLines? (isLiteral : Bool) (indent : Nat) :
    Nat → List Char → List Char → List Char → Bool → Cursor →
      Option (List Char × List Char × List Char × Cursor)
  | 0, _, _, _, _, _ => none
  | fuel + 1, text, ending, more, indented, cursor =>
    match cursor.rest with
    | [] => some (text, ending, more, cursor)
    | c :: _ =>
      if cursor.column ≠ indent then some (text, ending, more, cursor)
      else
        let blank := isBlankChar c
        let joined :=
          if !isLiteral && ending = ['\n'] && !indented && !blank then
            if more = [] then [' '] else []
          else ending
        let (line, next) := cursor.readWhile (!isBreak ·)
        let (ending, next) := next.readBreak
        match blockBreaks? (some indent) (next.rest.length + 1) [] 0 next with
        | none => none
        | some (breaks, _, next) =>
          blockLines? isLiteral indent fuel (text ++ joined ++ more ++ line) ending breaks blank next

/-- Read a block scalar after its first character, inside a block of the given indentation. -/
def block? (isLiteral : Bool) (parent : Int) (cursor : Cursor) : Option (List Char × Cursor) := do
  let (chomping, increment, cursor) ← indicators? cursor
  let cursor := cursor.skipBlanks.skipComment
  if !cursor.atLineEnd then none
  else
    let start := cursor.readBreak.2
    let fuel := start.rest.length + 2
    let given := increment.map fun n => (max parent 0).toNat + n
    let (breaks, widest, cursor) ← blockBreaks? given fuel [] 0 start
    let indent := given.getD (max (max widest (parent + 1).toNat) 1)
    let (text, ending, more, cursor) ← blockLines? isLiteral indent fuel [] [] breaks false cursor
    let tail := match chomping with
      | .strip => []
      | .clip => ending
      | .keep => ending ++ more
    return (text ++ tail, cursor)

end Phrasebook.Yaml
