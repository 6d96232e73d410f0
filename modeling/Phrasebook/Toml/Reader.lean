import Phrasebook.Toml.Text
import Phrasebook.Toml.Value

/-!
# Reading TOML

Readers give what they read and the characters that follow. The number that nested readers count down first
is more than the characters that are left; the second one limits how deep brackets and braces may be nested.
-/

namespace Phrasebook.Toml

/-! ## Keys -/

/-- How long the path of a key, and how deep a value, must not be. -/
def nestingLimit : Nat := 80

/-- A character of keys without quotes. -/
def isKeyChar (c : Char) : Bool := c.isAlphanum || c == '_' || c == '-'

/-- Read one name of a key. -/
def name? (cs : List Char) : Option (String × List Char) :=
  match cs.takeWhile isKeyChar with
  | [] => (shortText? cs).map fun (name, rest) => (String.ofList name, rest)
  | name => some (String.ofList name, cs.dropWhile isKeyChar)

/-- Read the names of a key with space around each. -/
def names? : Nat → List Char → Option (List String × List Char)
  | 0, _ => none
  | fuel + 1, cs =>
    match name? (skipSpace cs) with
    | none => none
    | some (name, rest) =>
      match skipSpace rest with
      | '.' :: rest => (names? fuel rest).map fun (names, rest) => (name :: names, rest)
      | rest => some ([name], rest)

/-- Read a key: the path to a table and the name in it. -/
def key? (cs : List Char) : Option (List String × String × List Char) := do
  let (names, rest) ← names? (cs.length + 1) cs
  if nestingLimit ≤ names.length then none
  match names.getLast? with
  | some name => return (names.dropLast, name, rest)
  | none => none

/-! ## Numbers -/

/-- Read digits, between which single underscores may stand. Gives them without the underscores. -/
def digits? (isDigit : Char → Bool) : List Char → Option (List Char × List Char)
  | [] => none
  | c :: cs =>
    if isDigit c then
      match cs with
      | '_' :: cs => (digits? isDigit cs).map (consText c)
      | d :: ds =>
        if isDigit d then (digits? isDigit (d :: ds)).map (consText c) else some ([c], d :: ds)
      | [] => some ([c], [])
    else none

/-- Split a sign off. -/
def sign : List Char → List Char × List Char
  | '+' :: cs => (['+'], cs)
  | '-' :: cs => (['-'], cs)
  | cs => ([], cs)

/-- Read a decimal number without a point; a zero in front stands alone. -/
def whole? (cs : List Char) : Option (List Char × List Char) :=
  let (sign, cs) := sign cs
  let read := match cs with
    | '0' :: rest => some (['0'], rest)
    | cs => digits? Char.isDigit cs
  read.map fun (digits, rest) => (sign ++ digits, rest)

/-- Read an exponent. -/
def exponent? : List Char → Option (List Char × List Char)
  | e :: cs =>
    if e = 'e' || e = 'E' then
      let (sign, cs) := sign cs
      (digits? Char.isDigit cs).map fun (digits, rest) => ('e' :: sign ++ digits, rest)
    else none
  | [] => none

/-- Read what a number has behind the digits in front if it is no whole number. -/
def fraction : List Char → Option (List Char × List Char)
  | '.' :: cs => do
    let (digits, rest) ← digits? Char.isDigit cs
    match exponent? rest with
    | some (exponent, rest) => return ('.' :: digits ++ exponent, rest)
    | none => return ('.' :: digits, rest)
  | cs => exponent? cs

/-- Whether a whole number fits 64 bits. -/
def isWord (n : Int) : Bool := Int64.minValue.toInt ≤ n && n ≤ Int64.maxValue.toInt

/-- Whether a number is not too large; there is no limit for negative ones. -/
def isBounded (digits : List Char) : Bool :=
  match Decimal.Numeral.ofChars? digits with
  | some n => n.negative || n.toFloat.isFinite
  | none => false

/-- Read a whole number in a radix after its mark. -/
def inRadix? (radix : Nat) (cs : List Char) : Option (Value × List Char) := do
  let (digits, rest) ← digits? (fun c => (Decimal.digitValue? radix c).isSome) cs
  let n ← Decimal.natural? radix digits
  if isWord n then return (.integer n, rest) else none

/-- Read a number. -/
def number? (cs : List Char) : Option (Value × List Char) :=
  match cs with
  | '0' :: 'x' :: rest => inRadix? 16 rest
  | '0' :: 'o' :: rest => inRadix? 8 rest
  | '0' :: 'b' :: rest => inRadix? 2 rest
  | cs =>
    match (sign cs).2 with
    | 'i' :: 'n' :: 'f' :: rest | 'n' :: 'a' :: 'n' :: rest => some (.float, rest)
    | _ => do
      let (digits, rest) ← whole? cs
      match fraction rest with
      | some (more, rest) => if isBounded (digits ++ more) then return (.float, rest) else none
      | none =>
        let n ← Decimal.integer? digits
        if isWord n then return (.integer n, rest) else none

/-! ## Values -/

mutual

/-- Read a value. -/
def value? : (fuel depth : Nat) → List Char → Option (Value × List Char)
  | 0, _, _ => none
  | fuel + 1, depth, cs =>
    match cs, depth with
    | '[' :: rest, depth + 1 => (items? fuel depth rest).map fun (items, rest) => (.list items, rest)
    | '{' :: rest, depth + 1 =>
      match skipSpace rest with
      | '}' :: rest => some (.table .braces [], rest)
      | _ => (entries? fuel depth [] rest).map fun (table, rest) => (.table .braces table, rest)
    | 't' :: 'r' :: 'u' :: 'e' :: rest, _ => some (.flag true, rest)
    | 'f' :: 'a' :: 'l' :: 's' :: 'e' :: rest, _ => some (.flag false, rest)
    | cs, _ =>
      match text? cs with
      | some (text, rest) => some (.text (String.ofList text), rest)
      | none =>
        match moment? cs with
        | some (moment, rest) => some (.moment moment, rest)
        | none => number? cs

/-- Read the items of a list and its end. -/
def items? : (fuel depth : Nat) → List Char → Option (List Value × List Char)
  | 0, _, _ => none
  | fuel + 1, depth, cs =>
    match skipLines false cs with
    | ']' :: rest => some ([], rest)
    | cs =>
      match value? fuel depth cs with
      | none => none
      | some (value, rest) =>
        match skipLines false rest with
        | ']' :: rest => some ([value], rest)
        | ',' :: rest => (items? fuel depth rest).map fun (items, rest) => (value :: items, rest)
        | _ => none

/-- Read the entries of a table in braces and its end, given the table so far. -/
def entries? : (fuel depth : Nat) → Table → List Char → Option (Table × List Char)
  | 0, _, _, _ => none
  | fuel + 1, depth, table, cs => do
    let (path, name, rest) ← key? cs
    let rest ← mark? '=' rest
    let (value, rest) ← value? fuel depth (skipSpace rest)
    let table ← Table.addAt? path name value .braces table
    match skipSpace rest with
    | '}' :: rest => return (table, rest)
    | ',' :: rest => entries? fuel depth table rest
    | _ => none

end

/-! ## Documents -/

/-- Read a line with a key and its value into the table of the last header. -/
def entryLine? (header : List String) (root : Table) (cs : List Char) : Option (Table × List Char) := do
  let (path, name, rest) ← key? cs
  let rest ← mark? '=' rest
  let (value, rest) ← value? (rest.length + 1) (nestingLimit - 1) (skipSpace rest)
  let rest ← lineEnd? rest
  let root ← Table.changeAt? .implied (Table.addAt? path name value) header .header root
  return (root, rest)

/-- Read a line with a header: the path to its table, and the root with that table. -/
def headerLine? (root : Table) (cs : List Char) : Option (List String × Table × List Char) := do
  match cs with
  | '[' :: '[' :: rest =>
    let (path, name, rest) ← key? rest
    let rest ← lineEnd? (← mark? ']' (← mark? ']' rest))
    return (path ++ [name], ← Table.beginAnother? path name root, rest)
  | '[' :: rest =>
    let (path, name, rest) ← key? rest
    let rest ← lineEnd? (← mark? ']' rest)
    return (path ++ [name], ← Table.begin? path name root, rest)
  | _ => none

/-- Read the lines of a document, given the last header and the root so far. -/
def lines? : Nat → List String → Table → List Char → Option Table
  | 0, _, _, _ => none
  | fuel + 1, header, root, cs =>
    match skipSpace cs with
    | [] => some root
    | '[' :: rest => do
      let (header, root, rest) ← headerLine? root ('[' :: rest)
      lines? fuel header root rest
    | c :: rest =>
      match lineEnd? (c :: rest) with
      | some rest => lines? fuel header root rest
      | none => do
        let (root, rest) ← entryLine? header root (c :: rest)
        lines? fuel header root rest

/-- The mark that can precede a text. -/
def byteOrderMark : Char := Char.ofNat 0xFEFF

/-- The table that a text holds. -/
def read? (text : String) : Option Table :=
  let cs := match text.toList with
    | c :: cs => if c = byteOrderMark then cs else c :: cs
    | [] => []
  lines? (cs.length + 1) [] [] cs

end Phrasebook.Toml
