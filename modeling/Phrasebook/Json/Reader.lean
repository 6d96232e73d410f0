import Phrasebook.Decimal.Numeral
import Phrasebook.Json.Value

/-!
# Reading JSON

Readers take characters and give what they read together with the characters that follow. The number that
the nested readers count down is twice the length of the text, which is more than they can nest.
-/

namespace Phrasebook.Json

/-- A place in a JSON string: a character, or a unit named by an escape. -/
inductive StringUnit where
  | char (c : Char)
  | unit (code : Nat)
  deriving Repr

/-- Skip the space between tokens. -/
def skipSpace (cs : List Char) : List Char :=
  cs.dropWhile fun c => c == ' ' || c == '\n' || c == '\t' || c == '\r'

/-- The character that a one-letter escape stands for. -/
def escaped? : Char → Option Char
  | '"' => some '"'
  | '\\' => some '\\'
  | '/' => some '/'
  | 'b' => some '\x08'
  | 'f' => some '\x0c'
  | 'n' => some '\n'
  | 'r' => some '\r'
  | 't' => some '\t'
  | _ => none

/-- Read a string after its opening quote. -/
def stringBody : List Char → Option (List StringUnit × List Char)
  | [] => none
  | '"' :: cs => some ([], cs)
  | '\\' :: 'u' :: a :: b :: c :: d :: cs =>
    (Decimal.natural? 16 [a, b, c, d]).bind fun code =>
      (stringBody cs).map fun (units, rest) => (.unit code :: units, rest)
  | '\\' :: e :: cs =>
    (escaped? e).bind fun c => (stringBody cs).map fun (units, rest) => (.char c :: units, rest)
  | c :: cs =>
    if c.toNat < 0x20 || c = '\\' then none
    else (stringBody cs).map fun (units, rest) => (.char c :: units, rest)

/-- The characters of a string; two units can form one surrogate pair, and any other half is refused. -/
def decodeUnits : List StringUnit → Option (List Char)
  | [] => some []
  | .char c :: us => (decodeUnits us).map (c :: ·)
  | .unit high :: .unit low :: us =>
    if 0xD800 ≤ high && high < 0xDC00 then
      if 0xDC00 ≤ low && low < 0xE000 then
        (decodeUnits us).map (Char.ofNat (0x10000 + (high - 0xD800) * 0x400 + (low - 0xDC00)) :: ·)
      else none
    else if 0xDC00 ≤ high && high < 0xE000 then none
    else (decodeUnits (.unit low :: us)).map (Char.ofNat high :: ·)
  | .unit code :: us =>
    if 0xD800 ≤ code && code < 0xE000 then none else (decodeUnits us).map (Char.ofNat code :: ·)

/-- Read a string after its opening quote, down to its content. -/
def string? (cs : List Char) : Option (Option String × List Char) :=
  (stringBody cs).map fun (units, rest) => ((decodeUnits units).map String.ofList, rest)

/-- Read one or more digits. -/
def digits? (cs : List Char) : Option (List Char × List Char) :=
  match cs.takeWhile Char.isDigit with
  | [] => none
  | ds => some (ds, cs.dropWhile Char.isDigit)

/-- Read the digits before the point: a zero alone, or digits that do not begin with zero. -/
def wholeDigits? : List Char → Option (List Char × List Char)
  | '0' :: cs =>
    match cs with
    | c :: _ => if c.isDigit then none else some (['0'], cs)
    | [] => some (['0'], [])
  | cs => digits? cs

/-- Read a fraction, if there is one. -/
def fraction? : List Char → Option (List Char × List Char)
  | '.' :: cs => (digits? cs).map fun (ds, rest) => ('.' :: ds, rest)
  | cs => some ([], cs)

/-- Read an exponent, if there is one. -/
def exponent? : List Char → Option (List Char × List Char)
  | e :: cs =>
    if e = 'e' || e = 'E' then
      let (mark, cs) := match cs with
        | '+' :: cs => (['+'], cs)
        | '-' :: cs => (['-'], cs)
        | cs => ([], cs)
      (digits? cs).map fun (ds, rest) => (e :: mark ++ ds, rest)
    else some ([], e :: cs)
  | [] => some ([], [])

/-- Read a number. -/
def number? (cs : List Char) : Option (Value × List Char) := do
  let (sign, cs) := match cs with
    | '-' :: cs => (['-'], cs)
    | cs => ([], cs)
  let (whole, cs) ← wholeDigits? cs
  let (fraction, cs) ← fraction? cs
  let (exponent, cs) ← exponent? cs
  return (.number (String.ofList (sign ++ whole ++ fraction ++ exponent)), cs)

mutual

/-- Read a value. -/
def value? : Nat → List Char → Option (Value × List Char)
  | 0, _ => none
  | fuel + 1, cs =>
    match skipSpace cs with
    | '"' :: cs => (string? cs).map fun (content, rest) => (.text content, rest)
    | '{' :: cs =>
      match skipSpace cs with
      | '}' :: rest => some (.record [], rest)
      | cs => (entries? fuel cs).map fun (entries, rest) => (.record entries, rest)
    | '[' :: cs =>
      match skipSpace cs with
      | ']' :: rest => some (.list [], rest)
      | cs => (items? fuel cs).map fun (items, rest) => (.list items, rest)
    | 'n' :: 'u' :: 'l' :: 'l' :: rest => some (.null, rest)
    | 't' :: 'r' :: 'u' :: 'e' :: rest => some (.flag true, rest)
    | 'f' :: 'a' :: 'l' :: 's' :: 'e' :: rest => some (.flag false, rest)
    | cs => number? cs

/-- Read the entries of a record and its closing brace. -/
def entries? : Nat → List Char → Option (List (Option String × Value) × List Char)
  | 0, _ => none
  | fuel + 1, cs =>
    match skipSpace cs with
    | '"' :: cs =>
      match string? cs with
      | none => none
      | some (name, cs) =>
        match skipSpace cs with
        | ':' :: cs =>
          match value? fuel cs with
          | none => none
          | some (value, cs) =>
            match skipSpace cs with
            | '}' :: rest => some ([(name, value)], rest)
            | ',' :: cs => (entries? fuel cs).map fun (entries, rest) => ((name, value) :: entries, rest)
            | _ => none
        | _ => none
    | _ => none

/-- Read the items of a list and its closing bracket. -/
def items? : Nat → List Char → Option (List Value × List Char)
  | 0, _ => none
  | fuel + 1, cs =>
    match value? fuel cs with
    | none => none
    | some (value, cs) =>
      match skipSpace cs with
      | ']' :: rest => some ([value], rest)
      | ',' :: cs => (items? fuel cs).map fun (items, rest) => (value :: items, rest)
      | _ => none

end

/-- The value that a text is, with nothing but space around it. -/
def read? (text : String) : Option Value :=
  let cs := text.toList
  match value? (2 * cs.length + 2) cs with
  | some (value, rest) => if skipSpace rest = [] then some value else none
  | none => none

end Phrasebook.Json
