import Phrasebook.Decimal.Numeral

/-!
# TOML characters and strings

Basic strings have escapes, literal strings have none; either can span several lines between three quotes.
Readers give what they read and the characters that follow.
-/

namespace Phrasebook.Toml

/-- A space or a tab. -/
def isSpace (c : Char) : Bool := c == ' ' || c == '\t'

/-- A character that can stand in comments; strings exclude some of them. -/
def isPrintable (c : Char) : Bool :=
  c == '\t' || (0x20 ≤ c.toNat && c.toNat ≠ 0x7F)

/-- The apostrophe, which is the quote of literal strings. -/
def apostrophe : Char := Char.ofNat 39

/-- Skip spaces and tabs. -/
def skipSpace (cs : List Char) : List Char := cs.dropWhile isSpace

/-- What follows a line end. -/
def afterNewline? : List Char → Option (List Char)
  | '\n' :: cs => some cs
  | '\r' :: '\n' :: cs => some cs
  | _ => none

/-- Skip space, line ends and comments. -/
def skipLines (inComment : Bool) : List Char → List Char
  | [] => []
  | '\r' :: '\n' :: cs => skipLines false cs
  | c :: cs =>
    if c = '\n' then skipLines false cs
    else if inComment then (if isPrintable c then skipLines true cs else c :: cs)
    else if isSpace c then skipLines false cs
    else if c = '#' then skipLines true cs
    else c :: cs

/-- What follows the line, of which only space and a comment may be left. -/
def lineEnd? (cs : List Char) : Option (List Char) :=
  let cs := match skipSpace cs with
    | '#' :: cs => cs.dropWhile isPrintable
    | cs => cs
  if cs = [] then some [] else afterNewline? cs

/-! ## Strings -/

/-- The character that a one-letter escape stands for. -/
def escaped? (c : Char) : Option Char :=
  [('b', 0x08), ('t', 0x09), ('n', 0x0A), ('f', 0x0C), ('r', 0x0D), ('"', 0x22), ('\\', 0x5C)].lookup c
    |>.map Char.ofNat

/-- The character with a code point in hexadecimal digits. -/
def codePoint? (digits : List Char) : Option Char :=
  (Decimal.natural? 16 digits).bind fun n => if n.isValidChar then some (Char.ofNat n) else none

/-- A read text with one more character in front. -/
def consText (c : Char) (read : List Char × List Char) : List Char × List Char :=
  (c :: read.1, read.2)

/-- Read a basic string after its quote. -/
def basic? : List Char → Option (List Char × List Char)
  | [] => none
  | '"' :: rest => some ([], rest)
  | '\\' :: 'u' :: a :: b :: c :: d :: cs =>
    (codePoint? [a, b, c, d]).bind fun x => (basic? cs).map (consText x)
  | '\\' :: 'U' :: a :: b :: c :: d :: e :: f :: g :: h :: cs =>
    (codePoint? [a, b, c, d, e, f, g, h]).bind fun x => (basic? cs).map (consText x)
  | '\\' :: e :: cs => (escaped? e).bind fun x => (basic? cs).map (consText x)
  | c :: cs => if isPrintable c && c ≠ '\\' then (basic? cs).map (consText c) else none

/-- Read a literal string after its quote. -/
def literal? : List Char → Option (List Char × List Char)
  | [] => none
  | c :: cs =>
    if c = apostrophe then some ([], cs)
    else if isPrintable c then (literal? cs).map (consText c)
    else none

/-- What is read where three quotes may come next: at most two quotes more belong to the text. -/
def closing? (quote : Char) (cs : List Char) : Option (List Char × List Char) :=
  let quotes := (cs.takeWhile (· = quote)).length
  if quotes < 3 then none
  else
    let kept := min (quotes - 3) 2
    some (List.replicate kept quote, cs.drop (kept + 3))

/-- Read a basic string of several lines. A backslash at the end of a line drops the space up to the next
character, which `skipping` keeps in mind. -/
def basicLines? (skipping : Bool) : List Char → Option (List Char × List Char)
  | [] => none
  | c :: cs =>
    if skipping && (isSpace c || (afterNewline? (c :: cs)).isSome) then basicLines? true cs
    else
      match closing? '"' (c :: cs) with
      | some read => some read
      | none =>
        if c = '\\' then
          if (afterNewline? (skipSpace cs)).isSome then basicLines? true cs
          else
            match cs with
            | 'u' :: a :: b :: c :: d :: cs =>
              (codePoint? [a, b, c, d]).bind fun x => (basicLines? false cs).map (consText x)
            | 'U' :: a :: b :: c :: d :: e :: f :: g :: h :: cs =>
              (codePoint? [a, b, c, d, e, f, g, h]).bind fun x => (basicLines? false cs).map (consText x)
            | e :: cs => (escaped? e).bind fun x => (basicLines? false cs).map (consText x)
            | [] => none
        else if c = '\r' then
          match cs with
          | '\n' :: cs => (basicLines? false cs).map (consText '\n')
          | _ => none
        else if isPrintable c || c = '\n' then (basicLines? false cs).map (consText c)
        else none

/-- Read a literal string of several lines. -/
def literalLines? : List Char → Option (List Char × List Char)
  | [] => none
  | c :: cs =>
    match closing? apostrophe (c :: cs) with
    | some read => some read
    | none =>
      if c = '\r' then
        match cs with
        | '\n' :: cs => (literalLines? cs).map (consText '\n')
        | _ => none
      else if isPrintable c || c = '\n' then (literalLines? cs).map (consText c)
      else none

/-- Read a string on one line. -/
def shortText? : List Char → Option (List Char × List Char)
  | '"' :: cs => basic? cs
  | c :: cs => if c = apostrophe then literal? cs else none
  | [] => none

/-- Read a string. A line end right after three quotes does not belong to it. -/
def text? (cs : List Char) : Option (List Char × List Char) :=
  let body := (afterNewline? (cs.drop 3)).getD (cs.drop 3)
  if cs.take 3 = ['"', '"', '"'] then basicLines? false body
  else if cs.take 3 = [apostrophe, apostrophe, apostrophe] then literalLines? body
  else shortText? cs

end Phrasebook.Toml
