/-!
# Places in a YAML text

A cursor is the rest of a text together with the place where it begins. Lines end with a carriage return, a
line feed, both of them in this order, or one of three further line ends.
-/

namespace Phrasebook.Yaml

/-- The rest of a text and its place. -/
structure Cursor where
  rest : List Char
  index : Nat := 0
  line : Nat := 0
  column : Nat := 0

/-- A space or a tab. -/
def isBlankChar (c : Char) : Bool := c == ' ' || c == '\t'

/-- A character that ends a line. -/
def isBreak (c : Char) : Bool :=
  c == '\n' || c == '\r' || c.toNat == 0x85 || c.toNat == 0x2028 || c.toNat == 0x2029

/-- A character of names of anchors, tag handles and directives. -/
def isWordChar (c : Char) : Bool := c.isAlphanum || c == '_' || c == '-'

/-- A character that a text may hold. -/
def isAllowed (c : Char) : Bool :=
  let n := c.toNat
  n == 9 || n == 10 || n == 13 || (0x20 ≤ n && n ≤ 0x7E) || n == 0x85 || (0xA0 ≤ n && n ≤ 0xD7FF) ||
    (0xE000 ≤ n && n ≤ 0xFFFD) || 0x10000 ≤ n

namespace Cursor

/-- The character so many places further on. -/
def peek? (cursor : Cursor) (n : Nat) : Option Char := cursor.rest[n]?

/-- Whether the given character comes next. -/
def sees (cursor : Cursor) (c : Char) : Bool := cursor.rest.head? = some c

/-- Whether the text is over. -/
def atEnd (cursor : Cursor) : Bool := cursor.rest.isEmpty

/-- Whether a blank, a line end or the end of the text is so many places further on. -/
def blankAt (cursor : Cursor) (n : Nat) : Bool :=
  match cursor.peek? n with
  | none => true
  | some c => isBlankChar c || isBreak c

/-- Whether a line end or the end of the text comes next. -/
def atLineEnd (cursor : Cursor) : Bool :=
  match cursor.rest with
  | [] => true
  | c :: _ => isBreak c

/-- Move on by characters of the same line. -/
def skip (cursor : Cursor) (n : Nat) : Cursor :=
  { cursor with rest := cursor.rest.drop n, index := cursor.index + n, column := cursor.column + n }

/-- Move past a line end, and give what it stands for: a line feed, except for two of the line ends. -/
def readBreak (cursor : Cursor) : List Char × Cursor :=
  let next (rest : List Char) (n : Nat) : Cursor := ⟨rest, cursor.index + n, cursor.line + 1, 0⟩
  match cursor.rest with
  | '\r' :: '\n' :: rest => (['\n'], next rest 2)
  | c :: rest =>
    if c.toNat = 0x2028 || c.toNat = 0x2029 then ([c], next rest 1)
    else if isBreak c then (['\n'], next rest 1)
    else ([], cursor)
  | [] => ([], cursor)

/-- Move on while the characters have a property, and give them. -/
def readWhile (cursor : Cursor) (p : Char → Bool) : List Char × Cursor :=
  let cs := cursor.rest.takeWhile p
  (cs, cursor.skip cs.length)

/-- Move past spaces and tabs. -/
def skipBlanks (cursor : Cursor) : Cursor := (cursor.readWhile isBlankChar).2

/-- Move past a comment, if one begins here. -/
def skipComment (cursor : Cursor) : Cursor :=
  if cursor.sees '#' then (cursor.readWhile (!isBreak ·)).2 else cursor

/-- Whether three of a character, and then nothing or a blank, begin the line. -/
def seesIndicator (cursor : Cursor) (c : Char) : Bool :=
  cursor.column = 0 && cursor.rest.take 3 = [c, c, c] && cursor.blankAt 3

/-- Whether a document begins or ends here. -/
def atDocumentIndicator (cursor : Cursor) : Bool :=
  cursor.seesIndicator '-' || cursor.seesIndicator '.'

end Cursor

end Phrasebook.Yaml
