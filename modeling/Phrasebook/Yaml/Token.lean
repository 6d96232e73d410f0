import Phrasebook.Yaml.Scalar

/-!
# YAML tokens

A text is cut into tokens from left to right. Indentation opens and closes blocks, so it becomes tokens of
its own. A key can be written without an indicator: it is recognised only at the colon behind it, and then
the token for it is put in front of what has been read since.
-/

namespace Phrasebook.Yaml

/-- A piece of a YAML text. -/
inductive Token where
  | version (major minor : Nat)
  | tagHandle (handle expansion : String)
  | documentStart
  | documentEnd
  | blockList
  | blockRecord
  | blockEnd
  | flowList
  | flowListEnd
  | flowRecord
  | flowRecordEnd
  | blockEntry
  | flowEntry
  | key
  | value
  | alias (name : String)
  | anchor (name : String)
  | tag (handle suffix : String)
  | scalar (style : Style) (text : String)
  deriving DecidableEq, Repr

/-- A place where a key may have begun. -/
structure KeyStart where
  /-- Whether nothing but a key can be here. -/
  required : Bool
  /-- How many tokens precede the place. -/
  number : Nat
  line : Nat
  index : Nat
  column : Nat

/-- How far a text has been cut into tokens. -/
structure Scanner where
  cursor : Cursor
  /-- The tokens so far, the last one first. -/
  tokens : List Token := []
  /-- The column of the innermost block, below zero outside of all blocks. -/
  indent : Int := -1
  /-- The columns of the blocks around it, the innermost first. -/
  indents : List Int := []
  /-- Where a key may have begun inside the innermost brackets. -/
  keyStart : Option KeyStart := none
  /-- The same for what is around each open bracket, the innermost first. -/
  outer : List (Option KeyStart) := []
  /-- Whether a key may begin here. -/
  keyAllowed : Bool := true

namespace Scanner

/-- Whether a bracket is open. -/
def inFlow (s : Scanner) : Bool := !s.outer.isEmpty

/-- Add a token that ends so many characters further on. -/
def emit (s : Scanner) (token : Token) (n : Nat) : Scanner :=
  { s with tokens := token :: s.tokens, cursor := s.cursor.skip n }

/-- Put a token behind the first so many ones. -/
def insert (s : Scanner) (number : Nat) (token : Token) : Scanner :=
  let later := s.tokens.length - number
  { s with tokens := s.tokens.take later ++ token :: s.tokens.drop later }

/-! ## Blocks and keys -/

/-- Open a block at a column that is further to the right, behind the first so many tokens. -/
def openBlock (s : Scanner) (column : Nat) (number : Nat) (token : Token) : Scanner :=
  if s.inFlow || (column : Int) ≤ s.indent then s
  else { s.insert number token with indent := column, indents := s.indent :: s.indents }

/-- Open a block at the current place. -/
def openBlockHere (s : Scanner) (token : Token) : Scanner :=
  s.openBlock s.cursor.column s.tokens.length token

/-- Close the blocks that are further to the right than a column, given the columns around them. -/
def closeBlocks (column : Int) : List Int → Scanner → Scanner
  | [], s => s
  | around :: indents, s =>
    if s.indent ≤ column then s
    else closeBlocks column indents { s with tokens := .blockEnd :: s.tokens, indent := around, indents }

/-- Close the blocks that a column ends; inside brackets indentation does not count. -/
def dedent (s : Scanner) (column : Int) : Scanner :=
  if s.inFlow then s else closeBlocks column s.indents s

/-- Give up the key that may have begun; where only a key can be, this is a fault. -/
def dropKey? (s : Scanner) : Option Scanner :=
  if s.keyStart.any KeyStart.required then none else some { s with keyStart := none }

/-- Note that a key may begin here. -/
def noteKey? (s : Scanner) : Option Scanner :=
  if s.keyAllowed then
    s.dropKey?.map fun s =>
      { s with
        keyStart := some
          { required := !s.inFlow && s.indent = s.cursor.column
            number := s.tokens.length
            line := s.cursor.line
            index := s.cursor.index
            column := s.cursor.column } }
  else some s

/-- How long a key without an indicator may be. -/
def maxKeyLength : Nat := 1024

/-- Whether a key that began at a place cannot end here any more. -/
def KeyStart.isStale (start : KeyStart) (cursor : Cursor) : Bool :=
  start.line < cursor.line || start.index + maxKeyLength < cursor.index

/-- A possible key, unless it is stale; where only a key can be, this is a fault. -/
def refreshed? (cursor : Cursor) : Option KeyStart → Option (Option KeyStart)
  | none => some none
  | some start =>
    if KeyStart.isStale start cursor then (if start.required then none else some none)
    else some (some start)

/-- Give up the possible keys that are too far behind. -/
def refreshKeys? (s : Scanner) : Option Scanner := do
  let keyStart ← refreshed? s.cursor s.keyStart
  let outer ← s.outer.mapM (refreshed? s.cursor)
  return { s with keyStart, outer }

/-! ## Space -/

/-- The mark that can precede a line. -/
def byteOrderMark : Char := Char.ofNat 0xFEFF

/-- Skip space, comments and line ends. Tabs are no space where a key may begin. -/
def skipSpace : Nat → Scanner → Scanner
  | 0, s => s
  | fuel + 1, s =>
    let cursor := if s.cursor.column = 0 && s.cursor.sees byteOrderMark then s.cursor.skip 1 else s.cursor
    let tabs := s.inFlow || !s.keyAllowed
    let cursor := (cursor.readWhile fun c => c == ' ' || (tabs && c == '\t')).2.skipComment
    if !cursor.atEnd && cursor.atLineEnd then
      skipSpace fuel { s with cursor := cursor.readBreak.2, keyAllowed := s.keyAllowed || !s.inFlow }
    else { s with cursor }

/-! ## Directives, anchors and tags -/

/-- A character of a tag. -/
def isTagChar (c : Char) : Bool :=
  isWordChar c || c ∈ [';', '/', '?', ':', '@', '&', '=', '+', '$', '.', '!', '~', '*', apostrophe, '(', ')']

/-- A character of a tag that is written in full. -/
def isFullTagChar (c : Char) : Bool :=
  isTagChar c || c ∈ [',', '[', ']']

/-- Read an escaped byte. -/
def escapedByte? (cursor : Cursor) : Option (Nat × Cursor) :=
  match cursor.rest with
  | '%' :: high :: low :: _ => (Decimal.natural? 16 [high, low]).map (·, cursor.skip 3)
  | _ => none

/-- Read the bytes that continue an escaped character. -/
def escapedTail? : Nat → Nat → Cursor → Option (Nat × Cursor)
  | 0, code, cursor => some (code, cursor)
  | n + 1, code, cursor => do
    let (byte, next) ← escapedByte? cursor
    if byte / 0x40 = 2 then escapedTail? n (code * 0x40 + byte % 0x40) next else none

/-- Read a character whose bytes are escaped one by one. -/
def escapedChar? (cursor : Cursor) : Option (Char × Cursor) := do
  let (first, next) ← escapedByte? cursor
  let (code, next) ←
    if first < 0x80 then some (first, next)
    else if first / 0x20 = 6 then escapedTail? 1 (first % 0x20) next
    else if first / 0x10 = 14 then escapedTail? 2 (first % 0x10) next
    else if first / 0x8 = 30 then escapedTail? 3 (first % 0x8) next
    else none
  return (if code.isValidChar then Char.ofNat code else Char.ofNat 0xFFFD, next)

/-- Read the characters of a tag. -/
def tagText? (allowed : Char → Bool) : Nat → List Char → Cursor → Option (List Char × Cursor)
  | 0, _, _ => none
  | fuel + 1, text, cursor =>
    match cursor.rest with
    | [] => some (text, cursor)
    | c :: _ =>
      if c = '%' then
        match escapedChar? cursor with
        | some (c, next) => tagText? allowed fuel (text ++ [c]) next
        | none => none
      else if allowed c then tagText? allowed fuel (text ++ [c]) (cursor.skip 1)
      else some (text, cursor)

/-- Read characters of a tag to their end. -/
def tagRest? (allowed : Char → Bool) (cursor : Cursor) : Option (List Char × Cursor) :=
  tagText? allowed (cursor.rest.length + 1) [] cursor

/-- Read a tag handle: word characters between two exclamation marks, of which the second can be missing. -/
def tagHandle? (cursor : Cursor) : Option (List Char × Cursor) :=
  if cursor.sees '!' then
    let (word, next) := (cursor.skip 1).readWhile isWordChar
    if next.sees '!' then some ('!' :: word ++ ['!'], next.skip 1) else some ('!' :: word, next)
  else none

/-- Read a tag: its handle and the rest of it. A tag in angle brackets has no handle, and nor has the
exclamation mark alone. -/
def tag? (cursor : Cursor) : Option (Token × Cursor) := do
  if cursor.peek? 1 = some '<' then
    let (suffix, next) ← tagRest? isFullTagChar (cursor.skip 2)
    if suffix ≠ [] && next.sees '>' then
      return (.tag "" (String.ofList suffix), next.skip 1)
    else none
  else
    let (handle, next) ← tagHandle? cursor
    let (suffix, next) ← tagRest? isTagChar next
    if 1 < handle.length && handle.getLast? = some '!' then
      if suffix = [] then none
      else return (.tag (String.ofList handle) (String.ofList suffix), next)
    else
      let suffix := handle.drop 1 ++ suffix
      if suffix = [] then return (.tag "" "!", next)
      else return (.tag "!" (String.ofList suffix), next)

/-- Whether a tag can end here. -/
def endsTag (s : Scanner) (cursor : Cursor) : Bool :=
  cursor.blankAt 0 || (s.inFlow && cursor.sees ',')

/-- Read the name of an anchor or of an alias after its indicator. -/
def anchorName? (cursor : Cursor) : Option (String × Cursor) :=
  let (name, next) := cursor.readWhile isWordChar
  let ends := next.blankAt 0 ||
    (next.peek? 0).any fun c => c ∈ ['?', ':', ',', ']', '}', '%', '@', Char.ofNat 0x60]
  if name ≠ [] && ends then some (String.ofList name, next) else none

/-- Read one of the numbers of a version. -/
def versionNumber? (cursor : Cursor) : Option (Nat × Cursor) :=
  let (digits, next) := cursor.readWhile Char.isDigit
  if digits.length ≤ 9 then (Decimal.natural? 10 digits).map (·, next) else none

/-- Read a directive after its percent sign. -/
def directive? (cursor : Cursor) : Option (Token × Cursor) := do
  let (name, next) := cursor.readWhile isWordChar
  if !next.blankAt 0 then none
  let next := next.skipBlanks
  let (token, next) ←
    match String.ofList name with
    | "YAML" => do
      let (major, next) ← versionNumber? next
      if !next.sees '.' then none
      let (minor, next) ← versionNumber? (next.skip 1)
      some (Token.version major minor, next)
    | "TAG" => do
      let (handle, next) ← tagHandle? next
      if handle ≠ ['!'] && handle.getLast? ≠ some '!' then none
      if !(next.peek? 0).any isBlankChar then none
      let (expansion, next) ← tagRest? isFullTagChar next.skipBlanks
      if expansion = [] || !next.blankAt 0 then none
      some (Token.tagHandle (String.ofList handle) (String.ofList expansion), next)
    | _ => none
  let next := next.skipBlanks.skipComment
  if next.atLineEnd then return (token, next.readBreak.2) else none

/-! ## Tokens -/

/-- Add the token of a node, which may be a key, read by the given reader from here. -/
def node? (s : Scanner) (read : Scanner → Option (Token × Cursor)) : Option Scanner := do
  let s ← s.noteKey?
  let (token, cursor) ← read s
  return { s with tokens := token :: s.tokens, cursor, keyAllowed := false }

/-- Add the token of an opening bracket. -/
def openFlow? (s : Scanner) (token : Token) : Option Scanner :=
  s.noteKey?.map fun s =>
    { s.emit token 1 with keyStart := none, outer := s.keyStart :: s.outer, keyAllowed := true }

/-- Add the token of a closing bracket, whether or not one is open. -/
def closeFlow? (s : Scanner) (token : Token) : Option Scanner :=
  s.dropKey?.map fun s =>
    { s.emit token 1 with
      keyStart := s.outer.head?.getD none, outer := s.outer.drop 1, keyAllowed := false }

/-- Add the token of the sign before an item or a key, which opens a block unless it is inside brackets. -/
def indicator? (s : Scanner) (block token : Token) : Option Scanner := do
  if !s.inFlow && !s.keyAllowed then none
  (s.openBlockHere block).dropKey?.map (·.emit token 1)

/-- Add the token of the colon before a value, and the token of the key before it. -/
def value? (s : Scanner) : Option Scanner :=
  match s.keyStart with
  | some start =>
    let s := (s.insert start.number .key).openBlock start.column start.number .blockRecord
    some { s.emit .value 1 with keyStart := none, keyAllowed := false }
  | none =>
    if s.inFlow then some { s.emit .value 1 with keyAllowed := false }
    else if s.keyAllowed then some { (s.openBlockHere .blockRecord).emit .value 1 with keyAllowed := true }
    else none

/-- Add a block scalar after its indicator. -/
def blockScalar? (s : Scanner) (style : Style) : Option Scanner := do
  let s ← s.dropKey?
  let (text, cursor) ← block? (style == .literal) s.indent (s.cursor.skip 1)
  return { s with tokens := .scalar style (String.ofList text) :: s.tokens, cursor, keyAllowed := true }

/-- Add a quoted scalar. -/
def quotedScalar? (s : Scanner) (quote : Char) : Option Scanner :=
  s.node? fun s =>
    let cursor := s.cursor.skip 1
    (Yaml.quoted? quote (cursor.rest.length + 1) [] false cursor).map fun (text, cursor) =>
      (.scalar .quoted (String.ofList text), cursor)

/-- Add a plain scalar. A key may begin behind it if it is followed by a line end. -/
def plainScalar? (s : Scanner) : Option Scanner := do
  let s ← s.noteKey?
  let (text, newLine, cursor) ←
    plain? s.inFlow (s.indent + 1) (2 * s.cursor.rest.length + 2) [] (.blanks []) false s.cursor
  return { s with tokens := .scalar .plain (String.ofList text) :: s.tokens, cursor, keyAllowed := newLine }

/-- A character that begins something other than a plain scalar, at least before a blank. -/
def isIndicator (c : Char) : Bool :=
  c ∈ ['-', '?', ':', ',', '[', ']', '{', '}', '#', '&', '*', '!', '|', '>', apostrophe, '"', '%', '@',
    Char.ofNat 0x60]

/-- Whether a plain scalar can begin here. -/
def beginsPlain (s : Scanner) : Bool :=
  match s.cursor.rest with
  | [] => false
  | c :: _ =>
    (!s.cursor.blankAt 0 && !isIndicator c) || (c = '-' && !(s.cursor.peek? 1).any isBlankChar) ||
      (!s.inFlow && (c = '?' || c = ':') && !s.cursor.blankAt 1)

/-- Leave all blocks, where a directive or a document begins or ends. -/
def leaveBlocks? (s : Scanner) : Option Scanner :=
  (s.dedent (-1)).dropKey?.map fun s => { s with keyAllowed := false }

/-- Add the token that begins at the current place, which is not the end of the text. -/
def next? (s : Scanner) : Option Scanner :=
  let cursor := s.cursor
  let spaced := s.inFlow || cursor.blankAt 1
  match cursor.rest with
  | [] => none
  | c :: _ =>
    if cursor.column = 0 && c = '%' then do
      let s ← s.leaveBlocks?
      let (token, cursor) ← directive? (cursor.skip 1)
      return { s with tokens := token :: s.tokens, cursor }
    else if cursor.seesIndicator '-' then s.leaveBlocks?.map (·.emit .documentStart 3)
    else if cursor.seesIndicator '.' then s.leaveBlocks?.map (·.emit .documentEnd 3)
    else if c = '[' then s.openFlow? .flowList
    else if c = '{' then s.openFlow? .flowRecord
    else if c = ']' then s.closeFlow? .flowListEnd
    else if c = '}' then s.closeFlow? .flowRecordEnd
    else if c = ',' then s.dropKey?.map fun s => { s.emit .flowEntry 1 with keyAllowed := true }
    else if c = '-' && cursor.blankAt 1 then
      (s.indicator? .blockList .blockEntry).map fun s => { s with keyAllowed := true }
    else if c = '?' && spaced then
      (s.indicator? .blockRecord .key).map fun s => { s with keyAllowed := !s.inFlow }
    else if c = ':' && spaced then s.value?
    else if c = '*' then
      s.node? fun s => (anchorName? (s.cursor.skip 1)).map fun (name, next) => (.alias name, next)
    else if c = '&' then
      s.node? fun s => (anchorName? (s.cursor.skip 1)).map fun (name, next) => (.anchor name, next)
    else if c = '!' then s.node? fun s => (tag? s.cursor).filter fun (_, next) => s.endsTag next
    else if c = '|' && !s.inFlow then s.blockScalar? .literal
    else if c = '>' && !s.inFlow then s.blockScalar? .folded
    else if c = apostrophe || c = '"' then s.quotedScalar? c
    else if s.beginsPlain then s.plainScalar?
    else none

/-- Cut the rest of a text into tokens. -/
def finish? : Nat → Scanner → Option (List Token)
  | 0, _ => none
  | fuel + 1, s => do
    let s ← (s.skipSpace (s.cursor.rest.length + 1)).refreshKeys?
    let s := s.dedent s.cursor.column
    if s.cursor.atEnd then return (← s.leaveBlocks?).tokens.reverse
    else finish? fuel (← s.next?)

end Scanner

/-- The tokens of a text. -/
def tokens? (text : String) : Option (List Token) :=
  let cs := text.toList
  if cs.all isAllowed then Scanner.finish? (cs.length + 1) { cursor := ⟨cs, 0, 0, 0⟩ } else none

end Phrasebook.Yaml
