import Phrasebook.Text.Hidden
import Phrasebook.Text.Pieces

/-!
# Quoted text

Text in double quotes, as diagnostics show it: quotes, backslashes and control characters are escaped, and
so is every character that would not be visible on its own.
-/

namespace Phrasebook.Quoted

/-- The escape that names a character by its code point. -/
def codePoint (c : Char) : List Char :=
  "\\u\x7b".toList ++ Nat.toDigits 16 c.toNat ++ ['\x7d']

/-- A character as it stands between the quotes. -/
def escape (c : Char) : List Char :=
  if c = '"' then ['\\', '"']
  else if c = '\\' then ['\\', '\\']
  else if c = '\n' then ['\\', 'n']
  else if c = '\r' then ['\\', 'r']
  else if c = '\t' then ['\\', 't']
  else if c.toNat = 0 then ['\\', '0']
  else if c.toNat < 0x20 || (0x7F ≤ c.toNat && c.toNat < 0xA0) then codePoint c
  else if isHidden c then codePoint c
  else [c]

/-- A text in quotes. -/
def text (s : String) : String :=
  String.ofList ('"' :: s.toList.flatMap escape ++ ['"'])

/-- A file path in quotes, where an apostrophe is escaped too. -/
def path (s : String) : String :=
  let escapeAll (c : Char) : List Char := if c.toNat = 39 then ['\\', c] else escape c
  String.ofList ('"' :: s.toList.flatMap escapeAll ++ ['"'])

/-- A list in brackets, from the shown items. -/
def list (items : List String) : String :=
  "[" ++ joinTexts ", " items ++ "]"

/-- A list of quoted texts. -/
def texts (items : List String) : String :=
  list (items.map text)

end Phrasebook.Quoted
