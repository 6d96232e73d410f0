/-!
# JSON values

A number keeps its digits as written, and a record its entries in order with repetitions. The escapes of a
string can name half of a surrogate pair, which is no character; the content of such a string is `none`.
-/

namespace Phrasebook.Json

/-- A JSON value. -/
inductive Value where
  | null
  | flag (value : Bool)
  | number (digits : String)
  | text (content : Option String)
  | list (items : List Value)
  | record (entries : List (Option String × Value))
  deriving Repr, Inhabited

mutual

/-- How many records and lists are open at the innermost place. -/
def Value.depth : Value → Nat
  | .list items => depthOfItems items + 1
  | .record entries => depthOfEntries entries + 1
  | _ => 0

/-- The greatest depth of the items. -/
def depthOfItems : List Value → Nat
  | [] => 0
  | v :: vs => max v.depth (depthOfItems vs)

/-- The greatest depth of the entries. -/
def depthOfEntries : List (Option String × Value) → Nat
  | [] => 0
  | (_, v) :: es => max v.depth (depthOfEntries es)

end

/-- The escape of a character inside a JSON string. -/
def escape (c : Char) : List Char :=
  let short : List (Nat × Char) :=
    [(0x22, '"'), (0x5C, '\\'), (0x08, 'b'), (0x09, 't'), (0x0A, 'n'), (0x0C, 'f'), (0x0D, 'r')]
  match short.lookup c.toNat with
  | some letter => ['\\', letter]
  | none =>
    if c.toNat < 0x20 then
      let digits := Nat.toDigits 16 c.toNat
      ['\\', 'u'] ++ List.replicate (4 - digits.length) '0' ++ digits
    else [c]

/-- The JSON string that stands for a text. -/
def quote (s : String) : String :=
  String.ofList ('"' :: s.toList.flatMap escape ++ ['"'])

end Phrasebook.Json
