import Phrasebook.Decimal.Numeral

/-!
# Dates and times

A date, a time of day, or both with or without an offset from universal time. The written form is
normalised: a capital T between date and time, and no zeros at the end of a fraction.
-/

namespace Phrasebook.Toml

/-- A day of the calendar. -/
structure Date where
  year : Nat
  month : Nat
  day : Nat
  deriving DecidableEq, Repr

/-- A time of day; the fraction counts billionths of a second. -/
structure Time where
  hour : Nat
  minute : Nat
  second : Nat
  fraction : Nat
  deriving DecidableEq, Repr

/-- How a time is related to universal time. -/
inductive Offset where
  | universal
  | minutes (negative : Bool) (count : Nat)
  deriving DecidableEq, Repr

/-- A date, a time of day, or both. -/
inductive Moment where
  | date (date : Date)
  | time (time : Time)
  | both (date : Date) (time : Time) (offset : Option Offset)
  deriving DecidableEq, Repr

/-! ## Reading -/

/-- Read a number of so many decimal digits within limits. -/
def field? (width least most : Nat) (cs : List Char) : Option (Nat × List Char) :=
  let digits := cs.take width
  if digits.length = width && digits.all Char.isDigit then
    match Decimal.natural? 10 digits with
    | some n => if least ≤ n && n ≤ most then some (n, cs.drop width) else none
    | none => none
  else none

/-- Read a given character. -/
def mark? (c : Char) : List Char → Option (List Char)
  | d :: cs => if c = d then some cs else none
  | [] => none

/-- How many days a month has. -/
def daysInMonth (year month : Nat) : Nat :=
  let leap := year % 4 = 0 && (year % 100 ≠ 0 || year % 400 = 0)
  if month = 2 then (if leap then 29 else 28) else if month ∈ [4, 6, 9, 11] then 30 else 31

/-- Read a date. -/
def date? (cs : List Char) : Option (Date × List Char) := do
  let (year, cs) ← field? 4 0 9999 cs
  let cs ← mark? '-' cs
  let (month, cs) ← field? 2 1 12 cs
  let cs ← mark? '-' cs
  let (day, cs) ← field? 2 1 (daysInMonth year month) cs
  return ({ year, month, day }, cs)

/-- How many digits of a fraction count; the others are cut off. -/
def fractionDigits : Nat := 9

/-- Read the fraction of a second, if there is one. -/
def fraction? : List Char → Option (Nat × List Char)
  | '.' :: cs =>
    let digits := (cs.takeWhile Char.isDigit).take fractionDigits
    (Decimal.natural? 10 digits).map fun n =>
      (n * Nat.pow 10 (fractionDigits - digits.length), cs.dropWhile Char.isDigit)
  | cs => some (0, cs)

/-- Read a time of day. -/
def time? (cs : List Char) : Option (Time × List Char) := do
  let (hour, cs) ← field? 2 0 23 cs
  let cs ← mark? ':' cs
  let (minute, cs) ← field? 2 0 59 cs
  let cs ← mark? ':' cs
  let (second, cs) ← field? 2 0 60 cs
  let (fraction, cs) ← fraction? cs
  return ({ hour, minute, second, fraction }, cs)

/-- Read an offset, if there is one. -/
def offset? : List Char → Option (Option Offset × List Char)
  | [] => some (none, [])
  | c :: cs =>
    if c = 'Z' || c = 'z' then some (some .universal, cs)
    else if c = '+' || c = '-' then do
      let (hour, cs) ← field? 2 0 23 cs
      let cs ← mark? ':' cs
      let (minute, cs) ← field? 2 0 59 cs
      return (some (.minutes (c = '-') (hour * 60 + minute)), cs)
    else some (none, c :: cs)

/-- What follows the sign between a date and a time. -/
def timeAfter? : List Char → Option (Time × List Char)
  | c :: cs => if c = 'T' || c = 't' || c = ' ' then time? cs else none
  | [] => none

/-- Read a moment. -/
def moment? (cs : List Char) : Option (Moment × List Char) :=
  match date? cs with
  | some (date, rest) =>
    match timeAfter? rest with
    | some (time, rest) => (offset? rest).map fun (offset, rest) => (.both date time offset, rest)
    | none => some (.date date, rest)
  | none => (time? cs).map fun (time, rest) => (.time time, rest)

/-! ## Writing -/

/-- A number with zeros in front up to a width. -/
def padded (width n : Nat) : List Char :=
  let digits := Nat.toDigits 10 n
  List.replicate (width - digits.length) '0' ++ digits

/-- The text of a date. -/
def Date.text (d : Date) : List Char :=
  padded 4 d.year ++ '-' :: padded 2 d.month ++ '-' :: padded 2 d.day

/-- The text of a time. -/
def Time.text (t : Time) : List Char :=
  let fraction :=
    if t.fraction = 0 then []
    else '.' :: ((padded fractionDigits t.fraction).reverse.dropWhile (· = '0')).reverse
  padded 2 t.hour ++ ':' :: padded 2 t.minute ++ ':' :: padded 2 t.second ++ fraction

/-- The text of an offset; an offset of zero is positive. -/
def Offset.text : Offset → List Char
  | .universal => ['Z']
  | .minutes negative count =>
    (if negative && count ≠ 0 then '-' else '+') :: padded 2 (count / 60) ++ ':' :: padded 2 (count % 60)

/-- The text of a moment. -/
def Moment.text : Moment → List Char
  | .date d => d.text
  | .time t => t.text
  | .both d t offset => d.text ++ 'T' :: t.text ++ (offset.map Offset.text).getD []

end Phrasebook.Toml
