/-!
# Blank characters

The characters with the Unicode property `White_Space`, and what it means to trim a text or to call it
blank.
-/

namespace Phrasebook

/-- A character with the Unicode property `White_Space`. -/
def isBlank (c : Char) : Bool :=
  let n := c.toNat
  (9 ≤ n && n ≤ 13) || n == 0x20 || n == 0x85 || n == 0xA0 || n == 0x1680 ||
    (0x2000 ≤ n && n ≤ 0x200A) || n == 0x2028 || n == 0x2029 || n == 0x202F || n == 0x205F ||
    n == 0x3000

/-- Drop blank characters from the end. -/
def trimRight (cs : List Char) : List Char :=
  (cs.reverse.dropWhile isBlank).reverse

/-- Drop blank characters from both ends. -/
def trim (cs : List Char) : List Char :=
  trimRight (cs.dropWhile isBlank)

/-- A text without a character that is not blank. -/
def isBlankText (s : String) : Bool :=
  s.toList.all isBlank

/-- Nothing is left of a text after trimming exactly if all its characters are blank. -/
theorem trim_eq_nil_iff {cs : List Char} : trim cs = [] ↔ ∀ c ∈ cs, isBlank c = true := by
  have dropWhile_eq_nil : ∀ l : List Char, l.dropWhile isBlank = [] ↔ ∀ c ∈ l, isBlank c = true := by
    intro l
    induction l with
    | nil => simp
    | cons c l ih => by_cases h : isBlank c <;> simp [h, ih]
  rw [trim, trimRight, List.reverse_eq_nil_iff, dropWhile_eq_nil]
  constructor
  · intro h
    rw [← dropWhile_eq_nil]
    cases hd : cs.dropWhile isBlank with
    | nil => rfl
    | cons c l =>
      have hc := h c (by simp [hd])
      have := List.head_dropWhile_not isBlank (by simp [hd] : cs.dropWhile isBlank ≠ [])
      simp [hd, hc] at this
  · intro h c hc
    exact h c ((List.dropWhile_suffix isBlank).subset (by simpa using hc))

end Phrasebook
