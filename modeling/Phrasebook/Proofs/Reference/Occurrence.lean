import Mathlib.Data.List.TakeWhile
import Phrasebook.Reference.Marker

/-!
# Occurrences of markers

`Marker.next?` finds a marker exactly when one occurs somewhere in the text (`Marker.next?_eq_none_iff`), and
the literals that `Marker.decompose` cuts out hold none. When texts that hold no marker are written one after
another, markers can still come into being where two of them meet (`Marker.next?_flatten_eq_none_iff`).
-/

namespace Phrasebook.Marker

/-- What may stand inside a marker. -/
def IsInner (inner : List Char) : Prop :=
  inner ≠ [] ∧ '>' ∉ inner

/-! ## Scanning -/

/-- An opener opens a marker when the next `>` ends one and something stands inside. -/
theorem close?_eq_some_iff {cs inner after : List Char} :
    close? cs = some (inner, after) ↔ IsInner inner ∧ cs = inner ++ ['/', '>'] ++ after := by
  constructor
  · intro h
    refine ⟨?_, eq_of_close? h⟩
    unfold close? at h
    split at h
    · simp at h
    · split at h
      · rename_i d before hrev
        simp only [Option.some.injEq, Prod.mk.injEq] at h
        obtain ⟨rfl, rfl⟩ := h
        refine ⟨by simp, fun hmem => ?_⟩
        -- a bracket in the inner text would stand before the first one
        have hinit : '>' ∈ (cs.takeWhile (· ≠ '>')).reverse := by
          rw [hrev]
          exact List.mem_cons_of_mem _ (List.mem_reverse.1 hmem)
        simpa using List.mem_takeWhile_imp (List.mem_reverse.1 hinit)
      · simp at h
  · rintro ⟨⟨hne, hgt⟩, rfl⟩
    have hbefore : ∀ c ∈ inner ++ ['/'], decide (c ≠ '>') = true := by
      intro c hc
      rcases List.mem_append.1 hc with hc | hc
      · exact decide_eq_true fun h => hgt (h ▸ hc)
      · rw [List.mem_singleton.1 hc]
        decide
    have hcs : inner ++ ['/', '>'] ++ after = (inner ++ ['/']) ++ '>' :: after := by simp
    obtain ⟨c, before, hrev⟩ := List.exists_cons_of_ne_nil (List.reverse_ne_nil_iff.2 hne)
    have hinner : inner = (c :: before).reverse := by rw [← hrev, List.reverse_reverse]
    unfold close?
    rw [hcs, List.dropWhile_append_of_pos hbefore, List.takeWhile_append_of_pos hbefore]
    simp [hinner]

/-- A text whose scan fails at an opener has no marker there. -/
theorem not_prefix_of_close?_eq_none {cs inner : List Char} (h : close? cs = none) (hinner : IsInner inner) :
    ¬ (Piece.marker inner).source <+: '<' :: ':' :: cs := by
  rintro ⟨after, heq⟩
  have hcs : cs = inner ++ ['/', '>'] ++ after := by simpa [Piece.source] using heq.symm
  rw [close?_eq_some_iff.2 ⟨hinner, hcs⟩] at h
  simp at h

/-- A scan finds nothing exactly when no marker occurs. -/
theorem next?_eq_none_iff {cs : List Char} :
    next? cs = none ↔ ∀ inner, IsInner inner → ¬ (Piece.marker inner).source <:+: cs := by
  fun_induction next? cs with
  | case1 => simp [Piece.source]
  | case2 cs inner after h =>
    obtain ⟨hinner, rfl⟩ := close?_eq_some_iff.1 h
    refine iff_of_false (by simp) fun hnone => hnone inner hinner ?_
    exact ⟨[], after, by simp [Piece.source]⟩
  | case3 cs h ih =>
    simp only [Option.map_eq_none_iff, ih]
    refine forall₂_congr fun inner hinner => not_congr ?_
    -- the scan goes on behind the colon: no marker begins at the opener, and none at the colon
    have hhere := not_prefix_of_close?_eq_none h hinner
    have hnext : ¬ (Piece.marker inner).source <+: ':' :: cs := by
      rintro ⟨after, heq⟩
      simp [Piece.source] at heq
    have hskip : (Piece.marker inner).source <:+: '<' :: ':' :: cs ↔ (Piece.marker inner).source <:+: cs := by
      rw [List.infix_cons_iff, List.infix_cons_iff]
      simp [hhere, hnext]
    exact hskip.symm
  | case4 c cs hopen ih =>
    simp only [Option.map_eq_none_iff, ih]
    refine forall₂_congr fun inner hinner => not_congr ?_
    have hhere : ¬ (Piece.marker inner).source <+: c :: cs := by
      rintro ⟨after, heq⟩
      obtain ⟨rfl, rfl⟩ := by simpa [Piece.source] using heq
      exact hopen _ rfl rfl
    rw [List.infix_cons_iff]
    simp [hhere]

/-! ## Literals -/

/-- What precedes the first marker holds none: an opener left open there would reach to the end of that
marker and take its place. -/
theorem next?_before {cs before inner after : List Char} (h : next? cs = some (before, inner, after)) :
    next? before = none := by
  fun_induction next? cs generalizing before with
  | case1 => simp at h
  | case2 cs inner' after' hclose =>
    obtain ⟨rfl, rfl, rfl⟩ := by simpa using h
    rfl
  | case3 cs hclose ih =>
    simp only [Option.map_eq_some_iff] at h
    obtain ⟨⟨before', found⟩, hnext, heq⟩ := h
    obtain ⟨rfl, rfl⟩ := by simpa using heq
    have hnone : close? before' = none := by
      rw [Option.eq_none_iff_forall_not_mem]
      rintro ⟨inner', after'⟩ hsome
      obtain ⟨hinner, hbefore⟩ := close?_eq_some_iff.1 hsome
      have hcs := eq_of_next? hnext
      rw [hbefore, List.append_assoc, List.append_assoc] at hcs
      rw [close?_eq_some_iff.2 ⟨hinner, hcs⟩] at hclose
      simp at hclose
    simp only [next?, hnone, ih hnext, Option.map_none]
  | case4 c cs hopen ih =>
    simp only [Option.map_eq_some_iff] at h
    obtain ⟨⟨before', found⟩, hnext, heq⟩ := h
    obtain ⟨rfl, rfl⟩ := by simpa using heq
    rw [next?, ih hnext, Option.map_none]
    rintro tail rfl rfl
    exact hopen _ rfl (by simpa using eq_of_next? hnext)

/-- No marker is left in the literals of a text. -/
theorem next?_of_literal_mem {cs text : List Char} (h : Piece.literal text ∈ decompose cs) :
    next? text = none := by
  fun_induction decompose cs with
  | case1 cs hnone =>
    obtain rfl := by simpa using h
    exact hnone
  | case2 cs before inner after hnext ih =>
    rcases List.mem_cons.1 h with heq | h
    · obtain rfl := by simpa using heq
      exact next?_before hnext
    · exact ih (by simpa using h)

/-! ## Texts side by side -/

/-- A marker begins at the end of one text and ends at the beginning of the next. -/
def Straddles (left right : List Char) : Prop :=
  ∃ inner opening closing, IsInner inner ∧ opening ≠ [] ∧ closing ≠ [] ∧
    (Piece.marker inner).source = opening ++ closing ∧ opening <:+ left ∧ closing <+: right

/-- Two texts side by side hold a marker if one of them does or one lies across. -/
theorem next?_append_eq_none_iff {left right : List Char} :
    next? (left ++ right) = none ↔ next? left = none ∧ next? right = none ∧ ¬ Straddles left right := by
  simp only [next?_eq_none_iff, List.infix_append_iff_ne_nil, not_or]
  constructor
  · intro h
    refine ⟨fun inner hinner => (h inner hinner).1, fun inner hinner => (h inner hinner).2.1, ?_⟩
    rintro ⟨inner, opening, closing, hinner, hparts⟩
    exact (h inner hinner).2.2 ⟨opening, closing, hparts⟩
  · rintro ⟨hleft, hright, hacross⟩ inner hinner
    refine ⟨hleft inner hinner, hright inner hinner, ?_⟩
    rintro ⟨opening, closing, hparts⟩
    exact hacross ⟨inner, opening, closing, hinner, hparts⟩

/-- Text before the left one does not hinder a marker that straddles both. -/
theorem Straddles.append_left {left right : List Char} (h : Straddles left right) (text : List Char) :
    Straddles (text ++ left) right := by
  obtain ⟨inner, opening, closing, hinner, hopening, hclosing, hsource, hsuffix, hprefix⟩ := h
  exact ⟨inner, opening, closing, hinner, hopening, hclosing, hsource,
    hsuffix.trans (List.suffix_append text left), hprefix⟩

/-- Texts without markers, written one after another, hold a marker exactly if one lies across a place where
two of them meet. -/
theorem next?_flatten_eq_none_iff {texts : List (List Char)} (h : ∀ text ∈ texts, next? text = none) :
    next? texts.flatten = none ↔
      ∀ left right, texts = left ++ right → ¬ Straddles left.flatten right.flatten := by
  constructor
  · rintro hnone left right rfl
    rw [List.flatten_append, next?_append_eq_none_iff] at hnone
    exact hnone.2.2
  · intro hacross
    induction texts with
    | nil => rfl
    | cons text texts ih =>
      rw [List.flatten_cons, next?_append_eq_none_iff]
      refine ⟨h text (by simp), ih (fun other hmem => h other (by simp [hmem])) ?_, ?_⟩
      · -- what lies across a splice further on lies across it with `text` in front, too
        rintro left right rfl hstraddles
        refine hacross (text :: left) right rfl ?_
        rw [List.flatten_cons]
        exact hstraddles.append_left text
      · simpa using hacross [text] texts rfl

/-! ## Texts without loose ends -/

/-- A text whose end begins no marker: it does not end in `<`, and a `>` follows every opener in it. -/
structure Closed (text : List Char) : Prop where
  last_ne : text.getLast? ≠ some '<'
  closes : ∀ rest, '<' :: ':' :: rest <:+ text → '>' ∈ rest

/-- No marker straddles the end of the empty text. -/
theorem Closed.nil : Closed [] :=
  ⟨by simp, by simp⟩

/-- Texts that are closed are closed one after the other. -/
theorem Closed.append {left right : List Char} (hleft : Closed left) (hright : Closed right) :
    Closed (left ++ right) := by
  refine ⟨?_, fun rest hsuffix => ?_⟩
  · rw [List.getLast?_append]
    cases hlast : right.getLast? with
    | none => simpa using hleft.last_ne
    | some c => simpa [hlast] using hright.last_ne
  · -- the opener begins in `right`, or in `left` and then both its characters stand there
    obtain ⟨before, hbefore⟩ := hsuffix
    rcases List.append_eq_append_iff.1 hbefore with ⟨opening, hopening, heq⟩ | ⟨between, -, heq⟩
    · match opening, heq with
      | [], heq => exact hright.closes rest ⟨[], by simpa using heq⟩
      | [c], heq =>
        obtain ⟨rfl, -⟩ := by simpa using heq
        exact absurd (by simp [hopening]) hleft.last_ne
      | c :: d :: tail, heq =>
        obtain ⟨rfl, rfl, rfl⟩ := by simpa using heq
        exact List.mem_append_left _ (hleft.closes tail ⟨before, hopening.symm⟩)
    · exact hright.closes rest ⟨between, heq.symm⟩

/-- Closed texts are closed one after another. -/
theorem Closed.flatten {texts : List (List Char)} (h : ∀ text ∈ texts, Closed text) :
    Closed texts.flatten := by
  induction texts with
  | nil => exact Closed.nil
  | cons text texts ih =>
    rw [List.flatten_cons]
    exact (h text (by simp)).append (ih fun other hmem => h other (by simp [hmem]))

/-- No marker begins in a text without loose ends and ends behind it. -/
theorem Closed.not_straddles {left right : List Char} (hleft : Closed left) : ¬ Straddles left right := by
  rintro ⟨inner, opening, closing, ⟨-, hgt⟩, hopening, hclosing, hsource, hsuffix, -⟩
  match opening, hopening, hsource, hsuffix with
  | [c], _, hsource, hsuffix =>
    obtain ⟨rfl, -⟩ := by simpa [Piece.source] using hsource
    obtain ⟨before, rfl⟩ := hsuffix
    exact hleft.last_ne (by simp)
  | c :: d :: rest, _, hsource, hsuffix =>
    obtain ⟨rfl, rfl, hrest⟩ := by simpa [Piece.source] using hsource
    have hmem : '>' ∈ rest := hleft.closes rest hsuffix
    -- the only `>` of a marker is its last character, which is left to `closing`
    obtain ⟨closing, last, rfl⟩ := List.eq_nil_or_concat closing |>.resolve_left hclosing
    have hinit : inner ++ ['/'] = rest ++ closing := by
      have := congrArg List.dropLast hrest
      simpa [List.dropLast_append_of_ne_nil] using this
    have hmem' : '>' ∈ inner ++ ['/'] := by
      rw [hinit]
      exact List.mem_append_left _ hmem
    rcases List.mem_append.1 hmem' with h | h
    · exact hgt h
    · simp at h

end Phrasebook.Marker
