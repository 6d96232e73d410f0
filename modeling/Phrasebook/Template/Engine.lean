import Phrasebook.Args
import Phrasebook.Problem

/-!
# Template engines

An engine turns the expanded text of a key into a template; a template turns arguments into text.
-/

namespace Phrasebook

/-- A compiled text: gives the final text for the arguments, if any are passed. -/
abbrev Template := Option Args → Except Problem String

/-- Compiles the text found at a key of a pair. -/
structure Engine where
  compile : Pair → Key → String → Except Problem Template

end Phrasebook
