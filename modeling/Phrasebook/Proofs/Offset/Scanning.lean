import Phrasebook.Proofs.Offset.Expansion
import Phrasebook.Proofs.Offset.Markup
import Phrasebook.Proofs.Offset.Placeholder

/-!
# The scanners by offset

References, tags and placeholders are each found by a scanner that slices the text at offsets it computes. Main
statement: `scanners_complete`. Whatever the text, each of them takes only slices that exist and comes to its end.
-/

namespace Phrasebook.Offset

/-- **The scanners slice well and come to an end.** On every text no round of a scanner takes a slice that does not
exist, each round ends the scan or leaves less to scan, and the outcome is that of scanning characters. This holds of
the search for the next marker from every boundary of a character, and from no other offset; of the expansion of
references, whatever their targets read; of the tags of a text; and of its placeholders. -/
theorem scanners_complete :
    (∀ before after : String, (markerSearch (before ++ after)).Completes before.utf8ByteSize
      ((Marker.next? after.toList).map (Site.behind before.utf8ByteSize))) ∧
    (∀ text cursor, nextMarker? text cursor = none ↔ ¬ OnBoundary text cursor) ∧
    (∀ locale home follow text,
      (expansion locale home (fun moduleId key => some (follow moduleId key)) text).Completes ⟨[], [], 0⟩
        (Library.expandPieces locale home follow (Marker.decompose text.toList))) ∧
    (∀ library pair key, read? library pair key = some (library.read pair key)) ∧
    (∀ input, tokenAt? input = some ((Markup.Token.match? input.toList).map fun (token, after) =>
      (token, input.utf8ByteSize - (String.ofList after).utf8ByteSize))) ∧
    (∀ (α : Type) (wrap : Markup.Wrapper α) text, (tagPass wrap text).Completes ⟨.start, 0, 0⟩
      ((Markup.Item.scan text.toList).foldl (Markup.Frames.step wrap) .start)) ∧
    (∀ (α : Type) (wrappers : List (String × Markup.Wrapper α)) fallback text,
      render? wrappers fallback text = some (Markup.render wrappers fallback text)) ∧
    (∀ raw, spanPass.Completes ⟨[], "", raw⟩ (gather "" (Segment.segments raw.toList))) ∧
    ∀ raw args, interpolate? raw args = some (interpolate raw args) :=
  ⟨markerSearch_completes, fun _ _ => nextMarker?_eq_none_iff, expansion_completes, read?_eq_some, tokenAt?_eq_some,
    fun _ => tagPass_completes, fun _ => render?_eq_some, spanPass_completes, interpolate?_eq_some⟩

end Phrasebook.Offset
