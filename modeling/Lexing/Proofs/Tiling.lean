import Lexing.Proofs.Pieces

/-!
# Nothing of a text is lost

The tokens of a scan without a fault, together with the gaps between them,
are the text: each token stands where its offset says, and none could have
been longer.
-/

namespace Lexing

/-- The text that tokens and the gaps in front of them make up. -/
def spellTokens (pieces : List (List Char × Token)) : List Char :=
  spell (pieces.map fun piece => (piece.1, piece.2.lexeme))

/-- The tokens, with gaps in front of them and `tail` behind, are the text. -/
structure Tiling (source : List Char) (tokens : List Token) (pieces : List (List Char × Token))
    (tail : List Char) : Prop where
  /-- The end of the file comes once, last, and stands at the end of the text. -/
  ends : ∃ p, tokens = pieces.map Prod.snd ++ [.endOfFile p] ∧ p.offset = Text.utf8Length source
  covers : source = spellTokens pieces ++ tail
  gap_tail : IsGap tail
  gap : ∀ piece ∈ pieces, IsGap piece.1
  /-- A token stands behind everything that comes before it. -/
  offset : ∀ before gap t after, pieces = before ++ (gap, t) :: after →
    t.position.offset = Text.utf8Length (spellTokens before ++ gap)
  kind : ∀ piece ∈ pieces, piece.2.kind ∉ [.undefined, .endOfFile, .float, .dot, .comma]
  wellFormed : ∀ piece ∈ pieces, piece.2.lexeme.WellFormed
  /-- No token could have been longer. -/
  longest : ∀ before gap t after, pieces = before ++ (gap, t) :: after →
    EndsRun t.lexeme.extendedBy (spellTokens after ++ tail)

/-- Pieces that can be told apart tile their text with the tokens placed there. -/
theorem tiling_placed {mode : LineTracking} {pieces : List Piece} {tail : List Char}
    (htail : IsGap tail) (hlegible : Legible pieces tail) :
    Tiling (spell pieces ++ tail) (tokensOf mode {} pieces tail) (placed mode {} pieces) tail := by
  have hlexemes := map_lexeme_placed mode {} pieces
  have hsplit : ∀ before gap t after, placed mode {} pieces = before ++ (gap, t) :: after →
      IsGap gap ∧ t.lexeme.WellFormed ∧ EndsRun t.lexeme.extendedBy (spellTokens after ++ tail) := by
    intro before gap t after h
    rw [h, List.map_append, List.map_cons] at hlexemes
    exact hlegible _ _ _ _ hlexemes.symm
  have hmem : ∀ piece ∈ placed mode {} pieces, IsGap piece.1 ∧ piece.2.lexeme.WellFormed := by
    intro piece hpiece
    obtain ⟨before, after, h⟩ := List.append_of_mem hpiece
    exact ⟨(hsplit before _ _ after h).1, (hsplit before _ _ after h).2.1⟩
  refine ⟨⟨_, rfl, offset_endOfFile ..⟩, ?_, htail, ?_, ?_, ?_, ?_, ?_⟩
  · rw [spellTokens, hlexemes]
  · exact fun piece hpiece => (hmem piece hpiece).1
  · intro before gap t after h
    exact (offset_of_placed_eq_append h).trans (Nat.zero_add _)
  · exact fun piece hpiece => (hmem piece hpiece).2.kind_notMem
  · exact fun piece hpiece => (hmem piece hpiece).2
  · exact fun before gap t after h => (hsplit before gap t after h).2.2

/-- Whatever the settings, the tokens of a scan without a fault tile what it reads. -/
theorem exists_tiling_readable_of_scansTo {settings : Settings} {source : String}
    {tokens : List Token} (h : ScansTo settings source tokens) :
    ∃ pieces tail, Tiling (Reader.readable source).toList tokens pieces tail := by
  obtain ⟨-, pieces, tail, hsource, htail, hlegible, -, rfl⟩ := scansTo_iff_exists_pieces.mp h
  rw [hsource]
  exact ⟨_, tail, tiling_placed htail hlegible⟩

/-- A text that is not too long is read as a whole. -/
theorem exists_tiling_of_scansTo {settings : Settings} {source : String} {tokens : List Token}
    (hsource : Text.utf8Length source.toList < Position.bound)
    (h : ScansTo settings source tokens) :
    ∃ pieces tail, Tiling source.toList tokens pieces tail := by
  have htiling := exists_tiling_readable_of_scansTo h
  rwa [Reader.readable_of_utf8Length_lt hsource] at htiling

/-- A word, a number, a line break of two characters, a string and blanks. -/
theorem exists_tiling_of_scansTo_twoLines :
    Text.utf8Length "ab 1\n\r\"c\" ".toList < Position.bound ∧
    ScansTo { capacity := 4 } "ab 1\n\r\"c\" "
      [⟨.identifier, "ab", ⟨0, 0, 0⟩⟩, ⟨.integer, "1", ⟨3, 1, 0⟩⟩, ⟨.lineBreak, "\n\r", ⟨4, 1, 1⟩⟩,
        ⟨.string, "c", ⟨6, 2, 0⟩⟩, ⟨.endOfFile, "", ⟨10, 3, 0⟩⟩] ∧
    ∃ pieces tail, Tiling "ab 1\n\r\"c\" ".toList
      [⟨.identifier, "ab", ⟨0, 0, 0⟩⟩, ⟨.integer, "1", ⟨3, 1, 0⟩⟩, ⟨.lineBreak, "\n\r", ⟨4, 1, 1⟩⟩,
        ⟨.string, "c", ⟨6, 2, 0⟩⟩, ⟨.endOfFile, "", ⟨10, 3, 0⟩⟩] pieces tail := by
  have hscan : ScansTo { capacity := 4 } "ab 1\n\r\"c\" "
      [⟨.identifier, "ab", ⟨0, 0, 0⟩⟩, ⟨.integer, "1", ⟨3, 1, 0⟩⟩, ⟨.lineBreak, "\n\r", ⟨4, 1, 1⟩⟩,
        ⟨.string, "c", ⟨6, 2, 0⟩⟩, ⟨.endOfFile, "", ⟨10, 3, 0⟩⟩] :=
    ⟨_, rfl, Scan.tokens_eq_ok_iff.mpr ⟨_, _, _, _,
      .cons rfl rfl (.cons rfl rfl (.cons rfl rfl (.cons rfl rfl (.nil _)))), rfl, rfl, rfl⟩⟩
  exact ⟨by decide, hscan, exists_tiling_of_scansTo (by decide) hscan⟩

end Lexing
