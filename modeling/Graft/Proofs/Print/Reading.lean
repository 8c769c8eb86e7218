import Graft.Proofs.Print.Derivation
import Graft.Proofs.Print.Spacing
/-!
# Printed expressions read back

The text of an operand reads in exactly one way, and its tokens derive the tree from the nonterminal of the least level
asked for (`Formed.operand_reads`). Nothing is asked of where the tree comes from.
-/

namespace Graft.Grammar

open Lexical Graft.Tree

variable {A : Alphabet} {g : Goal} {t : Tree}

theorem Formed.operand_lexes (h : Formed A g .whole t) {c : PrintContext} (hc : c.noIn = false) (least : Nat) :
    Lexes A (Piece.join (operand t least c)).toList (tokens (operand t least c)) := by
  have hs : Spaced A (operand t least c) [] := by
    apply spaced_operand (fun r => h.spaced hc r nofun)
    rintro _ ⟨⟩
  rw [toList_join]
  simpa using hs.lexes .done

theorem Formed.operand_reads (h : Formed A g .whole t) (least : Nat) {c : PrintContext} (hc : c.noIn = false) :
    ∃ ts, (∀ ts', Lexes A (Piece.join (asOperand t (pieces t) least c)).toList ts' ↔ ts' = ts) ∧
      Derives A g (.ofLevel least) ts t := by
  rw [asOperand_eq hc]
  have hl := h.operand_lexes hc least
  refine ⟨tokens (operand t least c), fun ts' => ?_, h.operand_derives (h.derives hc) least⟩
  constructor
  · exact fun h' => hl.unique h'
  · rintro rfl
    exact hl

theorem isIdentifier_word {w : String} (hne : w.toList ≠ []) (h : w.toList.all Unicode.isAsciiLetter = true)
    (hr : w ∉ reservedWords) (hy : w ≠ "yield") (ha : w ≠ "await") : IsIdentifier A g w :=
  ⟨w.toList, isName_word hne h, by simpa using hr, fun _ => by simpa using hy, fun _ => by simpa using ha⟩

/-- The square of `-a`, an operand of `**` that has to stand in parentheses. -/
def negatedSquare : Tree :=
  .mk (.binaryExpression "**" (.mk (.unaryExpression "-" (.mk (.identifier "a")))) (.mk (.literal (.number (.ofNat 2)) "2")))

theorem negatedSquare_reads :
    Formed .reader ⟨false, false⟩ .whole negatedSquare ∧ ({} : PrintContext).noIn = false ∧
      Piece.join (asOperand negatedSquare (pieces negatedSquare) Level.call {}) = "((-a) ** 2)" ∧
      ∃ ts, (∀ ts', Lexes .reader (Piece.join (asOperand negatedSquare (pieces negatedSquare) Level.call {})).toList ts' ↔
          ts' = ts) ∧
        Derives .reader ⟨false, false⟩ (.ofLevel Level.call) ts negatedSquare := by
  have ha : IsIdentifier .reader ⟨false, false⟩ "a" :=
    isIdentifier_word (by decide) (by decide) (by decide) (by decide) (by decide)
  have h2 : IsNumeral (['2'] ++ []) := .whole (.inr (.inl (by decide))) (.inl rfl)
  have h : Formed .reader ⟨false, false⟩ .whole negatedSquare :=
    .binary (by decide) (.unary (by decide) (.leaf (.identifier ha))) (.leaf (.number h2 (by decide)))
  exact ⟨h, rfl, rfl, h.operand_reads Level.call rfl⟩

end Graft.Grammar
