import Graft.Proofs.Print.Containment
import Graft.Proofs.Print.Writing
/-!
# The first clause of a counting loop

A bare `in` in the first clause would turn `for (a; b; c)` into a loop over something, and the flag that keeps it out is set, cleared
and put back all over the printer. The clause has no `in` outside of brackets and ends at the first semicolon there, and the writer
comes out of every node with the flag and the depth it went in with.
-/

namespace Graft

open Lexical

namespace Tree

/-- What stands between `for (` and the first semicolon outside of brackets has no `in` outside of brackets, in any context. Any
tree is written as it prints, and the flag and the depth stay as they were. -/
theorem loop_clause_bare :
    (∀ (σ : Slot) (init test update : Option Tree) (body : Tree) (c : PrintContext),
      WellFormed σ (.mk (.forStatement init test update body)) →
      ∃ clause rest, pieces (.mk (.forStatement init test update body)) c =
          [.mark "for", .blank, .mark "("] ++ clause ++ .mark ";" :: rest ∧
        Balanced (tokens clause) ∧ ";" ∉ bare (tokens clause) ∧ "in" ∉ bare (tokens clause)) ∧
    ∀ (t : Tree) (w : Writer), (write t w).out = w.out ++ pieces t ⟨w.depth, w.noIn⟩ ∧
      (write t w).noIn = w.noIn ∧ (write t w).depth = w.depth := by
  refine ⟨fun σ init test update body c h => ?_, fun t w => ?_⟩
  · have hclear : Clear true (initializer init c) := h.clear_initializer
    refine ⟨initializer init c, laterClause test c ++ [.mark ";"] ++ laterClause update c ++ [.mark ")", .blank] ++
      asStatement body (pieces body) c, ?_, hclear.balanced, fun hs => ?_, fun hin => ?_⟩
    · rw [pieces_forStatement]
      simp
    · exact (hclear.of_mem_bare _ hs).1 rfl
    · exact (hclear.of_mem_bare _ hin).2 rfl rfl
  · rw [write_eq]
    exact ⟨rfl, rfl, rfl⟩

/-- A loop whose first clause tests for members at every level: in a function with loops of its own, in a class and bare. -/
def membershipLoop : Tree :=
  let name (s : String) : Tree := .mk (.identifier s)
  let isIn (l r : Tree) : Tree := .mk (.binaryExpression "in" l r)
  let block (ts : List Tree) : Tree := .mk (.blockStatement ts)
  let declared (s : String) (value : Tree) : Tree := .mk (.variableDeclarator (name s) (some value))
  let function (params body : List Tree) : Tree := .mk (.functionExpression ⟨none, params, block body, false, false⟩)
  let found : Tree := .mk (.assignmentExpression "=" (name "i") (isIn (name "a") (name "x")))
  let searching : Tree := function [name "x"]
    [.mk (.forInStatement (name "k") (name "x") (block [])), .mk (.forStatement (some found) none none (block []))]
  let testing : Tree := function [] [.mk (.returnStatement (some (isIn (name "b") (.mk .thisExpression))))]
  let classed : Tree :=
    .mk (.classExpression ⟨none, none, .mk (.classBody [.mk (.methodDefinition (name "in") testing .method false false)])⟩)
  let member : Tree := .mk (.memberExpression (name "o") (name "in") false false)
  let plain : Tree := .mk (.logicalExpression "&&" (isIn (name "c") (name "o")) member)
  let declarations : List Tree := [declared "f" searching, declared "g" classed, declared "y" plain]
  .mk (.forStatement (some (.mk (.variableDeclaration .let declarations))) none none (block []))

theorem membershipLoop_wellFormed : WellFormed .statement membershipLoop := by
  simp [membershipLoop, WellFormed.iff_mk, Slot.allows, Slot.ofDeclarator, Slot.ofKey, Node.places, Node.placed,
    Node.funcPlaces, Node.classPlaces, Node.isVerbatim, Node.Spelled, Node.words, Node.chained, Node.isStatement, Node.isExpression,
    Node.isBlock, Node.isPattern, Node.isKey, Node.isBareIn, isBracket, opening?, closing?]

/-- Only the `in` that stands bare gets parentheses, and the one of a method in the loop does not. -/
example : membershipLoop.print = "for (let f = function (x) \x7b\n  for (k in x) \x7b\x7d\n  for (i = (a in x);;) \x7b\x7d\n\x7d, " ++
    "g = class \x7b\n  in() \x7b\n    return b in this;\n  \x7d\n\x7d, y = (c in o) && o.in;;) \x7b\x7d" := by
  decide +kernel

theorem membershipLoop_clause_bare : WellFormed .statement membershipLoop ∧
    ∃ clause rest, pieces membershipLoop {} = [.mark "for", .blank, .mark "("] ++ clause ++ .mark ";" :: rest ∧
      Balanced (tokens clause) ∧ ";" ∉ bare (tokens clause) ∧ "in" ∉ bare (tokens clause) :=
  ⟨membershipLoop_wellFormed, loop_clause_bare.1 .statement _ _ _ _ {} membershipLoop_wellFormed⟩

end Tree
end Graft
