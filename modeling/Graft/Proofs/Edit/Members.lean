import Graft.Proofs.Edit.Firm
/-!
# Members of object literals

In a tree that has been read, the members of an object literal are properties and spreads. No edit changes that, as the members of an
object literal are a firm slot: so it holds throughout every run (`Editing.run_membered`), misplaced values or not.
-/

namespace Graft

/-- A node that may stand in an object literal. -/
def Node.isObjectMember {α : Type} (n : Node α) : Bool := Slot.member.allows n

theorem Node.mem_firmly_member {α : Type} {n : Node α} {c : α} :
    c ∈ n.firmly .member ↔ ∃ properties, n = .objectExpression properties ∧ c ∈ properties := by
  cases n with
  | objectExpression properties =>
    rw [firmly, if_pos rfl]
    simp
  | _ => simp [firmly]

namespace Tree

/-- Every object literal in the tree holds members only. -/
inductive Membered : Tree → Prop
  | mk {n : Node Tree}
    (members : ∀ properties, n = .objectExpression properties → ∀ m ∈ properties, m.node.isObjectMember = true)
    (children : ∀ c ∈ n.children, Membered c) : Membered (.mk n)

theorem Membered.members {n : Node Tree} (h : Membered (.mk n)) :
    ∀ properties, n = .objectExpression properties → ∀ m ∈ properties, m.node.isObjectMember = true := by
  cases h with
  | mk members _ => exact members

theorem Membered.children {n : Node Tree} (h : Membered (.mk n)) : ∀ c ∈ n.children, Membered c := by
  cases h with
  | mk _ children => exact children

theorem membered_iff_firm {t : Tree} : t.Membered ↔ t.Firm .member := by
  constructor
  · intro h
    induction h with
    | mk members _ ih =>
      refine .mk (fun c hc => ?_) ih
      obtain ⟨properties, hn, hmem⟩ := Node.mem_firmly_member.1 hc
      exact members properties hn c hmem
  · intro h
    induction h with
    | mk firmly _ ih =>
      refine .mk (fun properties hn m hm => ?_) ih
      exact firmly m (Node.mem_firmly_member.2 ⟨properties, hn, hm⟩)

end Tree

/-- Every object literal in a slot holds members only. -/
def Store.Membered (s : Store) : Prop :=
  ∀ x properties, s.get x = .objectExpression properties → ∀ m ∈ properties, (s.get m).isObjectMember = true

theorem Store.membered_iff_firm {s : Store} : s.Membered ↔ s.Firm .member := by
  constructor
  · intro h x c hc
    obtain ⟨properties, hx, hmem⟩ := Node.mem_firmly_member.1 hc
    exact h x properties hx c hmem
  · intro h x properties hx m hm
    exact h x m (Node.mem_firmly_member.2 ⟨properties, hx, hm⟩)

/-- In a forest, the trees hold members only. -/
theorem Store.Membered.tree {s : Store} {K : Set NodeId} {x : NodeId} (h : s.Membered) (hF : Forest s.children K)
    (hin : ∀ x ∈ K, x.index < s.size) (hx : x ∈ K) : (s.tree x).Membered :=
  Tree.membered_iff_firm.2 ((membered_iff_firm.1 h).tree rfl hF hin hx)

theorem Editor.Edited.membered {e e' : Editor} (he : e.Edited e') (h : e.store.Membered) : e'.store.Membered :=
  Store.membered_iff_firm.2 (he.firm rfl (Store.membered_iff_firm.1 h))

/-- What is left behind holds members only, as all code does that can be read. -/
def Move.Membered : Move → Prop
  | .scrap trees => ∀ t ∈ trees, t.Membered
  | _ => True

theorem Move.membered_iff_firm {m : Move} : m.Membered ↔ m.Firm .member := by
  cases m with
  | scrap trees => exact forall₂_congr fun _ _ => Tree.membered_iff_firm
  | _ => exact Iff.rfl

theorem Move.IsReal.membered {m : Move} (h : m.IsReal) : m.Membered := Move.membered_iff_firm.2 (h.firm .member)

/-- From a text that can be read on, object literals hold members only. -/
theorem Editing.run_membered {text : String} {t : Tree} (ht : Source.readProgram text = .ok t) (moves : List Move)
    (hmoves : ∀ m ∈ moves, m.Membered) : ((start t).run moves).editor.store.Membered := by
  apply Store.membered_iff_firm.2
  apply run_firm rfl ht
  intro m hm
  exact Move.membered_iff_firm.1 (hmoves m hm)

end Graft
