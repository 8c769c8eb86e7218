import Graft.Proofs.Edit.Sound
/-!
# Merging object literals

The members of the code are pending, and `mergeMembers` uses them up one by one: a member is attached whole, or it is
opened and its value attached, or its value is opened too and merged deeper down. `Merged` is what one member and
a run of them have in common, and `mergeMembers_merged` follows the recursion of the definition.
-/

namespace Graft
namespace Editor

variable {e e' e'' : Editor} {B K K' K'' : Set NodeId} {target member existing old new : NodeId}
  {members more rest : List NodeId}

/-! ## Steps of a merge -/

theorem isObject_iff {s : Store} {id : NodeId} :
    s.isObject id = true ↔ ∃ properties, s.get id = .objectExpression properties := by
  unfold Store.isObject Node.isObjectExpression
  cases s.get id <;> simp

theorem members_eq {s : Store} {id : NodeId} (h : s.isObject id = true) : s.members id = s.children id := by
  obtain ⟨properties, hp⟩ := isObject_iff.1 h
  simp [Store.members, Store.children, hp]

theorem isObject_attached {n : Node NodeId} {linked : List NodeId}
    (hn : n.isObjectExpression = (e.store.get target).isObjectExpression) (ht : target.index < e.store.size)
    (x : NodeId) : (Pending.attached e target n linked).store.isObject x = e.store.isObject x := by
  rw [Pending.attached, Store.isObject, Store.isObject]
  by_cases hx : x = target
  · rw [hx, Store.get_set_self ht, hn]
  · rw [Store.get_set_of_ne hx]

theorem appendMember_eq (member : NodeId) (h : e.store.isObject target = true) : ∃ properties,
    e.store.get target = .objectExpression properties ∧
    e.appendMember target member = Pending.attached e target (.objectExpression (properties ++ [member])) [member] := by
  obtain ⟨properties, hp⟩ := isObject_iff.1 h
  exact ⟨properties, hp, by simp [appendMember, hp, Pending.attached, Parents.link_eq_linkAll]⟩

theorem setPropertyValue_eq {key : NodeId} {kind : PropertyKind} {computed shorthand method : Bool}
    (h : e.store.get existing = .property key old kind computed shorthand method) :
    e.setPropertyValue existing new
      = Pending.attached e existing (.property key new .init computed false false) [new] := by
  simp [setPropertyValue, h, Pending.attached, Parents.link_eq_linkAll]

theorem propertyValue?_eq_some {s : Store} {property value : NodeId} (h : s.propertyValue? property = some value) :
    ∃ key kind computed shorthand method, s.get property = .property key value kind computed shorthand method := by
  unfold Store.propertyValue? at h
  split at h
  · cases h
    exact ⟨_, _, _, _, _, ‹_›⟩
  · cases h

theorem counterpart?_eq_some {s : Store} (h : counterpart? s target member = some (existing, old, new)) :
    s.propertyValue? member = some new ∧ existing ∈ s.members target ∧ s.propertyValue? existing = some old := by
  simp only [counterpart?, bind, Option.bind_eq_some_iff, pure, Option.some.injEq, Prod.mk.injEq] at h
  obtain ⟨value, hv, name, _, found, hf, was, hw, rfl, rfl, rfl⟩ := h
  exact ⟨hv, List.mem_of_find?_eq_some hf, hw⟩

end Editor

/-! ## Merging members -/

variable {e e' e'' : Editor} {B K K' K'' : Set NodeId} {target member existing old new : NodeId}
  {members more rest : List NodeId}

/-- What merging `members` into a literal of `e` did, while the nodes `rest` were waiting. -/
structure Merged (e e' : Editor) (B K K' : Set NodeId) (members rest : List NodeId) : Prop where
  evolved : Evolved e e' B K K'
  object : ∀ x, e'.store.isObject x = e.store.isObject x
  below : ∀ ℓ ∈ rest, ∀ y, Below e'.store.children ℓ y → Below e.store.children ℓ y
  stays : ∀ x ∈ K, (∀ m ∈ members, ¬ Below e.store.children m x) → x ∈ K'

namespace Merged

theorem trans (h : Merged e e' B K K' members (more ++ rest)) (h' : Merged e' e'' B K' K'' more rest) :
    Merged e e'' B K K'' (members ++ more) rest where
  evolved := h.evolved.trans h'.evolved
  object x := (h'.object x).trans (h.object x)
  below ℓ hℓ y hy := h.below ℓ (List.mem_append_right _ hℓ) y (h'.below ℓ hℓ y hy)
  stays x hx hm := by
    refine h'.stays x (h.stays x hx fun m hm' => hm m (List.mem_append_left _ hm')) fun m hm' hb => ?_
    exact hm m (List.mem_append_right _ hm') (h.below m (List.mem_append_left _ hm') x hb)

/-- What lies below a member is merged with it. -/
theorem absorb (h : Merged e e' B K K' (members ++ more) rest)
    (hm : ∀ m ∈ more, ∃ p ∈ members, Below e.store.children p m) : Merged e e' B K K' members rest := by
  refine ⟨h.evolved, h.object, h.below, fun x hx hno => h.stays x hx fun m hm' hb => ?_⟩
  rcases List.mem_append.1 hm' with hmem | hmem
  · exact hno m hmem hb
  · obtain ⟨p, hp, hpm⟩ := hm m hmem
    exact hno p hp (hpm.trans hb)

theorem skip (h : K' ⊆ K) (stays : ∀ x ∈ K, (∀ m ∈ members, ¬ Below e.store.children m x) → x ∈ K') :
    Merged e e B K K' members rest :=
  ⟨.refl e B h, fun _ => rfl, fun _ _ _ hy => hy, stays⟩

/-- A write to the literal or to one of its members. -/
theorem attached {w : NodeId} {n : Node NodeId} {linked ls : List NodeId} (h : Pending e B K w (ls ++ rest))
    (hn : n.children.Nodup) (hcs : ∀ c ∈ n.children, c ∈ e.store.children w ∨ c ∈ ls)
    (hl : ∀ c ∈ linked, c ∈ n.children) (ho : n.isObjectExpression = (e.store.get w).isObjectExpression) :
    Pending (Pending.attached e w n linked) B K w rest ∧
      Merged e (Pending.attached e w n linked) B K K members rest := by
  obtain ⟨hp, hev⟩ := h.attach linked hn hcs hl
  refine ⟨hp, hev, Editor.isObject_attached ho (h.sound.inside w h.spare.mem), fun ℓ hℓ y hy => ?_, fun x hx _ => hx⟩
  exact h.below_attached (List.mem_append_right _ hℓ) hy

/-- Merging deeper down leaves the nodes in waiting spare for the literal. -/
theorem back {v : NodeId} (h : Merged e e' B K K' members rest) (hp : Pending e' B K' v rest)
    (hw : Pending e B K target (members ++ rest)) : Pending e' B K' target rest := by
  refine hp.moved ?_ fun ℓ hℓ hb => hw.spare.above ℓ (List.mem_append_right _ hℓ) (h.below ℓ hℓ target hb)
  exact h.stays target hw.spare.mem fun m hm => hw.spare.above m (List.mem_append_left _ hm)

end Merged

namespace Editor

/-- A member with a new key is added at the end. -/
theorem appendMember_merged (h : Pending e B K target (member :: rest)) (ho : e.store.isObject target = true) :
    Pending (e.appendMember target member) B K target rest ∧
      Merged e (e.appendMember target member) B K K [member] rest := by
  obtain ⟨properties, hp, happ⟩ := appendMember_eq member ho
  have hkids : e.store.children target = properties := by simp [Store.children, hp]
  have hnew : member ∉ properties := hkids ▸ (h.spare.loose member List.mem_cons_self).2 target h.spare.mem
  rw [happ]
  have h' : Pending e B K target ([member] ++ rest) := h
  refine Merged.attached h' ?_ ?_ ?_ ?_
  · rw [Node.children_objectExpression, ← hkids]
    exact List.concat_eq_append ▸ (h.spare.forest.nodup target h.spare.mem).concat (hkids ▸ hnew)
  · simp [hkids]
  · simp
  · simp [hp, Node.isObjectExpression]

/-- A property takes a pending value. -/
theorem setPropertyValue_merged (members : List NodeId) (h : Pending e B K existing (new :: rest))
    (hv : e.store.propertyValue? existing = some old) :
    Pending (e.setPropertyValue existing new) B K existing rest ∧
      Merged e (e.setPropertyValue existing new) B K K members rest := by
  obtain ⟨key, kind, computed, shorthand, method, hp⟩ := propertyValue?_eq_some hv
  have hkids : e.store.children existing = [key, old] := by simp [Store.children, hp]
  have hne : key ≠ new := by
    rintro rfl
    exact (h.spare.loose key List.mem_cons_self).2 existing h.spare.mem (by simp [hkids])
  rw [setPropertyValue_eq hp]
  have h' : Pending e B K existing ([new] ++ rest) := h
  refine Merged.attached h' ?_ ?_ ?_ ?_
  · simpa using hne
  · simp [hkids]
  · simp
  · simp [hp, Node.isObjectExpression]

theorem mem_children_of_propertyValue? {s : Store} {property value : NodeId}
    (h : s.propertyValue? property = some value) : value ∈ s.children property := by
  obtain ⟨key, kind, computed, shorthand, method, hp⟩ := propertyValue?_eq_some h
  simp [Store.children, hp]

/-- A pending node is opened, and some of what it held goes on being pending. -/
theorem parts_pending {g : NodeId} {parts : List NodeId} (h : Pending e B K target (g :: rest))
    (hs : parts.Sublist (e.store.children g)) :
    ∃ K', Pending e B K' target (parts ++ rest) ∧ Merged e e B K K' [g] (parts ++ rest) := by
  refine ⟨K \ {g}, h.opened.1.take (hs.append_right rest).subperm, .skip (fun x hx => hx.1) fun x hx hg => ⟨hx, ?_⟩⟩
  rintro rfl
  exact hg x List.mem_cons_self (.refl x)

/-- The new value of a property is set. -/
theorem replaced_merged (h : Pending e B K target (member :: rest)) (hmem : existing ∈ e.store.children target)
    (hv : e.store.propertyValue? member = some new) (hold : e.store.propertyValue? existing = some old) :
    ∃ K', Pending (e.setPropertyValue existing new) B K' target rest ∧
      Merged e (e.setPropertyValue existing new) B K K' [member] rest := by
  have hnew : new ∈ e.store.children member := mem_children_of_propertyValue? hv
  obtain ⟨K₁, hp₁, hm₁⟩ := parts_pending h (List.singleton_sublist.2 hnew)
  obtain ⟨hp₂, hm₂⟩ := setPropertyValue_merged [new] (hp₁.at_kid hmem) hold
  have hm : Merged e (e.setPropertyValue existing new) B K K₁ [member] rest :=
    (hm₁.trans hm₂).absorb (by simpa using Below.kid hnew)
  exact ⟨K₁, hm.back hp₂ h, hm⟩

/-- The new value is merged into the old one. -/
theorem deeper_merged (h : Pending e B K target (member :: rest)) (hmem : existing ∈ e.store.children target)
    (hv : e.store.propertyValue? member = some new) (hold : e.store.propertyValue? existing = some old)
    (ho : e.store.isObject new = true)
    (inner : ∀ {K}, Pending e B K old (e.store.members new ++ rest) →
      ∃ K', Pending e' B K' old rest ∧ Merged e e' B K K' (e.store.members new) rest) :
    ∃ K', Pending e' B K' target rest ∧ Merged e e' B K K' [member] rest := by
  have hnew : new ∈ e.store.children member := mem_children_of_propertyValue? hv
  obtain ⟨K₁, hp₁, hm₁⟩ := parts_pending h (List.singleton_sublist.2 hnew)
  obtain ⟨K₂, hp₂, hm₂⟩ := parts_pending hp₁ (List.Sublist.refl _)
  rw [← members_eq ho] at hp₂ hm₂
  obtain ⟨K₃, hp₃, hm₃⟩ := inner ((hp₂.at_kid hmem).at_kid (mem_children_of_propertyValue? hold))
  have hm₂₃ : Merged e e' B K₁ K₃ [new] rest :=
    (hm₂.trans hm₃).absorb fun m hm => ⟨new, List.mem_cons_self, .kid (members_eq ho ▸ hm)⟩
  have hm : Merged e e' B K K₃ [member] rest := (hm₁.trans hm₂₃).absorb (by simpa using Below.kid hnew)
  exact ⟨K₃, hm.back hp₃ h, hm⟩

/-- The members of the new value are pending for the old one. -/
theorem inner_pending (h : Pending e B K target (member :: rest)) (hmem : existing ∈ e.store.children target)
    (hv : e.store.propertyValue? member = some new) (hold : e.store.propertyValue? existing = some old)
    (ho : e.store.isObject new = true) : ∃ K', Pending e B K' old (e.store.members new ++ rest) := by
  obtain ⟨K₁, hp₁, -⟩ := parts_pending h (List.singleton_sublist.2 (mem_children_of_propertyValue? hv))
  obtain ⟨K₂, hp₂, -⟩ := parts_pending hp₁ (List.Sublist.refl _)
  rw [← members_eq ho] at hp₂
  exact ⟨K₂, (hp₂.at_kid hmem).at_kid (mem_children_of_propertyValue? hold)⟩

/-- Members that are not merged are let go. -/
theorem rest_pending (h : Pending e B K target (members ++ rest)) :
    ∃ K', Pending e B K' target rest ∧ Merged e e B K K' members rest :=
  ⟨K, h.take (List.sublist_append_right _ _).subperm, .skip subset_rfl fun _ hx _ => hx⟩

/-- Merging uses up the members that it is given and leaves the others pending. -/
theorem mergeMembers_merged (depth : Nat) (h : Pending e B K target (members ++ rest))
    (ho : e.store.isObject target = true) :
    ∃ K', Pending (e.mergeMembers target depth members) B K' target rest ∧
      Merged e (e.mergeMembers target depth members) B K K' members rest := by
  induction depth generalizing e K target members rest with
  | zero => simpa only [mergeMembers] using rest_pending h
  | succ depth ih =>
    cases members with
    | nil => simpa only [mergeMembers] using rest_pending h
    | cons member more =>
      -- one member is merged, then the rest by induction
      have go {e₁ : Editor} (hm : ∃ K₁, Pending e₁ B K₁ target (more ++ rest) ∧
            Merged e e₁ B K K₁ [member] (more ++ rest)) :
          ∃ K', Pending (e₁.mergeMembers target depth more) B K' target rest ∧
            Merged e (e₁.mergeMembers target depth more) B K K' (member :: more) rest := by
        obtain ⟨K₁, hp₁, hm₁⟩ := hm
        obtain ⟨K', hp', hm'⟩ := ih hp₁ ((hm₁.object target).trans ho)
        exact ⟨K', hp', hm₁.trans hm'⟩
      rw [mergeMembers]
      split
      next existing old new hc =>
        obtain ⟨hv, hmem, hold⟩ := counterpart?_eq_some hc
        rw [members_eq ho] at hmem
        split
        next hobj =>
          obtain ⟨hoo, hon⟩ := Bool.and_eq_true_iff.1 hobj
          exact go (deeper_merged h hmem hv hold hon fun hp => ih hp hoo)
        next => exact go (replaced_merged h hmem hv hold)
      next => exact go ⟨K, appendMember_merged h ho⟩

end Editor
end Graft
