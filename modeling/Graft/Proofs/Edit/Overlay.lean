import Graft.Proofs.Edit.Merge
import Graft.Proofs.Edit.Rewriting
import Graft.Proofs.Query.Values
/-!
# Merging trees

`Tree.mergeMembers` merges the members of one object literal into those of another, on trees. Merging in a store comes to that: what
the literal is afterwards, `Overlaid` says, and that nothing else has changed. A member is appended, or replaces the value of the
first one with its key, or is merged into that value (`appendMember_overlaid`, `replaced_overlaid`, `deeper_overlaid`), and
`mergeMembers_overlaid` goes through the members one by one.
-/

namespace Graft
namespace Tree

/-! ## Merging -/

/-- Changes the first member with a key, if that can be done. -/
def changeFirst (name : String) (change : Tree → Option Tree) : List Tree → Option (List Tree)
  | [] => none
  | member :: rest =>
    if member.memberKey? = some name then (change member).map (· :: rest)
    else (changeFirst name change rest).map (member :: ·)

/-- The property with another value. It becomes a plain `key: value`. -/
def withValue? (property value : Tree) : Option Tree :=
  match property.node with
  | .property key _ _ computed _ _ => some (.mk (.property key value .init computed false false))
  | _ => none

mutual
/-- Merges members into those of an object literal, one after the other. -/
def mergeMembers (old : List Tree) : List Tree → List Tree
  | [] => old
  | member :: rest => mergeMembers (mergeMember old member) rest

/-- The value of a member goes to the first member with its key. A member whose key is new, or that has none, comes last. -/
def mergeMember (old : List Tree) : Tree → List Tree
  | .mk (.property key value kind computed shorthand method) =>
    let added := old ++ [.mk (.property key value kind computed shorthand method)]
    match key.keyName? computed with
    | some name => (changeFirst name (fun property => mergeInto property value) old).getD added
    | none => added
  | member => old ++ [member]

/-- A property takes a value; an object literal is merged into one that is there. -/
def mergeInto (property : Tree) : Tree → Option Tree
  | .mk (.objectExpression members) =>
    match property.node with
    | .property key old kind computed shorthand method =>
      if old.isObject then
        some (.mk (.property key (.mk (.objectExpression (mergeMembers old.members members))) kind computed shorthand method))
      else withValue? property (.mk (.objectExpression members))
    | _ => none
  | value => withValue? property value
end

theorem mergeMember_eq (old : List Tree) (member : Tree) : mergeMember old member =
    (member.propertyValue?.bind fun value => member.memberKey?.bind fun name =>
      changeFirst name (fun property => mergeInto property value) old).getD (old ++ [member]) := by
  obtain ⟨n⟩ := member
  cases n with
  | property key value kind computed shorthand method =>
    rw [mergeMember, propertyValue?, memberKey?]
    dsimp only [node]
    rw [Option.bind_some]
    cases key.keyName? computed <;> rfl
  | _ => rfl

theorem mergeMembers_append (old members more : List Tree) :
    mergeMembers old (members ++ more) = mergeMembers (mergeMembers old members) more := by
  induction members generalizing old with
  | nil => rw [mergeMembers, List.nil_append]
  | cons m members ih => rw [List.cons_append, mergeMembers, ih, mergeMembers]

section First
variable {name : String} {change : Tree → Option Tree} {pre post : List Tree} {property member value old : Tree}

theorem changeFirst_none (h : ∀ m ∈ pre, m.memberKey? ≠ some name) : changeFirst name change pre = none := by
  induction pre with
  | nil => rfl
  | cons m pre ih =>
    rw [changeFirst, if_neg (h m List.mem_cons_self), ih fun m' hm' => h m' (List.mem_cons_of_mem m hm')]
    rfl

theorem changeFirst_append (h : ∀ m ∈ pre, m.memberKey? ≠ some name) (hp : property.memberKey? = some name) :
    changeFirst name change (pre ++ property :: post) = (change property).map fun changed => pre ++ changed :: post := by
  induction pre with
  | nil => rw [List.nil_append, changeFirst, if_pos hp]; rfl
  | cons m pre ih =>
    rw [List.cons_append, changeFirst, if_neg (h m List.mem_cons_self), ih fun m' hm' => h m' (List.mem_cons_of_mem m hm'),
      Option.map_map]
    rfl

theorem mergeInto_deeper {key : Tree} {kind : PropertyKind} {computed shorthand method : Bool}
    (hp : property.node = .property key old kind computed shorthand method) (ho : old.isObject = true)
    (hv : value.isObject = true) : mergeInto property value = some (.mk (.property key
      (.mk (.objectExpression (mergeMembers old.members value.members))) kind computed shorthand method)) := by
  obtain ⟨n⟩ := value
  cases n with
  | objectExpression members =>
    rw [mergeInto, hp]
    dsimp only
    rw [if_pos ho]
    rfl
  | _ => cases hv

theorem mergeInto_replaced {key : Tree} {kind : PropertyKind} {computed shorthand method : Bool}
    (hp : property.node = .property key old kind computed shorthand method)
    (h : ¬ (old.isObject = true ∧ value.isObject = true)) :
    mergeInto property value = some (.mk (.property key value .init computed false false)) := by
  have hset : withValue? property value = some (.mk (.property key value .init computed false false)) := by rw [withValue?, hp]
  obtain ⟨n⟩ := value
  cases n with
  | objectExpression members =>
    rw [mergeInto, hp]
    dsimp only
    rw [if_neg fun ho => h ⟨ho, rfl⟩, hset]
  | _ => exact hset

theorem mergeInto_none (hp : property.propertyValue? = none) : mergeInto property value = none := by
  have hset (value : Tree) : withValue? property value = none := by
    unfold withValue?
    split
    next hn => simp [propertyValue?, hn] at hp
    next => rfl
  obtain ⟨n⟩ := value
  cases n with
  | objectExpression members =>
    rw [mergeInto]
    split
    next hn => simp [propertyValue?, hn] at hp
    next => rfl
  | _ => exact hset _

theorem mergeMember_new (hv : member.propertyValue? = some value) (hk : member.memberKey? = some name)
    (hnew : ∀ m ∈ pre, m.memberKey? ≠ some name) : mergeMember pre member = pre ++ [member] := by
  rw [mergeMember_eq, hv, hk, Option.bind_some, Option.bind_some, changeFirst_none hnew]
  rfl

theorem mergeMember_found {changed : Tree} (hv : member.propertyValue? = some value) (hk : member.memberKey? = some name)
    (hpre : ∀ m ∈ pre, m.memberKey? ≠ some name) (hp : property.memberKey? = some name)
    (hc : mergeInto property value = some changed) :
    mergeMember (pre ++ property :: post) member = pre ++ changed :: post := by
  rw [mergeMember_eq, hv, hk, Option.bind_some, Option.bind_some, changeFirst_append hpre hp, hc]
  rfl

end First
end Tree

theorem Node.map_objectExpression {α β : Type} (f : α → β) (properties : List α) :
    (Node.objectExpression properties).map f = .objectExpression (properties.map f) :=
  congrArg Node.objectExpression (Node.traverseList_pure (m := Id) (fun _ => rfl) properties)

/-! ## Merging in a store -/

section
variable {s s' s'' : Store} {K : Set NodeId} {target : NodeId} {members more : List NodeId}

/-- `s'` is `s` with the members merged into the literal `target`. -/
structure Overlaid (s s' : Store) (target : NodeId) (members : List NodeId) : Prop where
  rewritten : s.Rewritten s' (target :: members)
  tree : s'.tree target = .mk (.objectExpression (Tree.mergeMembers (s.tree target).members (members.map s.tree)))

theorem Overlaid.refl (ho : s.isObject target = true) (hF : Forest s.children K) (hin : ∀ x ∈ K, x.index < s.size)
    (ht : target ∈ K) : Overlaid s s target [] where
  rewritten := .refl s [target]
  tree := by
    obtain ⟨properties, hp⟩ := Editor.isObject_iff.1 ho
    rw [List.map_nil, Tree.mergeMembers, Store.members_tree hF hin ht, Store.tree_eq hF hin ht, Store.members, hp,
      Node.map_objectExpression]

theorem Overlaid.trans (h : Overlaid s s' target members) (h' : Overlaid s' s'' target more)
    (hmore : ∀ m ∈ more, ∀ p ∈ target :: members, Apart s.children p m) : Overlaid s s'' target (members ++ more) where
  rewritten := by
    refine (h.rewritten.trans h'.rewritten).widen fun p hp => .of_mem ?_
    simp only [List.mem_append, List.mem_cons] at hp ⊢
    tauto
  tree := by
    have hlater : more.map s'.tree = more.map s.tree :=
      List.map_congr_left fun m hm => h.rewritten.tree_apart (hmore m hm)
    rw [h'.tree, h.tree, hlater, List.map_append, Tree.mergeMembers_append]
    rfl

end

namespace Editor

variable {e e' : Editor} {B K K' : Set NodeId} {target member existing old new : NodeId} {name : String}
  {members pre post rest : List NodeId}

theorem findProperty?_eq_some {s : Store} (h : s.findProperty? target name = some existing) : ∃ pre post,
    s.members target = pre ++ existing :: post ∧ (∀ m ∈ pre, s.memberKey? m ≠ some name) ∧
      s.memberKey? existing = some name := by
  obtain ⟨hkey, pre, post, hsplit, hpre⟩ := List.find?_eq_some_iff_append.1 h
  exact ⟨pre, post, hsplit, fun m hm => by simpa using hpre m hm, by simpa using hkey⟩

/-- The counterpart of a member is the first one with its key. -/
theorem counterpart?_first {s : Store} (h : counterpart? s target member = some (existing, old, new)) : ∃ name pre post,
    s.memberKey? member = some name ∧ s.members target = pre ++ existing :: post ∧
      (∀ m ∈ pre, s.memberKey? m ≠ some name) ∧ s.memberKey? existing = some name := by
  simp only [counterpart?, bind, Option.bind_eq_some_iff, pure, Option.some.injEq, Prod.mk.injEq] at h
  obtain ⟨_, -, name, hname, found, hfound, _, -, rfl, -, -⟩ := h
  obtain ⟨pre, post, hfirst⟩ := findProperty?_eq_some hfound
  exact ⟨name, pre, post, hname, hfirst⟩

section Forest
variable {s : Store} (hF : Forest s.children K) (hin : ∀ x ∈ K, x.index < s.size) (ht : target ∈ K) (hm : member ∈ K)
include hF hin ht hm

/-- A member without a counterpart comes last. -/
theorem mergeMember_of_none (h : counterpart? s target member = none) :
    Tree.mergeMember (s.tree target).members (s.tree member) = (s.tree target).members ++ [s.tree member] := by
  have hmem {m : NodeId} (hm : m ∈ s.members target) : m ∈ K := Store.members_mem hF ht hm
  rw [Tree.mergeMember_eq, Store.propertyValue?_tree hF hin hm, Store.memberKey?_tree hF hin hm]
  cases hv : s.propertyValue? member with
  | none => rfl
  | some value =>
    cases hk : s.memberKey? member with
    | none => rfl
    | some name =>
      have hchange :
          Tree.changeFirst name (fun property => Tree.mergeInto property (s.tree value)) (s.tree target).members = none := by
        rw [Store.members_tree hF hin ht]
        cases hf : s.findProperty? target name with
        | none =>
          refine Tree.changeFirst_none ?_
          simp only [List.forall_mem_map]
          intro m hm
          rw [Store.memberKey?_tree hF hin (hmem hm)]
          simpa using List.find?_eq_none.1 hf m hm
        | some existing =>
          -- the first member with the key is no property, so it takes no value
          have hno : s.propertyValue? existing = none :=
            Option.eq_none_iff_forall_ne_some.2 (by simpa [counterpart?, hv, hk, hf] using h)
          obtain ⟨pre, post, hsplit, hpre, hkey⟩ := findProperty?_eq_some hf
          have hex : existing ∈ K := hmem (by simp [hsplit])
          rw [hsplit, List.map_append, List.map_cons, Tree.changeFirst_append, Tree.mergeInto_none]
          · rfl
          · rw [Store.propertyValue?_tree hF hin hex, hno]
            rfl
          · simp only [List.forall_mem_map]
            intro m hm
            rw [Store.memberKey?_tree hF hin (hmem (by simp [hsplit, hm]))]
            exact hpre m hm
          · rw [Store.memberKey?_tree hF hin hex, hkey]
      simp only [Option.map_some, Option.bind_some, hchange, Option.getD_none]

/-- The counterpart of a member changes, where it stands. -/
theorem mergeMember_of_some {changed : Tree} (hv : s.propertyValue? member = some new) (hk : s.memberKey? member = some name)
    (hsplit : s.members target = pre ++ existing :: post) (hpre : ∀ m ∈ pre, s.memberKey? m ≠ some name)
    (hkey : s.memberKey? existing = some name) (hc : Tree.mergeInto (s.tree existing) (s.tree new) = some changed) :
    Tree.mergeMember (s.tree target).members (s.tree member) = pre.map s.tree ++ changed :: post.map s.tree := by
  have hmem {m : NodeId} (hm : m ∈ pre ++ existing :: post) : m ∈ K := Store.members_mem hF ht (hsplit ▸ hm)
  have hkm : (s.tree member).memberKey? = some name := (Store.memberKey?_tree hF hin hm).trans hk
  rw [Store.members_tree hF hin ht, hsplit, List.map_append, List.map_cons]
  refine Tree.mergeMember_found ?_ hkm ?_ ?_ hc
  · rw [Store.propertyValue?_tree hF hin hm, hv]
    rfl
  · simp only [List.forall_mem_map]
    intro m hm
    rw [Store.memberKey?_tree hF hin (hmem (by simp [hm]))]
    exact hpre m hm
  · rw [Store.memberKey?_tree hF hin (hmem (by simp)), hkey]

end Forest

/-! ### One member -/

/-- A member whose key the literal has: the first property with that key stands between `pre` and `post`. -/
structure Meets (s : Store) (target member existing key old new : NodeId) (kind : PropertyKind) (computed shorthand method : Bool)
    (pre post : List NodeId) : Prop where
  literal : s.get target = .objectExpression (pre ++ existing :: post)
  property : s.get existing = .property key old kind computed shorthand method
  node : (s.tree existing).node = .property (s.tree key) (s.tree old) kind computed shorthand method
  value : s.propertyValue? member = some new
  apart : ∀ p ∈ pre ++ post, Apart s.children existing p
  merged : ∀ changed, Tree.mergeInto (s.tree existing) (s.tree new) = some changed →
    Tree.mergeMember (s.tree target).members (s.tree member) = pre.map s.tree ++ changed :: post.map s.tree

namespace Meets
variable {s : Store} {key : NodeId} {kind : PropertyKind} {computed shorthand method : Bool}
  (h : Meets s target member existing key old new kind computed shorthand method pre post)
include h

theorem mem : existing ∈ s.children target := by simp [Store.children, h.literal]

theorem kids : s.children existing = [key, old] := by simp [Store.children, h.property]

theorem below_key : Below s.children existing key := .kid (by simp [h.kids])

theorem below_old : Below s.children existing old := .kid (by simp [h.kids])

theorem below_new : Below s.children member new := .kid (mem_children_of_propertyValue? h.value)

theorem known (hF : Forest s.children K) (ht : target ∈ K) (hm : member ∈ K) : existing ∈ K ∧ old ∈ K ∧ new ∈ K := by
  have hex : existing ∈ K := hF.closed target ht existing h.mem
  exact ⟨hex, hF.below_mem hex h.below_old, hF.below_mem hm h.below_new⟩

end Meets

/-- A literal one of whose members has changed. -/
theorem tree_changed (h' : Pending e' B K' target rest) (hget : e'.store.get target = .objectExpression (pre ++ existing :: post))
    (hsame : ∀ p ∈ pre ++ post, e'.store.tree p = e.store.tree p) :
    e'.store.tree target = .mk (.objectExpression (pre.map e.store.tree ++ e'.store.tree existing :: post.map e.store.tree)) := by
  rw [Store.tree_eq h'.sound.forest h'.sound.inside h'.spare.mem, hget, Node.map_objectExpression, List.map_append, List.map_cons,
    List.map_congr_left fun p hp => hsame p (List.mem_append_left post hp),
    List.map_congr_left fun p hp => hsame p (List.mem_append_right pre hp)]

theorem tree_property {key value : NodeId} {kind : PropertyKind} {computed shorthand method : Bool}
    (h' : Pending e' B K' target rest) (hget : e'.store.get target = .objectExpression (pre ++ existing :: post))
    (hp : e'.store.get existing = .property key value kind computed shorthand method) : e'.store.tree existing
      = .mk (.property (e'.store.tree key) (e'.store.tree value) kind computed shorthand method) := by
  have hex : existing ∈ K' := by
    refine h'.sound.forest.closed target h'.spare.mem existing ?_
    rw [Store.children, hget]
    simp
  rw [Store.tree_eq h'.sound.forest h'.sound.inside hex, hp]
  rfl

section Member
variable (h : Pending e B K target (member :: rest)) (ho : e.store.isObject target = true)
include h ho

theorem meets (hc : counterpart? e.store target member = some (existing, old, new)) :
    ∃ key kind computed shorthand method pre post,
      Meets e.store target member existing key old new kind computed shorthand method pre post := by
  obtain ⟨hv, -, hold⟩ := counterpart?_eq_some hc
  obtain ⟨name, pre, post, hname, hsplit, hpre, hkey⟩ := counterpart?_first hc
  obtain ⟨key, kind, computed, shorthand, method, hp⟩ := propertyValue?_eq_some hold
  obtain ⟨properties, hobject⟩ := isObject_iff.1 ho
  have hmK : member ∈ K := (h.spare.loose member List.mem_cons_self).1
  have hkids : e.store.children target = pre ++ existing :: post := by rw [← members_eq ho, hsplit]
  have hex : existing ∈ K := h.sound.forest.closed target h.spare.mem existing (by simp [hkids])
  refine ⟨key, kind, computed, shorthand, method, pre, post, ?_, hp, ?_, hv, fun p hp => ?_, fun changed hchanged => ?_⟩
  · rw [hobject, ← hsplit, Store.members, hobject]
  · rw [Store.node_tree h.sound.forest h.sound.inside hex, hp]
    rfl
  · have hn := h.spare.forest.nodup target h.spare.mem
    rw [hkids, List.nodup_middle, List.nodup_cons] at hn
    refine h.sound.forest.apart_siblings h.spare.mem (by simp [hkids]) ?_ ?_
    · rw [hkids]
      exact List.perm_middle.symm.subset (List.mem_cons_of_mem existing hp)
    · rintro rfl
      exact hn.1 hp
  · exact mergeMember_of_some h.sound.forest h.sound.inside h.spare.mem hmK hv hname hsplit hpre hkey hchanged

theorem appendMember_overlaid (hc : counterpart? e.store target member = none) :
    Overlaid e.store (e.appendMember target member).store target [member] := by
  obtain ⟨properties, hp, happ⟩ := appendMember_eq member ho
  obtain ⟨h', -⟩ := appendMember_merged h ho
  have hF := h.sound.forest
  have hw : target.index < e.store.size := h.sound.inside target h.spare.mem
  have hkids : e.store.children target = properties := by simp [Store.children, hp]
  rw [happ] at h' ⊢
  refine ⟨.set hw (.of_mem List.mem_cons_self) fun c hc => ?_, ?_⟩
  · rcases List.mem_append.1 (Node.children_objectExpression _ ▸ hc) with hc | hc
    · exact ⟨target, List.mem_cons_self, .kid (hkids ▸ hc)⟩
    · exact .of_mem (List.mem_cons_of_mem target hc)
  · have hmember : (e.store.set target (.objectExpression (properties ++ [member]))).tree member = e.store.tree member :=
      Store.tree_set_aside (h.spare.above member List.mem_cons_self)
    have hold (p : NodeId) (hp : p ∈ properties) :
        (e.store.set target (.objectExpression (properties ++ [member]))).tree p = e.store.tree p :=
      Store.tree_set_aside (hF.not_below_kid h.spare.mem (hkids ▸ hp))
    have hmembers : (e.store.tree target).members = properties.map e.store.tree := by
      rw [Store.members_tree hF h.sound.inside h.spare.mem, members_eq ho, hkids]
    have hmK := (h.spare.loose member List.mem_cons_self).1
    rw [Store.tree_eq h'.sound.forest h'.sound.inside h'.spare.mem, List.map_singleton, Tree.mergeMembers, Tree.mergeMembers,
      mergeMember_of_none hF h.sound.inside h.spare.mem hmK hc, hmembers]
    simp only [Pending.attached]
    rw [Store.get_set_self hw, Node.map_objectExpression, List.map_append, List.map_singleton, hmember,
      List.map_congr_left hold]

omit ho in
/-- A member lies apart from the literal, and so do their parts. -/
theorem member_apart {p q : NodeId} (hp : Below e.store.children member p) (hq : Below e.store.children target q) :
    Apart e.store.children p q :=
  (h.spare.apart List.mem_cons_self).below hp hq

variable {key : NodeId} {kind : PropertyKind} {computed shorthand method : Bool}

omit ho in
theorem replaced_overlaid (hmeets : Meets e.store target member existing key old new kind computed shorthand method pre post)
    (hno : ¬ (e.store.isObject old = true ∧ e.store.isObject new = true)) :
    Overlaid e.store (e.setPropertyValue existing new).store target [member] := by
  have hF := h.sound.forest
  have hin := h.sound.inside
  have hp := hmeets.property
  have hmem := hmeets.mem
  have hkids := hmeets.kids
  obtain ⟨hex, holdK, hnewK⟩ := hmeets.known hF h.spare.mem (h.spare.loose member List.mem_cons_self).1
  have hset : (e.setPropertyValue existing new).store = e.store.set existing (.property key new .init computed false false) := by
    rw [setPropertyValue_eq hp]
    rfl
  -- only the property is written, so the trees that it is not in stay
  have aside {x : NodeId} (hx : ¬ Below e.store.children x existing) :
      (e.setPropertyValue existing new).store.tree x = e.store.tree x := by
    rw [hset]
    exact Store.tree_set_aside hx
  obtain ⟨K', h', -⟩ := replaced_merged h hmem hmeets.value (by rw [Store.propertyValue?, hp])
  have hget : (e.setPropertyValue existing new).store.get target = .objectExpression (pre ++ existing :: post) := by
    rw [hset, Store.get_set_of_ne, hmeets.literal]
    rintro rfl
    exact hF.not_below_kid h.spare.mem hmem (.refl _)
  have hexisting : (e.setPropertyValue existing new).store.tree existing
      = .mk (.property (e.store.tree key) (e.store.tree new) .init computed false false) := by
    have hgetp : (e.setPropertyValue existing new).store.get existing = .property key new .init computed false false := by
      rw [hset, Store.get_set_self (hin existing hex)]
    rw [tree_property h' hget hgetp, aside (hF.not_below_kid hex (by simp [hkids])), aside]
    exact (member_apart h hmeets.below_new (.kid hmem)).not_below
  have hnot : ¬ ((e.store.tree old).isObject = true ∧ (e.store.tree new).isObject = true) := by
    rwa [Store.isObject_tree hF hin holdK, Store.isObject_tree hF hin hnewK]
  have hinto := Tree.mergeInto_replaced hmeets.node hnot
  refine ⟨?_, ?_⟩
  · rw [hset]
    refine .set (hin existing hex) ⟨target, List.mem_cons_self, .kid hmem⟩ fun c hc => ?_
    simp only [Node.children_property, List.mem_cons, List.not_mem_nil, or_false] at hc
    rcases hc with rfl | rfl
    · exact ⟨target, List.mem_cons_self, (Below.kid hmem).trans hmeets.below_key⟩
    · exact ⟨member, List.mem_cons_of_mem target List.mem_cons_self, hmeets.below_new⟩
  · rw [tree_changed h' hget fun p hp => aside (hmeets.apart p hp).symm.not_below, hexisting, List.map_singleton,
      Tree.mergeMembers, Tree.mergeMembers, hmeets.merged _ hinto]

omit ho in
theorem deeper_overlaid (hmeets : Meets e.store target member existing key old new kind computed shorthand method pre post)
    (hoo : e.store.isObject old = true) (hon : e.store.isObject new = true) (h' : Pending e' B K' target rest)
    (inner : Overlaid e.store e'.store old (e.store.members new)) : Overlaid e.store e'.store target [member] := by
  have hF := h.sound.forest
  have hin := h.sound.inside
  have hmem := hmeets.mem
  have hkids := hmeets.kids
  have hold := hmeets.below_old
  obtain ⟨hex, holdK, hnewK⟩ := hmeets.known hF h.spare.mem (h.spare.loose member List.mem_cons_self).1
  have hbelow {m : NodeId} (hm : m ∈ e.store.members new) : Below e.store.children member m :=
    hmeets.below_new.tail (members_eq hon ▸ hm)
  -- what is below the literal and apart from the old value stays, and so do the nodes above that value
  have aside {x : NodeId} (hx : Below e.store.children target x) (ha : Apart e.store.children old x) :
      e'.store.tree x = e.store.tree x := by
    refine inner.rewritten.tree_apart fun p hp => ?_
    rcases List.mem_cons.1 hp with rfl | hp
    · exact ha
    · exact member_apart h (hbelow hp) hx
  have above {x : NodeId} (hx : Below e.store.children target x) (hno : ¬ Below e.store.children old x) :
      e'.store.get x = e.store.get x := by
    refine inner.rewritten.get x ?_
    rintro ⟨p, hp, hb⟩
    rcases List.mem_cons.1 hp with rfl | hp
    · exact hno hb
    · exact (member_apart h (hbelow hp) hx).not_below hb
  have hget : e'.store.get target = .objectExpression (pre ++ existing :: post) := by
    rw [above (.refl target), hmeets.literal]
    exact fun hb => hF.not_below_kid h.spare.mem hmem (hold.trans hb)
  have hgetp : e'.store.get existing = .property key old kind computed shorthand method := by
    rw [above (.kid hmem) (hF.not_below_kid hex (by simp [hkids])), hmeets.property]
  have hkey : e'.store.tree key = e.store.tree key := by
    refine aside ((Below.kid hmem).trans hmeets.below_key) (hF.apart_siblings hex ?_ ?_ ?_)
    · simp [hkids]
    · simp [hkids]
    · have hn := hF.nodup existing hex
      rw [hkids] at hn
      simp only [List.nodup_cons, List.mem_singleton] at hn
      exact fun he => hn.1 he.symm
  have hinto := Tree.mergeInto_deeper hmeets.node ((Store.isObject_tree hF hin holdK).trans hoo)
    ((Store.isObject_tree hF hin hnewK).trans hon)
  refine ⟨inner.rewritten.widen fun p hp => ?_, ?_⟩
  · rcases List.mem_cons.1 hp with rfl | hp
    · exact ⟨target, List.mem_cons_self, (Below.kid hmem).trans hold⟩
    · exact ⟨member, List.mem_cons_of_mem target List.mem_cons_self, hbelow hp⟩
  · have hsame (p : NodeId) (hp : p ∈ pre ++ post) : e'.store.tree p = e.store.tree p := by
      refine aside (.kid ?_) ((hmeets.apart p hp).below hold (.refl p))
      rw [Store.children, hmeets.literal, Node.children_objectExpression]
      exact List.perm_middle.symm.subset (List.mem_cons_of_mem existing hp)
    rw [tree_changed h' hget hsame, tree_property h' hget hgetp, hkey, inner.tree, List.map_singleton, Tree.mergeMembers,
      Tree.mergeMembers, hmeets.merged _ hinto, Store.members_tree hF hin hnewK]

end Member

/-! ### All members -/

/-- Merging members into a literal of a store comes to merging their trees, if the bound is no smaller than these. -/
theorem mergeMembers_overlaid (depth : Nat) (h : Pending e B K target (members ++ rest)) (ho : e.store.isObject target = true)
    (hd : ((members.map e.store.tree).map Tree.count).sum ≤ depth) :
    Overlaid e.store (e.mergeMembers target depth members).store target members := by
  -- The bound falls with each member and with each level. What is left to merge is never larger.
  induction depth generalizing e K target members rest with
  | zero =>
    cases members with
    | nil => exact .refl ho h.sound.forest h.sound.inside h.spare.mem
    | cons member more =>
      have := Tree.count_pos (e.store.tree member)
      simp only [List.map_cons, List.sum_cons] at hd
      omega
  | succ depth ih =>
    cases members with
    | nil => exact .refl ho h.sound.forest h.sound.inside h.spare.mem
    | cons member more =>
      simp only [List.map_cons, List.sum_cons] at hd
      have hpos := Tree.count_pos (e.store.tree member)
      have hmore (m : NodeId) (hm : m ∈ more) : ∀ p ∈ [target, member], Apart e.store.children p m := by
        have htop : m ∈ more ++ rest := List.mem_append_left rest hm
        simp only [List.forall_mem_cons]
        refine ⟨(h.spare.apart (List.mem_cons_of_mem member htop)).symm, ?_, nofun⟩
        refine h.spare.toTops.apart List.mem_cons_self (List.mem_cons_of_mem member htop) ?_
        rintro rfl
        exact (List.nodup_cons.1 h.spare.nodup).1 htop
      -- the members that are left are the same trees once the first is merged
      have go {e₁ : Editor} {K₁ : Set NodeId} (hfirst : Overlaid e.store e₁.store target [member])
          (hp : Pending e₁ B K₁ target (more ++ rest)) (hm : Merged e e₁ B K K₁ [member] (more ++ rest)) :
          Overlaid e.store (e₁.mergeMembers target depth more).store target (member :: more) := by
        have hlater : more.map e₁.store.tree = more.map e.store.tree :=
          List.map_congr_left fun m hmem => hfirst.rewritten.tree_apart (hmore m hmem)
        refine hfirst.trans (ih hp ((hm.object target).trans ho) ?_) hmore
        rw [hlater]
        omega
      rw [mergeMembers]
      split
      next existing old new hc =>
        obtain ⟨key, kind, computed, shorthand, method, pre, post, hmeets⟩ := meets h ho hc
        obtain ⟨hv, hmem, hold⟩ := counterpart?_eq_some hc
        rw [members_eq ho] at hmem
        split
        next hobj =>
          obtain ⟨hoo, hon⟩ := Bool.and_eq_true_iff.1 hobj
          obtain ⟨K₁, hp₁, hm₁⟩ := deeper_merged h hmem hv hold hon fun hp => mergeMembers_merged depth hp hoo
          obtain ⟨K₂, hp₂⟩ := inner_pending h hmem hv hold hon
          refine go (deeper_overlaid h hmeets hoo hon hp₁ (ih hp₂ hoo ?_)) hp₁ hm₁
          have hmK : member ∈ K := (h.spare.loose member List.mem_cons_self).1
          have hnewK : new ∈ K := h.sound.forest.closed member hmK new (mem_children_of_propertyValue? hv)
          have hvalue : (e.store.tree member).propertyValue? = some (e.store.tree new) := by
            rw [Store.propertyValue?_tree h.sound.forest h.sound.inside hmK, hv]
            rfl
          have hparts := Tree.sum_members_lt (e.store.tree new)
          have hless := Tree.count_value_lt hvalue
          rw [← Store.members_tree h.sound.forest h.sound.inside hnewK]
          omega
        next hobj =>
          obtain ⟨K₁, hp₁, hm₁⟩ := replaced_merged h hmem hv hold
          exact go (replaced_overlaid h hmeets (by simpa using hobj)) hp₁ hm₁
      next hc =>
        obtain ⟨hp₁, hm₁⟩ := appendMember_merged h ho
        exact go (appendMember_overlaid h ho hc) hp₁ hm₁

end Editor
end Graft
