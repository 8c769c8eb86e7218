import Graft.Proofs.Edit.Lasting
/-!
# What merged members mean

A member of an object literal stands for a value, a getter or a setter. A merged member keeps its meaning where its key is new. Where
a member has the key already, that one takes the value alone and stands for a value from then on (`Tree.meaningOf?_mergeMembers`). So
a value always arrives as what it was, and an accessor exactly where its key is in no other member, neither of the literal nor of the
code that is merged (`Tree.meaningOf?_merged_iff`, `Editing.run_update_meaning_iff`).
-/

namespace Graft
namespace Tree

/-- What a member is to its object: a value, a getter or a setter, with the tree of the value or function. -/
def meaning? (member : Tree) : Option (PropertyKind × Tree) :=
  match member.node with
  | .property _ value kind _ _ _ => some (kind, value)
  | _ => none

/-- What the first member with a key is. -/
def meaningOf? (members : List Tree) (name : String) : Option (PropertyKind × Tree) :=
  (members.find? fun m => m.memberKey? = some name).bind meaning?

/-- What a key is once a member with it is merged. -/
def mergedMeaning (was : Option (PropertyKind × Tree)) (new : PropertyKind × Tree) : PropertyKind × Tree :=
  match was with
  | none => new
  | some (kind, old) => (if old.isObject && new.2.isObject then kind else .init, mergedValue old new.2)

/-- What the members with a key are, in their order. -/
def meanings (members : List Tree) (name : String) : List (PropertyKind × Tree) := (withKey members name).filterMap meaning?

variable {old pre post members : List Tree} {member property value was : Tree} {name : String} {kind : PropertyKind}

theorem propertyValue?_eq (member : Tree) : member.propertyValue? = member.meaning?.map Prod.snd := by
  obtain ⟨n⟩ := member
  cases n <;> rfl

theorem valueOf?_eq (members : List Tree) (name : String) : valueOf? members name = (meaningOf? members name).map Prod.snd := by
  rw [valueOf?, meaningOf?, Option.map_bind]
  exact congrArg _ (funext propertyValue?_eq)

theorem exists_meaning (hm : member.node.isObjectMember = true) (hk : member.memberKey? = some name) :
    ∃ meaning, member.meaning? = some meaning := by
  obtain ⟨value, hv⟩ := exists_property hm hk
  rw [propertyValue?_eq, Option.map_eq_some_iff] at hv
  exact ⟨hv.choose, hv.choose_spec.1⟩

theorem meaningOf?_append (hpre : ∀ m ∈ pre, m.memberKey? ≠ some name) (hk : property.memberKey? = some name) :
    meaningOf? (pre ++ property :: post) name = property.meaning? := by
  have hnone : pre.find? (fun m => m.memberKey? = some name) = none := List.find?_eq_none.2 fun m hm => by simpa using hpre m hm
  rw [meaningOf?, List.find?_append, hnone, Option.none_or, List.find?_cons]
  simp only [hk, decide_true, Option.bind_some]

theorem meaningOf?_eq_none (hold : ∀ m ∈ old, m.node.isObjectMember = true) :
    meaningOf? old name = none ↔ ∀ m ∈ old, m.memberKey? ≠ some name := by
  constructor
  · intro h
    rcases first_cases old name with hnone | ⟨pre, property, post, rfl, hpre, hk⟩
    · exact hnone
    · obtain ⟨meaning, hmeaning⟩ := exists_meaning (hold property (by simp)) hk
      rw [meaningOf?_append hpre hk, hmeaning] at h
      cases h
  · intro h
    have hnone : old.find? (fun m => m.memberKey? = some name) = none := List.find?_eq_none.2 fun m hm => by simpa using h m hm
    rw [meaningOf?, hnone, Option.bind_none]

/-! ## One member -/

/-- A property that takes a value is a value from then on, unless it has an object that takes it in. -/
theorem mergeInto_meaning (hp : property.meaning? = some (kind, was)) (new : PropertyKind × Tree) :
    ∃ changed, mergeInto property new.2 = some changed ∧ changed.memberKey? = property.memberKey? ∧
      changed.meaning? = some (mergedMeaning (some (kind, was)) new) := by
  obtain ⟨n⟩ := property
  cases n with
  | property key old kind' computed shorthand method =>
    obtain ⟨rfl, rfl⟩ : kind' = kind ∧ old = was := Prod.mk.inj (Option.some.inj hp)
    by_cases hobjects : old.isObject = true ∧ new.2.isObject = true
    · refine ⟨_, mergeInto_deeper rfl hobjects.1 hobjects.2, rfl, ?_⟩
      rw [mergedMeaning, mergedValue, hobjects.1, hobjects.2]
      rfl
    · refine ⟨_, mergeInto_replaced rfl hobjects, rfl, ?_⟩
      have hno : (old.isObject && new.2.isObject) = false := by
        rw [Bool.eq_false_iff, ne_eq, Bool.and_eq_true]
        exact hobjects
      rw [mergedMeaning, mergedValue, hno]
      rfl
  | _ => cases hp

theorem meaningOf?_mergeMember (hold : ∀ m ∈ old, m.node.isObjectMember = true) {new : PropertyKind × Tree}
    (hm : member.meaning? = some new) (hk : member.memberKey? = some name) :
    meaningOf? (mergeMember old member) name = some (mergedMeaning (meaningOf? old name) new) := by
  have hv : member.propertyValue? = some new.2 := by rw [propertyValue?_eq, hm, Option.map_some]
  rcases first_cases old name with hnone | ⟨pre, property, post, rfl, hpre, hp⟩
  · rw [mergeMember_new hv hk hnone, meaningOf?_append hnone hk, hm, (meaningOf?_eq_none hold).2 hnone]
    rfl
  · obtain ⟨⟨kind, was⟩, hwas⟩ := exists_meaning (hold property (by simp)) hp
    obtain ⟨changed, hinto, hkey, hmeaning⟩ := mergeInto_meaning hwas new
    rw [mergeMember_found hv hk hpre hp hinto, meaningOf?_append hpre (hkey.trans hp), meaningOf?_append hpre hp, hmeaning, hwas]

theorem mergeMember_keyless (hk : member.memberKey? = none) : mergeMember old member = old ++ [member] := by
  rw [mergeMember_eq, hk]
  cases member.propertyValue? <;> rfl

/-- Every other key keeps its meaning. -/
theorem meaningOf?_mergeMember_of_ne (hold : ∀ m ∈ old, m.node.isObjectMember = true)
    (hm : member.node.isObjectMember = true) (hk : member.memberKey? ≠ some name) :
    meaningOf? (mergeMember old member) name = meaningOf? old name := by
  have skip {m : Tree} (hm : m.memberKey? ≠ some name) (rest : List Tree) :
      (m :: rest).find? (fun m => m.memberKey? = some name) = rest.find? fun m => m.memberKey? = some name := by
    rw [List.find?_cons_of_neg]
    simpa using hm
  cases hother : member.memberKey? with
  | none => rw [mergeMember_keyless hother, meaningOf?, meaningOf?, List.find?_append, skip hk, List.find?_nil, Option.or_none]
  | some other =>
    have hne : some other ≠ some name := hother ▸ hk
    obtain ⟨value, hv⟩ := exists_property hm hother
    have h := oneMerged hold hv hother
    generalize mergeMember old member = merged at h ⊢
    cases h with
    | appended => rw [meaningOf?, meaningOf?, List.find?_append, skip hk, List.find?_nil, Option.or_none]
    | changed first key holds key' =>
      rw [meaningOf?, meaningOf?, List.find?_append, List.find?_append, skip (key.trans_ne hne), skip (key'.trans_ne hne)]

theorem isObjectMember_merged (hold : ∀ m ∈ old, m.node.isObjectMember = true) (hm : member.node.isObjectMember = true) :
    ∀ m ∈ mergeMember old member, m.node.isObjectMember = true := by
  cases hk : member.memberKey? with
  | none =>
    rw [mergeMember_keyless hk]
    simpa [hm, or_imp, forall_and] using hold
  | some name =>
    obtain ⟨value, hv⟩ := exists_property hm hk
    exact isObjectMember_mergeMember hold hv hm hk

/-! ## All members -/

section Members
variable (hold : ∀ m ∈ old, m.node.isObjectMember = true)
include hold

theorem isObjectMember_mergeMembers (hmembers : ∀ m ∈ members, m.node.isObjectMember = true) :
    ∀ m ∈ mergeMembers old members, m.node.isObjectMember = true := by
  induction members generalizing old with
  | nil =>
    rw [mergeMembers]
    exact hold
  | cons member members ih =>
    rw [List.forall_mem_cons] at hmembers
    rw [mergeMembers]
    exact ih (isObjectMember_merged hold hmembers.1) hmembers.2

/-- What a key means after a merge, its members in the merged code decide one after the other. -/
theorem meaningOf?_mergeMembers (hmembers : ∀ m ∈ members, m.node.isObjectMember = true) :
    meaningOf? (mergeMembers old members) name =
      (meanings members name).foldl (fun was new => some (mergedMeaning was new)) (meaningOf? old name) := by
  induction members generalizing old with
  | nil => rw [mergeMembers, meanings]; rfl
  | cons member members ih =>
    rw [List.forall_mem_cons] at hmembers
    rw [mergeMembers, ih (isObjectMember_merged hold hmembers.1) hmembers.2]
    by_cases hk : member.memberKey? = some name
    · obtain ⟨new, hnew⟩ := exists_meaning hmembers.1 hk
      rw [meaningOf?_mergeMember hold hnew hk, meanings, meanings, withKey_cons_of_eq hk, List.filterMap_cons_some hnew, List.foldl_cons]
    · rw [meaningOf?_mergeMember_of_ne hold hmembers.1 hk, meanings, meanings, withKey_cons_of_ne hk]

end Members

/-! ## What stays what it was -/

theorem meanings_eq_nil (hmembers : ∀ m ∈ members, m.node.isObjectMember = true) :
    meanings members name = [] ↔ ∀ m ∈ members, m.memberKey? ≠ some name := by
  rw [meanings, List.filterMap_eq_nil_iff]
  constructor
  · intro h m hm hk
    obtain ⟨meaning, hmeaning⟩ := exists_meaning (hmembers m hm) hk
    have hnone := h m (List.mem_filter.2 ⟨hm, decide_eq_true hk⟩)
    rw [hmeaning] at hnone
    cases hnone
  · intro h m hm
    obtain ⟨hm, hk⟩ := List.mem_filter.1 hm
    exact absurd (of_decide_eq_true hk) (h m hm)

theorem foldl_eq_none {was : Option (PropertyKind × Tree)} {news : List (PropertyKind × Tree)} :
    news.foldl (fun was new => some (mergedMeaning was new)) was = none ↔ was = none ∧ news = [] := by
  induction news generalizing was with
  | nil => simp
  | cons new news ih => simp [ih]

/-- A key is new after a merge if it was and the merged code does not have it. -/
theorem meaningOf?_mergeMembers_eq_none (hold : ∀ m ∈ old, m.node.isObjectMember = true)
    (hmembers : ∀ m ∈ members, m.node.isObjectMember = true) : meaningOf? (mergeMembers old members) name = none ↔
      (∀ m ∈ old, m.memberKey? ≠ some name) ∧ ∀ m ∈ members, m.memberKey? ≠ some name := by
  rw [meaningOf?_mergeMembers hold hmembers, foldl_eq_none, meaningOf?_eq_none hold, meanings_eq_nil hmembers]

/-- Once a value, a key stays one. -/
theorem foldl_value (news : List (PropertyKind × Tree)) (was : Tree) :
    ∃ value, news.foldl (fun was new => some (mergedMeaning was new)) (some (.init, was)) = some (.init, value) := by
  induction news generalizing was with
  | nil => exact ⟨was, rfl⟩
  | cons new news ih =>
    rw [List.foldl_cons, mergedMeaning, ite_self]
    exact ih _

theorem mergedMeaning_of_not_objects (kind' : PropertyKind) (h : ¬ (was.isObject = true ∧ value.isObject = true)) :
    mergedMeaning (some (kind', was)) (kind, value) = (.init, value) := by
  rw [← Bool.and_eq_true, ← ne_eq, ← Bool.eq_false_iff] at h
  rw [mergedMeaning, mergedValue, h]
  rfl

/-- An accessor has a function, not an object. -/
theorem isObject_of_accessor (hfirm : member.Firm .method) (hm : member.meaning? = some (kind, value)) (hkind : kind ≠ .init) :
    value.isObject = false := by
  obtain ⟨n⟩ := member
  cases n with
  | property key was kind' computed shorthand method =>
    obtain ⟨rfl, rfl⟩ : kind' = kind ∧ was = value := Prod.mk.inj (Option.some.inj hm)
    have hfunction : Slot.method.allows was.node = true := by
      refine hfirm.firmly was ?_
      rw [Node.firmly, if_pos (by simp [hkind])]
      exact List.mem_singleton_self was
    obtain ⟨n⟩ := was
    cases n with
    | objectExpression properties => cases hfunction
    | _ => rfl
  | _ => cases hm

/-- A member that is not merged as an object into an object, and that is an accessor or the last one with its key, keeps its meaning
exactly if it is no accessor or no other member has its key. -/
theorem meaningOf?_merged_iff (hold : ∀ m ∈ old, m.node.isObjectMember = true)
    (hmembers : ∀ m ∈ pre ++ member :: post, m.node.isObjectMember = true) (hk : member.memberKey? = some name)
    (hm : member.meaning? = some (kind, value)) (hfunction : kind ≠ .init → value.isObject = false)
    (hapart : ∀ was, valueOf? (mergeMembers old pre) name = some was → ¬ (was.isObject = true ∧ value.isObject = true))
    (hlast : kind = .init → ∀ m ∈ post, m.memberKey? ≠ some name) :
    meaningOf? (mergeMembers old (pre ++ member :: post)) name = some (kind, value) ↔
      kind = .init ∨ ∀ m ∈ old ++ pre ++ post, m.memberKey? ≠ some name := by
  simp only [List.forall_mem_append, List.forall_mem_cons] at hmembers ⊢
  obtain ⟨hpre, hmember, hpost⟩ := hmembers
  have hmerged := isObjectMember_mergeMembers hold hpre
  have hnone : meaningOf? (mergeMembers old pre) name = none ↔ _ := meaningOf?_mergeMembers_eq_none hold hpre
  have hpostNil : meanings post name = [] ↔ _ := meanings_eq_nil hpost
  rw [mergeMembers_append, mergeMembers, meaningOf?_mergeMembers (isObjectMember_merged hmerged hmember) hpost,
    meaningOf?_mergeMember hmerged hm hk]
  rw [valueOf?_eq] at hapart
  generalize meaningOf? (mergeMembers old pre) name = met at hnone hapart ⊢
  by_cases hkind : kind = .init
  · subst hkind
    rw [hpostNil.2 (hlast rfl), List.foldl_nil]
    refine iff_of_true ?_ (.inl rfl)
    cases met with
    | none => rfl
    | some met => rw [mergedMeaning_of_not_objects met.1 (hapart met.2 rfl)]
  · rw [or_iff_right hkind, ← hnone, ← hpostNil]
    have hno (was : Tree) : ¬ (was.isObject = true ∧ value.isObject = true) := by simp [hfunction hkind]
    cases met with
    | none =>
      rw [mergedMeaning]
      cases meanings post name with
      | nil => simp
      | cons new news =>
        -- the next member with the key takes the accessor's place
        have hnext : ¬ (value.isObject = true ∧ new.2.isObject = true) := by simp [hfunction hkind]
        rw [List.foldl_cons, mergedMeaning_of_not_objects kind hnext]
        obtain ⟨value', hvalue⟩ := foldl_value news new.2
        simp [hvalue, Ne.symm hkind]
    | some met =>
      obtain ⟨value', hvalue⟩ := foldl_value (meanings post name) value
      rw [mergedMeaning_of_not_objects met.1 (hno met.2), hvalue]
      simp [Ne.symm hkind]

end Tree
/-! ## Runs -/

namespace Editing

/-- In a program, after whatever moves, an object literal is updated with the code of any other one. A member of that code, if it is not
merged as an object into an object and no value that a later one replaces, arrives as what it was exactly if it is no accessor or its
key is in no other member. -/
theorem run_update_meaning_iff {text : String} {t : Tree} (ht : Source.readProgram text = .ok t) (moves : List Move)
    (hmoves : ∀ m ∈ moves, m.IsReal) {e : Editor} (he : ((start t).run moves).editor = e) {x target : NodeId}
    (hx : Below e.store.children e.store.root x ∨ Below e.store.children e.current x)
    (htarget : (e.moveTo x).updateTarget? = some target) {code : String} {source : Tree}
    (hread : Source.readExpression code = .ok source) (hobject : source.isObject = true) :
    ∃ e', (e.moveTo x).change .update (.code code) = .ok e' ∧ ∀ pre member post name kind value,
      source.members = pre ++ member :: post → member.memberKey? = some name → member.meaning? = some (kind, value) →
      (∀ was, Tree.valueOf? (Tree.mergeMembers (e.store.tree target).members pre) name = some was →
        ¬ (was.isObject = true ∧ value.isObject = true)) →
      (kind = .init → ∀ m ∈ post, m.memberKey? ≠ some name) →
      (Tree.meaningOf? (e'.store.tree target).members name = some (kind, value) ↔
        kind = .init ∨ ∀ m ∈ (e.store.tree target).members ++ pre ++ post, m.memberKey? ≠ some name) := by
  subst he
  obtain ⟨K, hs⟩ := run_sound_at t moves hx
  have hm : (((start t).run moves).editor.moveTo x).store.Membered :=
    run_membered ht moves fun m hm => (hmoves m hm).membered
  obtain ⟨htK, ho⟩ := Editor.updateTarget?_known hs htarget
  have htree : (((start t).run moves).editor.store.tree target).isObject = true :=
    (Store.isObject_tree hs.forest hs.inside htK).trans ho
  have hold : Tree.AllMembers (((start t).run moves).editor.store.tree target).members :=
    (hm.tree hs.forest hs.inside htK).ofObject htree
  have hfits := Source.readExpression_fits hread
  have hmembers : Tree.AllMembers source.members := (Tree.membered_iff_firm.2 (hfits.firm .member)).ofObject hobject
  have hmethods : ∀ m ∈ source.members, m.Firm .method := (hfits.firm .method).ofMembers hobject
  have hsource : Source.readExpression (ChangeValue.code code).source = .ok source := hread
  obtain ⟨e', K', he', -, -, -, hmerged, -⟩ := Editor.update_tree hs htarget hsource hobject
  refine ⟨e', he', fun pre member post name kind value hsource hk hmeaning hapart hlast => ?_⟩
  rw [hmerged]
  rw [hsource] at hmembers hmethods ⊢
  exact Tree.meaningOf?_merged_iff (fun m hm => (hold m hm).1) (fun m hm => (hmembers m hm).1) hk hmeaning
    (Tree.isObject_of_accessor (hmethods member (by simp)) hmeaning) hapart hlast

/-- A value, an accessor and a literal. -/
def threeMembersText : String := "x = \x7b a: 1, get b() \x7b \x7d, c: \x7b \x7d \x7d;"

/-- A getter and a method for keys that are there, an object for the literal, and a new setter. -/
def fourMembersCode : String := "\x7b get a() \x7b \x7d, b() \x7b \x7d, c: \x7b d: 2 \x7d, set e(v) \x7b \x7d \x7d"

theorem three_members_meaning_iff : ∃ t source, Source.readProgram threeMembersText = .ok t ∧
    Source.readExpression fourMembersCode = .ok source ∧
    let e := ((start t).run [.find (.object none none none none), .visit]).editor
    ∃ e', (e.moveTo e.current).change .update (.code fourMembersCode) = .ok e' ∧ ∀ pre member post name kind value,
      source.members = pre ++ member :: post → member.memberKey? = some name → member.meaning? = some (kind, value) →
      (∀ was, Tree.valueOf? (Tree.mergeMembers (e.store.tree e.current).members pre) name = some was →
        ¬ (was.isObject = true ∧ value.isObject = true)) →
      (kind = .init → ∀ m ∈ post, m.memberKey? ≠ some name) →
      (Tree.meaningOf? (e'.store.tree e.current).members name = some (kind, value) ↔
        kind = .init ∨ ∀ m ∈ (e.store.tree e.current).members ++ pre ++ post, m.memberKey? ≠ some name) := by
  have facts : (Source.readProgram threeMembersText).toOption.any (fun t =>
      let e := ((start t).run [.find (.object none none none none), .visit]).editor
      (e.moveTo e.current).updateTarget? = some e.current) = true := by decide +kernel
  have reads : (Source.readExpression fourMembersCode).toOption.any Tree.isObject = true := by decide +kernel
  cases hr : Source.readProgram threeMembersText with
  | error => simp [hr, Except.toOption] at facts
  | ok t =>
    simp only [hr, Except.toOption, Option.any_some] at facts
    cases hc : Source.readExpression fourMembersCode with
    | error => simp [hc, Except.toOption] at reads
    | ok source =>
      simp only [hc, Except.toOption, Option.any_some] at reads
      have hmoves : ∀ m ∈ [Move.find (.object none none none none), .visit], m.IsReal := by simp [Move.IsReal]
      exact ⟨t, source, rfl, rfl, run_update_meaning_iff hr _ hmoves rfl (.inr (.refl _)) (of_decide_eq_true facts) hc reads⟩

/-- A getter for a key that is there: what is left is a value. -/
theorem getter_becomes_value : ∃ t source, Source.readProgram "x = \x7b a: 1 \x7d;" = .ok t ∧
    Source.readExpression "\x7b get a() \x7b \x7d \x7d" = .ok source ∧
    ∃ e', ((start t).run [.find (.object none none none none), .visit]).editor.change .update
        (.code "\x7b get a() \x7b \x7d \x7d") = .ok e' ∧ ∃ member ∈ source.members, ∃ value, member.memberKey? = some "a" ∧
      member.meaning? = some (.get, value) ∧ value.isObject = false ∧
      Tree.meaningOf? (e'.store.tree e'.current).members "a" ≠ some (.get, value) := by
  have facts : (Source.readProgram "x = \x7b a: 1 \x7d;").toOption.any (fun t =>
      (Source.readExpression "\x7b get a() \x7b \x7d \x7d").toOption.any fun source =>
        (((start t).run [.find (.object none none none none), .visit]).editor.change .update
          (.code "\x7b get a() \x7b \x7d \x7d")).toOption.any fun e' =>
          source.members.any (fun member => member.memberKey? = some "a" &&
            member.meaning?.any fun meaning => meaning.1 = .get && !meaning.2.isObject) &&
          (Tree.meaningOf? (e'.store.tree e'.current).members "a").any fun meaning => meaning.1 = .init) = true := by
    decide +kernel
  cases hr : Source.readProgram "x = \x7b a: 1 \x7d;" with
  | error => simp [hr, Except.toOption] at facts
  | ok t =>
    cases hc : Source.readExpression "\x7b get a() \x7b \x7d \x7d" with
    | error => simp [hc, hr, Except.toOption] at facts
    | ok source =>
      cases he : ((start t).run [.find (.object none none none none), .visit]).editor.change .update
          (.code "\x7b get a() \x7b \x7d \x7d") with
      | error => simp [hr, hc, he, Except.toOption] at facts
      | ok e' =>
        simp only [hr, hc, he, Except.toOption, Option.any_some, Bool.and_eq_true, List.any_eq_true] at facts
        obtain ⟨⟨member, hmember, hk, hmeaning⟩, hvalue⟩ := facts
        obtain ⟨⟨kind, value⟩, hm, hkind⟩ := (Option.any_eq_true ..).1 hmeaning
        obtain ⟨⟨kind', value'⟩, hm', hkind'⟩ := (Option.any_eq_true ..).1 hvalue
        simp only [Bool.and_eq_true, decide_eq_true_eq, Bool.not_eq_true'] at hk hkind hkind'
        obtain ⟨rfl, hobject⟩ := hkind
        subst hkind'
        refine ⟨t, source, rfl, rfl, e', he, member, hmember, value, hk, hm, hobject, ?_⟩
        rw [hm']
        simp

end Editing
end Graft
