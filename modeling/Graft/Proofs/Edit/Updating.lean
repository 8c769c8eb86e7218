import Graft.Proofs.Edit.Members
import Graft.Proofs.Query.Data
/-!
# What is updated is found

A merge gives the key of a member the new value, or the old one with the new one merged into it, and leaves all other keys alone
(`Tree.valueOf?_mergeMember`, `Tree.valueOf?_mergeMember_of_ne`). So an object literal has the values that were merged into it
(`Tree.hasValues_mergeMembers`), and after an update or a set of an object literal in a program, the object matcher finds there
what was written, at every depth (`Editing.run_change_matches`).
-/

namespace Graft
namespace Tree

variable {old pre post members : List Tree} {member property value was : Tree} {name : String}

/-! ## One key -/

/-- The value of a key once a value is merged into it. -/
def mergedValue (was value : Tree) : Tree :=
  if was.isObject && value.isObject then .mk (.objectExpression (mergeMembers was.members value.members)) else value

theorem exists_property (hm : member.node.isObjectMember = true) (hk : member.memberKey? = some name) :
    ∃ value, member.propertyValue? = some value := by
  obtain ⟨n⟩ := member
  cases n with
  | property key value kind computed shorthand method => exact ⟨value, rfl⟩
  | spreadElement argument => cases hk
  | _ => cases hm

/-- A property that takes a value keeps its key. -/
theorem mergeInto_spec (hp : property.propertyValue? = some was) (value : Tree) :
    ∃ changed, mergeInto property value = some changed ∧ changed.memberKey? = property.memberKey? ∧
      changed.propertyValue? = some (mergedValue was value) ∧ changed.node.isObjectMember = true := by
  obtain ⟨n⟩ := property
  cases n with
  | property key old kind computed shorthand method =>
    obtain rfl : old = was := Option.some.inj hp
    by_cases hobjects : old.isObject = true ∧ value.isObject = true
    · refine ⟨_, mergeInto_deeper rfl hobjects.1 hobjects.2, rfl, ?_, rfl⟩
      rw [mergedValue, hobjects.1, hobjects.2]
      rfl
    · refine ⟨_, mergeInto_replaced rfl hobjects, rfl, ?_, rfl⟩
      have hno : (old.isObject && value.isObject) = false := by
        rw [Bool.eq_false_iff, ne_eq, Bool.and_eq_true]
        exact hobjects
      rw [mergedValue, hno]
      rfl
  | _ => cases hp

theorem valueOf?_append (hpre : ∀ m ∈ pre, m.memberKey? ≠ some name) (hk : property.memberKey? = some name) :
    valueOf? (pre ++ property :: post) name = property.propertyValue? := by
  have hnone : pre.find? (fun m => m.memberKey? = some name) = none := List.find?_eq_none.2 fun m hm => by simpa using hpre m hm
  rw [valueOf?, List.find?_append, hnone, Option.none_or, List.find?_cons]
  simp only [hk, decide_true, Option.bind_some]

theorem valueOf?_none (h : ∀ m ∈ old, m.memberKey? ≠ some name) : valueOf? old name = none := by
  have hnone : old.find? (fun m => m.memberKey? = some name) = none := List.find?_eq_none.2 fun m hm => by simpa using h m hm
  rw [valueOf?, hnone, Option.bind_none]

/-- A key is in no member, or there is a first one that has it. -/
theorem first_cases (old : List Tree) (name : String) : (∀ m ∈ old, m.memberKey? ≠ some name) ∨
    ∃ pre property post, old = pre ++ property :: post ∧ (∀ m ∈ pre, m.memberKey? ≠ some name) ∧
      property.memberKey? = some name := by
  cases hfind : old.find? fun m => m.memberKey? = some name with
  | none => exact .inl fun m hm => by simpa using List.find?_eq_none.1 hfind m hm
  | some property =>
    obtain ⟨hk, pre, post, hsplit, hpre⟩ := List.find?_eq_some_iff_append.1 hfind
    exact .inr ⟨pre, property, post, hsplit, fun m hm => by simpa using hpre m hm, by simpa using hk⟩

/-- What merging a member with this key and value does: it comes last, or the first property with its key changes. -/
inductive OneMerged (member value : Tree) (name : String) : List Tree → List Tree → Prop
  | appended {old : List Tree} (fresh : ∀ m ∈ old, m.memberKey? ≠ some name) : OneMerged member value name old (old ++ [member])
  | changed {pre post : List Tree} {property was changed : Tree} (first : ∀ m ∈ pre, m.memberKey? ≠ some name)
    (key : property.memberKey? = some name) (holds : property.propertyValue? = some was) (key' : changed.memberKey? = some name)
    (holds' : changed.propertyValue? = some (mergedValue was value)) (isObjectMember : changed.node.isObjectMember = true) :
    OneMerged member value name (pre ++ property :: post) (pre ++ changed :: post)

section Merge
variable (hold : ∀ m ∈ old, m.node.isObjectMember = true) (hv : member.propertyValue? = some value)
include hold hv

theorem oneMerged (hk : member.memberKey? = some name) : OneMerged member value name old (mergeMember old member) := by
  rcases first_cases old name with hnone | ⟨pre, property, post, rfl, hpre, hp⟩
  · rw [mergeMember_new hv hk hnone]
    exact .appended hnone
  · obtain ⟨was, hwas⟩ := exists_property (hold property (by simp)) hp
    obtain ⟨changed, hinto, hkey, hvalue, hmember⟩ := mergeInto_spec hwas value
    rw [mergeMember_found hv hk hpre hp hinto]
    exact .changed hpre hp hwas (hkey.trans hp) hvalue hmember

/-- The key of the member gets its value. -/
theorem valueOf?_mergeMember (hk : member.memberKey? = some name) : valueOf? (mergeMember old member) name =
    some (match valueOf? old name with
      | some was => mergedValue was value
      | none => value) := by
  have h := oneMerged hold hv hk
  generalize mergeMember old member = merged at h ⊢
  cases h with
  | appended fresh => rw [valueOf?_append fresh hk, valueOf?_none fresh, hv]
  | changed first key holds key' holds' => rw [valueOf?_append first key', valueOf?_append first key, holds, holds']

/-- Every other key keeps the value it had. -/
theorem valueOf?_mergeMember_of_ne {other : String} (hk : member.memberKey? = some name) (hne : name ≠ other) :
    valueOf? (mergeMember old member) other = valueOf? old other := by
  have skip {m : Tree} (hm : m.memberKey? = some name) (rest : List Tree) :
      (m :: rest).find? (fun m => m.memberKey? = some other) = rest.find? fun m => m.memberKey? = some other := by
    rw [List.find?_cons_of_neg]
    simpa [hm] using hne
  have h := oneMerged hold hv hk
  generalize mergeMember old member = merged at h ⊢
  cases h with
  | appended fresh => rw [valueOf?, valueOf?, List.find?_append, skip hk, List.find?_nil, Option.or_none]
  | changed first key holds key' => rw [valueOf?, valueOf?, List.find?_append, List.find?_append, skip key, skip key']

theorem isObjectMember_mergeMember (hm : member.node.isObjectMember = true) (hk : member.memberKey? = some name) :
    ∀ m ∈ mergeMember old member, m.node.isObjectMember = true := by
  have h := oneMerged hold hv hk
  generalize mergeMember old member = merged at h ⊢
  cases h with
  | appended fresh => simpa [hm, or_imp, forall_and] using hold
  | changed first key holds key' holds' isObjectMember =>
    simp only [List.forall_mem_append, List.forall_mem_cons] at hold ⊢
    exact ⟨hold.1, isObjectMember, hold.2.2⟩

end Merge

/-! ## Data -/

/-- What an object literal holds when nothing but members stands in it. -/
def AllMembers (old : List Tree) : Prop := ∀ m ∈ old, m.node.isObjectMember = true ∧ m.Membered

theorem Membered.ofObject {t : Tree} (h : t.Membered) (ho : t.isObject = true) : AllMembers t.members := by
  obtain ⟨n⟩ := t
  cases n with
  | objectExpression properties =>
    intro m hm
    refine ⟨h.members properties rfl m hm, h.children m ?_⟩
    rw [Node.children_objectExpression]
    exact hm
  | _ => cases ho

theorem AllMembers.of_valueOf? (h : AllMembers old) (hv : valueOf? old name = some value) : value.Membered := by
  obtain ⟨property, hfound, hv⟩ := Option.bind_eq_some_iff.1 hv
  have hm := (h property (List.mem_of_find?_eq_some hfound)).2
  obtain ⟨n⟩ := property
  cases n with
  | property key old kind computed shorthand method =>
    obtain rfl : old = value := Option.some.inj hv
    exact hm.children old (by simp)
  | _ => cases hv

section Data
variable {data : List (String × Json)} {j : Json}

/-- Keys that the data has not keep their values. -/
theorem valueOf?_mergeMembers_of_ne (hold : ∀ m ∈ old, m.node.isObjectMember = true) (hne : name ∉ data.map Prod.fst) :
    valueOf? (mergeMembers old (Json.memberTrees data)) name = valueOf? old name := by
  induction data generalizing old with
  | nil => rw [Json.memberTrees, mergeMembers]
  | cons first rest ih =>
    obtain ⟨key, j⟩ := first
    rw [List.map_cons, List.mem_cons, not_or] at hne
    have hkey := Json.memberKey?_plainProperty key j.tree
    rw [Json.memberTrees, mergeMembers, ih (isObjectMember_mergeMember hold rfl rfl hkey) hne.2]
    exact valueOf?_mergeMember_of_ne hold rfl hkey fun he => hne.1 he.symm

/-- A key of the data gets the value that it has there. -/
theorem valueOf?_mergeMembers (hold : ∀ m ∈ old, m.node.isObjectMember = true) (hkeys : (data.map Prod.fst).Nodup)
    {m : String × Json} (hm : m ∈ data) : valueOf? (mergeMembers old (Json.memberTrees data)) m.1 =
      some (match valueOf? old m.1 with
        | some was => mergedValue was m.2.tree
        | none => m.2.tree) := by
  induction data generalizing old with
  | nil => cases hm
  | cons first rest ih =>
    obtain ⟨key, j⟩ := first
    rw [List.map_cons, List.nodup_cons] at hkeys
    have hkey := Json.memberKey?_plainProperty key j.tree
    have hnext := isObjectMember_mergeMember hold rfl rfl hkey
    rw [Json.memberTrees, mergeMembers]
    rcases List.mem_cons.1 hm with rfl | hrest
    · rw [valueOf?_mergeMembers_of_ne hnext hkeys.1]
      exact valueOf?_mergeMember hold rfl hkey
    · have hne : key ≠ m.1 := by
        rintro rfl
        exact hkeys.1 (List.mem_map.2 ⟨m, hrest, rfl⟩)
      rw [ih hnext hkeys.2 hrest, valueOf?_mergeMember_of_ne hold rfl hkey hne]

/-- An object literal has the data that is merged into it, if each value is there once it is merged. -/
theorem hasValues_merged (hold : AllMembers old) (hkeys : (data.map Prod.fst).Nodup)
    (hnew : ∀ m ∈ data, m.2.tree.hasValue m.2 = true)
    (hmerged : ∀ m ∈ data, ∀ was : Tree, was.Membered → (mergedValue was m.2.tree).hasValue m.2 = true) :
    hasValues (mergeMembers old (Json.memberTrees data)) data = true := by
  refine hasValues_iff.2 fun m hm => ⟨_, valueOf?_mergeMembers (fun m hm => (hold m hm).1) hkeys hm, ?_⟩
  cases hvalue : valueOf? old m.1 with
  | none => exact hnew m hm
  | some was => exact hmerged m hm was (hold.of_valueOf? hvalue)

theorem hasValue_of_not_isObject (hj : j.Proper) (ha : j.ArrayFree) (hno : j.tree.isObject = false) (was : Tree) :
    (mergedValue was j.tree).hasValue j = true := by
  rw [mergedValue, hno, Bool.and_false]
  exact Json.hasValue_tree hj ha

theorem isObject_signedTree (text : List Char) : (Json.signedTree text).isObject = false := by
  have number (raw : String) : (Source.numberTree raw).isObject = false := by
    rw [Source.numberTree]
    split <;> rfl
  rw [Json.signedTree.eq_def]
  split
  next => rfl
  next => exact number _

/-- Whatever the value was, it has the data that is merged into it. -/
theorem hasValue_mergedValue (hj : j.Proper) (ha : j.ArrayFree) (hwas : was.Membered) :
    (mergedValue was j.tree).hasValue j = true := by
  induction hj generalizing was with
  | null => exact hasValue_of_not_isObject .null ha rfl was
  | bool b => exact hasValue_of_not_isObject (.bool b) ha rfl was
  | int n h => exact hasValue_of_not_isObject (.int n h) ha (isObject_signedTree _) was
  | double x h => exact hasValue_of_not_isObject (.double x h) ha (isObject_signedTree _) was
  | string s => exact hasValue_of_not_isObject (.string s) ha rfl was
  | array items => cases ha
  | object data hproper hkeys ih =>
    cases ha with
    | object _ ha =>
      by_cases ho : was.isObject = true
      · have hmembers : hasValues (mergeMembers was.members (Json.memberTrees data)) data = true :=
          hasValues_merged (hwas.ofObject ho) hkeys (fun m hm => Json.hasValue_tree (hproper m hm) (ha m hm))
            fun m hm was hwas => ih m hm (ha m hm) hwas
        rw [mergedValue, ho]
        exact hmembers
      · rw [mergedValue, Bool.eq_false_iff.2 ho, Bool.false_and]
        exact Json.hasValue_tree (.object data hproper hkeys) (.object data ha)

/-- An object literal has the data that is merged into it. -/
theorem hasValues_mergeMembers (hold : AllMembers old) (hj : (Json.object data).Proper) (ha : (Json.object data).ArrayFree) :
    hasValues (mergeMembers old (Json.memberTrees data)) data = true := by
  cases hj with
  | object _ hproper hkeys =>
    cases ha with
    | object _ ha =>
      refine hasValues_merged hold hkeys (fun m hm => ?_) fun m hm was hwas => ?_
      · exact Json.hasValue_tree (hproper m hm) (ha m hm)
      · exact hasValue_mergedValue (hproper m hm) (ha m hm) hwas

end Data
end Tree

/-! ## Changes -/

namespace Editor

variable {e : Editor} {K : Set NodeId} {target : NodeId} {value : ChangeValue} {t : Tree}

/-- The tree of a text stands in fresh slots. -/
theorem insertExpression_reads {code : String} (e : Editor) (hread : Source.readExpression code = .ok t) :
    ∃ id s, e.insertExpression code = .ok (id, s) ∧ s.tree id = t ∧ s.size = e.store.size + t.count := by
  have htree := Store.tree_insert t e.store
  have hsize := Store.size_insert t e.store
  exact ⟨_, _, insertExpression_eq hread, htree, hsize⟩

/-- What an update makes of an object literal. No node is written that is not below it. -/
theorem update_tree (h : Sound e K) (ht : e.updateTarget? = some target) (hread : Source.readExpression value.source = .ok t)
    (hobject : t.isObject = true) : ∃ e' K', e.update value = .ok e' ∧ K ⊆ K' ∧ Sound e' K' ∧ e'.current = e.current ∧
      e'.store.tree target = .mk (.objectExpression (Tree.mergeMembers (e.store.tree target).members t.members)) ∧
      e'.store.root = e.store.root ∧
      ∀ x : NodeId, x.index < e.store.size → ¬ Below e.store.children target x → e'.store.get x = e.store.get x := by
  obtain ⟨source, s, hinsert, htree, hsize⟩ := e.insertExpression_reads hread
  obtain ⟨hK, ho⟩ := updateTarget?_known h ht
  have hplanted := insertExpression_planted hinsert
  obtain ⟨hp, hev⟩ := Pending.planted h hK hplanted
  have hsK : source ∈ K ∪ e.store.added s := (hp.spare.loose source List.mem_cons_self).1
  -- reading the code has not changed the target
  have htarget : s.tree target = e.store.tree target := hplanted.tree h.arena (h.inside target hK)
  have hsource : s.isObject source = true := by
    rw [← Store.isObject_tree hp.sound.forest hp.sound.inside hsK, htree, hobject]
  have hot : s.isObject target = true := by rwa [Store.isObject, hplanted.get target (h.inside target hK)]
  have hmembers : (s.members source).map s.tree = t.members := by
    rw [← Store.members_tree hp.sound.forest hp.sound.inside hsK, htree]
  obtain ⟨K₁, hp₁, hm₁⟩ := parts_pending hp (List.Sublist.refl _)
  rw [← members_eq hsource] at hp₁ hm₁
  have hsum := t.sum_members_lt
  have hover := mergeMembers_overlaid (s.size + 1) hp₁ hot (by rw [hmembers]; omega)
  obtain ⟨K₂, hp₂, hm₂⟩ := mergeMembers_merged (s.size + 1) hp₁ hot
  refine ⟨_, K₂, ?_, hp₂.base, hp₂.sound, hm₂.evolved.current, ?_, hm₂.evolved.root.trans hplanted.root, fun x hx hno => ?_⟩
  · rw [update, ht, hinsert]
    exact if_pos hsource
  · exact hover.tree.trans (by rw [hmembers, htarget])
  · refine (hover.rewritten.get x ?_).trans (hplanted.get x hx)
    rintro ⟨p, hp, hb⟩
    rcases List.mem_cons.1 hp with rfl | hp
    · exact hno (hb.of_agree fun y hy => hplanted.children (h.inside y (h.forest.below_mem hK hy)))
    · -- what the code brought stands in new slots, and so does all below it
      have hnew : x ∈ e.store.added s := by
        refine hplanted.tops.forest.below_mem (hplanted.tops.loose source List.mem_cons_self).1 ((Below.kid ?_).trans hb)
        exact members_eq hsource ▸ hp
      exact Nat.not_lt.2 hnew.1 hx

/-- An object literal that is set is the new one. -/
theorem set_tree (h : Sound e K) (ho : e.store.isObject e.current = true) (hread : Source.readExpression value.source = .ok t)
    (hobject : t.isObject = true) : ∃ e' K', e.set value = .ok e' ∧ K ⊆ K' ∧ Sound e' K' ∧ e'.current = e.current ∧
      e'.store.tree e.current = t := by
  obtain ⟨new, s, hinsert, htree, -⟩ := e.insertExpression_reads hread
  obtain ⟨hp, -⟩ := Pending.planted h h.current (insertExpression_planted hinsert)
  have hnK : new ∈ K ∪ e.store.added s := (hp.spare.loose new List.mem_cons_self).1
  have hnew : s.isObject new = true := by
    rw [← Store.isObject_tree hp.sound.forest hp.sound.inside hnK, htree, hobject]
  obtain ⟨properties, hnode⟩ := isObject_iff.1 ho
  have hset : e.set value = .ok (({ e with store := s } : Editor).overwrite (s.get new)) := by
    unfold set
    rw [show e.node = _ from hnode, hinsert]
    exact if_pos hnew
  obtain ⟨⟨K', hK, hs⟩, -⟩ := set_kept h hset
  refine ⟨_, K', hset, hK, hs, rfl, ?_⟩
  have hcur : e.current.index < s.size := hp.sound.inside e.current hp.sound.current
  -- what the new literal held is not above the cursor, so the write leaves it alone
  have hkids (c : NodeId) (hc : c ∈ (s.get new).children) : (s.set e.current (s.get new)).tree c = s.tree c :=
    Store.tree_set_aside fun hb => hp.spare.above new List.mem_cons_self ((Below.kid hc).trans hb)
  have hself : (s.set e.current (s.get new)).get e.current = s.get new := Store.get_set_self hcur
  have hlayer : (s.set e.current (s.get new)).tree e.current
      = .mk (((s.set e.current (s.get new)).get e.current).map (s.set e.current (s.get new)).tree) :=
    Store.tree_eq hs.forest hs.inside (hK h.current)
  change (s.set e.current (s.get new)).tree e.current = t
  rw [hlayer, hself, Node.map_congr hkids, ← Store.tree_eq hp.sound.forest hp.sound.inside hnK, htree]

/-- A change of an object literal to data succeeds, and the object matcher finds the data there. -/
theorem change_matches (h : Sound e K) (hm : e.store.Membered) (ho : e.store.isObject e.current = true) (method : ChangeMethod)
    {data : List (String × Json)} (hj : (Json.object data).Proper) (ha : (Json.object data).ArrayFree) :
    ∃ e', e.change method (.data (.object data)) = .ok e' ∧ e'.current = e.current ∧
      e'.store.matches e'.parents e'.current (.object none none none (some data)) = true := by
  have hread : Source.readExpression (ChangeValue.data (.object data)).source = .ok (Json.object data).tree :=
    Source.readExpression_tree hj
  have hdata : (e.store.tree e.current).Membered := hm.tree h.forest h.inside h.current
  have hobject : (e.store.tree e.current).isObject = true := (Store.isObject_tree h.forest h.inside h.current).trans ho
  -- the literal at the cursor is left with members that have the data
  have found {e' : Editor} {K' : Set NodeId} {members : List Tree} (hK : K ⊆ K') (hs : Sound e' K')
      (hcurrent : e'.current = e.current) (htree : e'.store.tree e.current = .mk (.objectExpression members))
      (hvalues : Tree.hasValues members data = true) :
      e'.store.matches e'.parents e'.current (.object none none none (some data)) = true := by
    have hobject' : e'.store.isObject e.current = true := by
      rw [← Store.isObject_tree hs.forest hs.inside (hK h.current), htree]
      rfl
    have hvalues' : e'.store.hasValues e.current data = true := by
      rw [← Store.hasValues_tree hs.forest hs.inside (hK h.current), htree]
      exact hvalues
    simp [Store.matches, Store.matchesIn, hcurrent, hobject', hvalues']
  cases method with
  | update =>
    have ht : e.updateTarget? = some e.current := by
      obtain ⟨properties, hnode⟩ := isObject_iff.1 ho
      rw [updateTarget?, show e.node = _ from hnode]
    obtain ⟨e', K', he, hK, hs, hcurrent, htree, -⟩ := update_tree h ht hread rfl
    exact ⟨e', he, hcurrent, found hK hs hcurrent htree (Tree.hasValues_mergeMembers (hdata.ofObject hobject) hj ha)⟩
  | set =>
    obtain ⟨e', K', he, hK, hs, hcurrent, htree⟩ := set_tree h ho hread rfl
    exact ⟨e', he, hcurrent, found hK hs hcurrent htree (Json.hasValue_tree hj ha)⟩

end Editor

/-! ## Runs -/

namespace Editing

/-- In a program, after whatever moves, an object literal can be updated with and set to any JSON object without arrays, and then
has the values of that object, as the object matcher sees it. The literal may stand anywhere in the tree, or in a part of it that
was taken out and that the cursor is still in. -/
theorem run_change_matches {text : String} {t : Tree} (ht : Source.readProgram text = .ok t) (moves : List Move)
    (hmoves : ∀ m ∈ moves, m.Membered) {e : Editor} (he : ((start t).run moves).editor = e) {x : NodeId}
    (hx : Below e.store.children e.store.root x ∨ Below e.store.children e.current x) (ho : e.store.isObject x = true)
    (method : ChangeMethod) {data : List (String × Json)} (hj : (Json.object data).Proper) (ha : (Json.object data).ArrayFree) :
    ∃ e', (e.moveTo x).change method (.data (.object data)) = .ok e' ∧ e'.current = x ∧
      e'.store.matches e'.parents x (.object none none none (some data)) = true := by
  subst he
  obtain ⟨K, -, hk⟩ := run_known (start_known t) moves
  have hxK : x ∈ K := by
    rcases hx with hx | hx
    · exact hk.sound.forest.below_mem hk.sound.root hx
    · exact hk.sound.forest.below_mem hk.sound.current hx
  have hs : Sound (((start t).run moves).editor.moveTo x) K := { hk.sound with current := hxK }
  obtain ⟨e', hchange, hcurrent, hmatches⟩ :=
    Editor.change_matches (e := ((start t).run moves).editor.moveTo x) hs (run_membered ht moves hmoves) ho method hj ha
  have hcurrent : e'.current = x := hcurrent
  refine ⟨e', hchange, hcurrent, ?_⟩
  rwa [hcurrent] at hmatches

/-- A negative zero, an integer that no double is, a null and an empty object. -/
def nestedData : List (String × Json) :=
  [("a", .double ⟨0x8000000000000000⟩), ("b", .object [("c", .int 9007199254740993), ("d", .null)]), ("e", .object [])]

/-- A key twice, once as an accessor, a spread, a quoted key and a nested literal. -/
def accessorText : String := "x = \x7b a: 1, get a() \x7b \x7d, ...y, 'b': \x7b c: 2 \x7d \x7d;"

/-- A search for objects, and at the first a change. -/
theorem accessor_change_matches : ∃ t, Source.readProgram accessorText = .ok t ∧ ∀ method, ∃ e',
    ((start t).run [.find (.object none none none none), .visit]).editor.change method (.data (.object nestedData)) = .ok e' ∧
      e'.store.matches e'.parents e'.current (.object none none none (some nestedData)) = true := by
  have facts : (Source.readProgram accessorText).toOption.any (fun t =>
      let e := ((start t).run [.find (.object none none none none), .visit]).editor
      e.store.isObject e.current) = true := by decide +kernel
  have hproper : (Json.object nestedData).Proper := by
    have inner : (Json.object [("c", .int 9007199254740993), ("d", .null)]).Proper := by
      refine .object _ ?_ (by decide)
      simp only [List.forall_mem_cons]
      exact ⟨.int _ (by decide), .null, nofun⟩
    refine .object _ ?_ (by decide)
    simp only [nestedData, List.forall_mem_cons]
    exact ⟨.double _ (by decide +kernel), inner, .object _ nofun (by decide), nofun⟩
  have hfree : (Json.object nestedData).ArrayFree := by
    refine .object _ ?_
    simp only [nestedData, List.forall_mem_cons]
    refine ⟨.double _, .object _ ?_, .object _ nofun, nofun⟩
    simp only [List.forall_mem_cons]
    exact ⟨.int _, .null, nofun⟩
  cases hr : Source.readProgram accessorText with
  | error => simp [hr, Except.toOption] at facts
  | ok t =>
    simp only [hr, Except.toOption, Option.any_some] at facts
    refine ⟨t, rfl, fun method => ?_⟩
    have hmoves : ∀ m ∈ [Move.find (.object none none none none), .visit], m.Membered := by
      simp [Move.Membered]
    obtain ⟨e', he, hcurrent, hmatches⟩ := run_change_matches hr _ hmoves rfl (.inr (.refl _)) facts method hproper hfree
    exact ⟨e', he, hcurrent ▸ hmatches⟩

end Editing
end Graft
