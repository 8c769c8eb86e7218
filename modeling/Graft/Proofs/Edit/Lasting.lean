import Graft.Proofs.Edit.Layered
/-!
# The last member with a key

When an object literal has several members with one key, the last of them decides what it holds there. An update lays its data over
the first one. So it is in force for a key iff no more than one member has the key, or the last one holds already what it should
(`Tree.inForce_layered`, `Editing.run_update_inForce_iff`).
-/

namespace Graft
namespace Tree

/-- The members with a key. -/
def withKey (members : List Tree) (name : String) : List Tree := members.filter fun m => m.memberKey? = some name

/-- A member that is written `key: value`. -/
def isKeyValue (member : Tree) : Bool :=
  match member.node with
  | .property key value kind _ shorthand method => kind = .init && !method && !(shorthand && shorthandIntact key value)
  | _ => false

/-- The last member with a key is `key: value` with this value. -/
def InForce (members : List Tree) (name : String) (value : Tree) : Prop :=
  ∃ m, (withKey members name).getLast? = some m ∧ m.isKeyValue = true ∧ m.propertyValue? = some value

/-- What data makes of a value: an object is laid over an object literal, and any other value takes its place. -/
def laidOver (was : Tree) : Json → Tree
  | .object data => if was.isObject then .mk (.objectExpression (layered was.members data)) else (Json.object data).tree
  | j => j.tree

/-- What the last member with a key is to hold after an update. -/
def due (old : List Tree) (name : String) (j : Json) : Tree :=
  match (withKey old name).getLast?.bind propertyValue? with
  | some was => laidOver was j
  | none => j.tree

variable {old more : List Tree} {member was value : Tree} {j : Json} {data : List (String × Json)} {name : String}
  {change : String → Tree → Tree} {seen : List String}

/-! ## Members with a key -/

theorem withKey_append (members more : List Tree) (name : String) :
    withKey (members ++ more) name = withKey members name ++ withKey more name := List.filter_append ..

theorem withKey_cons_of_eq (hk : member.memberKey? = some name) (members : List Tree) :
    withKey (member :: members) name = member :: withKey members name := List.filter_cons_of_pos (decide_eq_true hk)

theorem withKey_cons_of_ne (hk : member.memberKey? ≠ some name) (members : List Tree) :
    withKey (member :: members) name = withKey members name := List.filter_cons_of_neg (by simpa using hk)

/-- Changes the first of some members. -/
def changeHead (change : Tree → Tree) : List Tree → List Tree
  | [] => []
  | member :: rest => change member :: rest

/-- Of the members with one key only the first is changed. -/
theorem withKey_changeFirsts (hkey : ∀ name m, (change name m).memberKey? = m.memberKey?) (old : List Tree) (seen : List String) :
    withKey (changeFirsts change seen old) name =
      if name ∈ seen then withKey old name else changeHead (change name) (withKey old name) := by
  induction old generalizing seen with
  | nil =>
    split
    · rfl
    · rfl
  | cons m old ih =>
    rw [changeFirsts]
    cases hk : m.memberKey? with
    | none =>
      have hne : m.memberKey? ≠ some name := by simp [hk]
      dsimp only
      rw [withKey_cons_of_ne hne, withKey_cons_of_ne hne, ih]
    | some key =>
      dsimp only
      by_cases he : key = name
      · subst he
        have hkept : (if key ∈ seen then m else change key m).memberKey? = some key := by
          rw [apply_ite memberKey?, hkey, ite_self, hk]
        rw [withKey_cons_of_eq hkept, withKey_cons_of_eq hk, ih, if_pos List.mem_cons_self]
        by_cases hs : key ∈ seen
        · rw [if_pos hs, if_pos hs]
        · rw [if_neg hs, if_neg hs]
          rfl
      · have hne : m.memberKey? ≠ some name := by simpa [hk] using he
        have hkept : (if key ∈ seen then m else change key m).memberKey? ≠ some name := by
          rwa [apply_ite memberKey?, hkey, ite_self]
        have hmem : name ∈ key :: seen ↔ name ∈ seen := by rw [List.mem_cons, or_iff_right fun h => he h.symm]
        rw [withKey_cons_of_ne hkept, withKey_cons_of_ne hne, ih]
        simp only [hmem]

theorem withKey_memberTrees_of_notMem (h : name ∉ data.map Prod.fst) : withKey (Json.memberTrees data) name = [] := by
  apply List.filter_eq_nil_iff.2
  intro m hm
  obtain ⟨d, hd, rfl⟩ := mem_memberTrees.1 hm
  rw [Json.memberKey?_plainProperty, decide_eq_true_eq, Option.some.injEq]
  rintro rfl
  exact h (List.mem_map_of_mem hd)

theorem withKey_memberTrees (hkeys : (data.map Prod.fst).Nodup) {d : String × Json} (hd : d ∈ data) :
    withKey (Json.memberTrees data) d.1 = [Source.plainProperty (Json.key d.1) d.2.tree] := by
  induction data with
  | nil => cases hd
  | cons first data ih =>
    rw [List.map_cons, List.nodup_cons] at hkeys
    have hkey := Json.memberKey?_plainProperty first.1 first.2.tree
    rw [Json.memberTrees]
    rcases List.mem_cons.1 hd with rfl | hd
    · rw [withKey_cons_of_eq hkey, withKey_memberTrees_of_notMem hkeys.1]
    · rw [withKey_cons_of_ne, ih hkeys.2 hd]
      rw [hkey, ne_eq, Option.some.injEq]
      intro he
      exact hkeys.1 (List.mem_map.2 ⟨d, hd, he.symm⟩)

/-- For a key of the data, the first member with it takes the value, or a new one brings it. -/
theorem withKey_layered (hkeys : (data.map Prod.fst).Nodup) {d : String × Json} (hd : d ∈ data) :
    withKey (layered old data) d.1 = match withKey old d.1 with
      | [] => [Source.plainProperty (Json.key d.1) d.2.tree]
      | first :: rest => overlay d.2 first :: rest := by
  have hold : withKey (changeFirsts (changeFor (overlays data)) [] old) d.1 = changeHead (overlay d.2) (withKey old d.1) := by
    rw [withKey_changeFirsts (memberKey?_changeFor data), if_neg List.not_mem_nil, changeFor_of_mem hkeys hd]
  have hnodup : ((newData old data).map Prod.fst).Nodup := hkeys.sublist (List.filter_sublist.map Prod.fst)
  rw [layered, withKey_append, hold]
  cases hw : withKey old d.1 with
  | nil =>
    have hnew : d ∈ newData old data := by
      refine List.mem_filter.2 ⟨hd, List.all_eq_true.2 fun m hm => decide_eq_true fun hk => ?_⟩
      exact List.filter_eq_nil_iff.1 hw m hm (decide_eq_true hk)
    exact withKey_memberTrees hnodup hnew
  | cons first rest =>
    have hfirst : first ∈ withKey old d.1 := by simp [hw]
    obtain ⟨hmem, hk⟩ := List.mem_filter.1 hfirst
    have hnew : d.1 ∉ (newData old data).map Prod.fst := by
      intro hn
      obtain ⟨d', hd', he⟩ := List.mem_map.1 hn
      have hall := List.all_eq_true.1 (List.mem_filter.1 hd').2 first hmem
      rw [he] at hall
      exact of_decide_eq_true hall (of_decide_eq_true hk)
    rw [withKey_memberTrees_of_notMem hnew, List.append_nil]
    rfl

/-! ## In force -/

section Property
variable {key : Tree} {kind : PropertyKind} {computed shorthand method : Bool}

/-- What holds an object literal is neither a method nor an accessor. -/
theorem isKeyValue_of_isObject (hfirm : (Tree.mk (.property key was kind computed shorthand method)).Firm .method)
    (ho : was.isObject = true) (value : Tree) (hv : value.isObject = true) :
    (Tree.mk (.property key value kind computed shorthand method)).isKeyValue = true := by
  have hplain : (kind = .init && !method) = true := by
    by_contra hno
    have hfunction : Slot.method.allows was.node = true := by
      apply hfirm.firmly was
      rw [Node.firmly, if_pos]
      · exact List.mem_singleton_self was
      · rw [Bool.eq_false_iff.2 hno]
        rfl
    obtain ⟨n⟩ := was
    cases n with
    | objectExpression properties => cases hfunction
    | _ => cases ho
  have hshort : shorthandIntact key value = false := by
    obtain ⟨n⟩ := value
    cases n with
    | objectExpression properties =>
      unfold shorthandIntact
      cases key.identifierName? <;> rfl
    | _ => cases hv
  rw [isKeyValue, node]
  simp only [hshort, Bool.and_false, Bool.not_false, Bool.and_true]
  exact hplain

end Property

/-- A property that data is laid over is `key: value` and holds what the data makes of its value. -/
theorem overlay_keyValue {property : Tree} (hfirm : property.Firm .method) (hv : property.propertyValue? = some was) (j : Json) :
    (overlay j property).isKeyValue = true ∧ (overlay j property).propertyValue? = some (laidOver was j) := by
  obtain ⟨n⟩ := property
  cases n with
  | property key old kind computed shorthand method =>
    obtain rfl : old = was := Option.some.inj hv
    by_cases h : old.isObject = true ∧ j.tree.isObject = true
    · obtain ⟨data, rfl⟩ := isObject_tree_iff.1 h.2
      rw [overlay_deeper h.1, laidOver, if_pos h.1]
      exact ⟨isKeyValue_of_isObject hfirm h.1 _ rfl, rfl⟩
    · have hlaid : laidOver old j = j.tree := by
        cases j with
        | object data => exact if_neg fun ho => h ⟨ho, rfl⟩
        | _ => rfl
      rw [overlay_replaced h, hlaid]
      exact ⟨rfl, rfl⟩
  | _ => cases hv

theorem Firm.ofMembers {t : Tree} {σ : Slot} (h : t.Firm σ) (ho : t.isObject = true) : ∀ m ∈ t.members, m.Firm σ := by
  obtain ⟨n⟩ := t
  cases n with
  | objectExpression properties =>
    intro m hm
    apply h.children
    rwa [Node.children_objectExpression]
  | _ => cases ho

/-- An update is in force for a key if no more than one member has the key, and otherwise only if it was so before. -/
theorem inForce_layered (hkeys : (data.map Prod.fst).Nodup) (hold : AllMembers old) (hfirm : ∀ m ∈ old, m.Firm .method)
    {d : String × Json} (hd : d ∈ data) : InForce (layered old data) d.1 (due old d.1 d.2) ↔
      (withKey old d.1).length ≤ 1 ∨ InForce old d.1 (due old d.1 d.2) := by
  unfold InForce
  rw [withKey_layered hkeys hd]
  cases hw : withKey old d.1 with
  | nil =>
    have hdue : due old d.1 d.2 = d.2.tree := by rw [due, hw]; rfl
    rw [hdue]
    refine iff_of_true ⟨_, rfl, rfl, rfl⟩ (.inl (Nat.zero_le 1))
  | cons first rest =>
    cases rest with
    | nil =>
      obtain ⟨hmem, hk⟩ := List.mem_filter.1 (show first ∈ withKey old d.1 by simp [hw])
      obtain ⟨was, hwas⟩ := exists_property (hold first hmem).1 (of_decide_eq_true hk)
      have hdue : due old d.1 d.2 = laidOver was d.2 := by
        rw [due, hw, List.getLast?_singleton, Option.bind_some, hwas]
      obtain ⟨hplain, hvalue⟩ := overlay_keyValue (hfirm first hmem) hwas d.2
      rw [hdue]
      exact iff_of_true ⟨_, rfl, hplain, hvalue⟩ (.inl (Nat.le_refl 1))
    | cons second rest =>
      -- the last member is not the first, so it is as it was
      have hlast (m : Tree) : (m :: second :: rest).getLast? = (second :: rest).getLast? := List.getLast?_cons_cons
      simp only [hlast]
      rw [or_iff_right (by simp)]

end Tree

/-! ## Runs -/

namespace Editing

/-- In a program, after whatever moves, an object literal is updated with any JSON object, and for each key of it the update is in
force iff at most one member of the literal has the key, or the last one with it holds already what it is to hold. -/
theorem run_update_inForce_iff {text : String} {t : Tree} (ht : Source.readProgram text = .ok t) (moves : List Move)
    (hmoves : ∀ m ∈ moves, m.IsReal) {e : Editor} (he : ((start t).run moves).editor = e) {x target : NodeId}
    (hx : Below e.store.children e.store.root x ∨ Below e.store.children e.current x)
    (htarget : (e.moveTo x).updateTarget? = some target) {data : List (String × Json)} (hj : (Json.object data).Proper) :
    ∃ e', (e.moveTo x).change .update (.data (.object data)) = .ok e' ∧ ∀ d ∈ data,
      (Tree.InForce (e'.store.tree target).members d.1 (Tree.due (e.store.tree target).members d.1 d.2) ↔
        (Tree.withKey (e.store.tree target).members d.1).length ≤ 1 ∨
          Tree.InForce (e.store.tree target).members d.1 (Tree.due (e.store.tree target).members d.1 d.2)) := by
  subst he
  obtain ⟨K, hs⟩ := run_sound_at t moves hx
  have hm : (((start t).run moves).editor.moveTo x).store.Membered :=
    run_membered ht moves fun m hm => (hmoves m hm).membered
  have hfirm : (((start t).run moves).editor.moveTo x).store.Firm .method :=
    run_firm rfl ht moves fun m hm => (hmoves m hm).firm .method
  obtain ⟨e', K', he', -, -, hu⟩ := Editor.update_layered hs hm htarget hj
  obtain ⟨htK, ho⟩ := Editor.updateTarget?_known hs htarget
  have htree : (((start t).run moves).editor.store.tree target).isObject = true :=
    (Store.isObject_tree hs.forest hs.inside htK).trans ho
  have hold : Tree.AllMembers (((start t).run moves).editor.store.tree target).members :=
    (hm.tree hs.forest hs.inside htK).ofObject htree
  have hmethods : ∀ m ∈ (((start t).run moves).editor.store.tree target).members, m.Firm .method :=
    (hfirm.tree rfl hs.forest hs.inside htK).ofMembers htree
  refine ⟨e', he', fun d hd => ?_⟩
  rw [hu.literal]
  cases hj with
  | object _ _ hkeys => exact Tree.inForce_layered hkeys hold hmethods hd

/-- A key twice, with an accessor last, another one twice with the same value last, and one with a nested literal. -/
def repeatedKeysText : String := "x = \x7b a: 1, get a() \x7b \x7d, b: 2, 'b': 3, c: \x7b d: 4 \x7d \x7d;"

def repeatedKeysData : List (String × Json) := [("a", .int 5), ("b", .int 3), ("c", .object [("d", .null)]), ("e", .bool true)]

theorem repeated_keys_inForce_iff : ∃ t, Source.readProgram repeatedKeysText = .ok t ∧
    let e := ((start t).run [.find (.object none none none none), .visit]).editor
    ∃ e', (e.moveTo e.current).change .update (.data (.object repeatedKeysData)) = .ok e' ∧ ∀ d ∈ repeatedKeysData,
      (Tree.InForce (e'.store.tree e.current).members d.1 (Tree.due (e.store.tree e.current).members d.1 d.2) ↔
        (Tree.withKey (e.store.tree e.current).members d.1).length ≤ 1 ∨
          Tree.InForce (e.store.tree e.current).members d.1 (Tree.due (e.store.tree e.current).members d.1 d.2)) := by
  have facts : (Source.readProgram repeatedKeysText).toOption.any (fun t =>
      let e := ((start t).run [.find (.object none none none none), .visit]).editor
      (e.moveTo e.current).updateTarget? = some e.current) = true := by decide +kernel
  have hproper : (Json.object repeatedKeysData).Proper := by
    have inner : (Json.object [("d", .null)]).Proper := by
      refine .object _ ?_ (by decide)
      simp only [List.forall_mem_cons]
      exact ⟨.null, nofun⟩
    refine .object _ ?_ (by decide)
    simp only [repeatedKeysData, List.forall_mem_cons]
    exact ⟨.int _ (by decide), .int _ (by decide), inner, .bool true, nofun⟩
  cases hr : Source.readProgram repeatedKeysText with
  | error => simp [hr, Except.toOption] at facts
  | ok t =>
    simp only [hr, Except.toOption, Option.any_some] at facts
    have hmoves : ∀ m ∈ [Move.find (.object none none none none), .visit], m.IsReal := by simp [Move.IsReal]
    exact ⟨t, rfl, run_update_inForce_iff hr _ hmoves rfl (.inr (.refl _)) (of_decide_eq_true facts) hproper⟩

/-- A key twice, and an update that only the first member takes. -/
theorem repeated_key_not_inForce : ∃ t, Source.readProgram "x = \x7b a: 1, a: 2 \x7d;" = .ok t ∧ ∃ e',
    ((start t).run [.find (.object none none none none), .visit]).editor.change .update (.data (.object [("a", .int 3)])) = .ok e' ∧
      ¬ Tree.InForce (e'.store.tree e'.current).members "a" (Json.int 3).tree := by
  have facts : (Source.readProgram "x = \x7b a: 1, a: 2 \x7d;").toOption.any (fun t =>
      (((start t).run [.find (.object none none none none), .visit]).editor.change .update
        (.data (.object [("a", .int 3)]))).toOption.any fun e' =>
          ((Tree.withKey (e'.store.tree e'.current).members "a").getLast?.bind Tree.propertyValue?).any fun value =>
            !value.hasValue (.int 3)) = true := by decide +kernel
  cases hr : Source.readProgram "x = \x7b a: 1, a: 2 \x7d;" with
  | error => simp [hr, Except.toOption] at facts
  | ok t =>
    simp only [hr, Except.toOption, Option.any_some] at facts
    cases hc : ((start t).run [.find (.object none none none none), .visit]).editor.change .update
        (.data (.object [("a", .int 3)])) with
    | error => simp [hc] at facts
    | ok e' =>
      simp only [hc, Option.any_some] at facts
      refine ⟨t, rfl, e', hc, ?_⟩
      rintro ⟨m, hm, -, hvalue⟩
      have hnot : (!(Json.int 3).tree.hasValue (.int 3)) = true := by simpa [hm, hvalue] using facts
      rw [Json.hasValue_tree (.int 3 (by decide)) (.int 3)] at hnot
      cases hnot

end Editing
end Graft
