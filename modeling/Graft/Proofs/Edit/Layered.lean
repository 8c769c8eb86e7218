import Graft.Proofs.Edit.Updating
/-!
# Data laid over object literals

What an update leaves of an object literal, member by member: `Tree.layered` keeps the members in their order, changes the first one
with each key of the data, and puts the keys that none of them has behind them in the order of the data. Merging comes to that at
every depth (`Tree.mergeMembers_eq_layered`), and laying the same data over it once more changes nothing (`Tree.layered_layered`).
So an update of a program is a merge that leaves all other nodes alone, and the second one prints the same text
(`Editing.run_update_layered`).
-/

namespace Graft

/-- Of the values only objects have values inside that a merge looks into. -/
theorem Json.Proper.byObjects {motive : (j : Json) → j.Proper → Prop}
    (plain : ∀ j hj, j.tree.isObject = false → motive j hj)
    (object : ∀ data hproper hkeys, (∀ d, ∀ hd : d ∈ data, motive d.2 (hproper d hd)) →
      motive (.object data) (.object data hproper hkeys))
    {j : Json} (hj : j.Proper) : motive j hj := by
  induction hj with
  | null => exact plain _ _ rfl
  | bool b => exact plain _ _ rfl
  | int n => exact plain _ _ (Tree.isObject_signedTree _)
  | double x => exact plain _ _ (Tree.isObject_signedTree _)
  | string s => exact plain _ _ rfl
  | array items => exact plain _ _ rfl
  | object data hproper hkeys ih => exact object data hproper hkeys ih

namespace Tree

/-- Changes the first member with each key that is not among the seen ones. -/
def changeFirsts (change : String → Tree → Tree) (seen : List String) : List Tree → List Tree
  | [] => []
  | member :: rest =>
    match member.memberKey? with
    | some name => (if name ∈ seen then member else change name member) :: changeFirsts change (name :: seen) rest
    | none => member :: changeFirsts change seen rest

/-- The data whose keys are in no member. -/
def newData (old : List Tree) (data : List (String × Json)) : List (String × Json) :=
  data.filter fun m => old.all fun member => member.memberKey? ≠ some m.1

/-- The change that is listed for a key. -/
def changeFor (changes : List (String × (Tree → Tree))) (name : String) : Tree → Tree := (changes.lookup name).getD id

mutual
/-- A property with a value laid over its own: an object goes into an object literal, and any other value takes the place of the
old one, in a plain `key: value`. -/
def overlay : Json → Tree → Tree
  | .object data, .mk (.property key was kind computed shorthand method) =>
    if was.isObject then
      .mk (.property key (.mk (.objectExpression
        (changeFirsts (changeFor (overlays data)) [] was.members ++ Json.memberTrees (newData was.members data))))
        kind computed shorthand method)
    else .mk (.property key (Json.object data).tree .init computed false false)
  | j, .mk (.property key _ _ computed _ _) => .mk (.property key j.tree .init computed false false)
  | _, member => member

def overlays : List (String × Json) → List (String × (Tree → Tree))
  | [] => []
  | (name, j) :: rest => (name, overlay j) :: overlays rest
end

/-- Data laid over the members of an object literal. -/
def layered (old : List Tree) (data : List (String × Json)) : List Tree :=
  changeFirsts (changeFor (overlays data)) [] old ++ Json.memberTrees (newData old data)

variable {old pre post more : List Tree} {member was : Tree} {j : Json} {data : List (String × Json)} {name : String}
  {change change' : String → Tree → Tree} {seen : List String}

/-! ## One member -/

section Property
variable {key : Tree} {kind : PropertyKind} {computed shorthand method : Bool}

theorem overlay_deeper (ho : was.isObject = true) : overlay (.object data) (.mk (.property key was kind computed shorthand method))
    = .mk (.property key (.mk (.objectExpression (layered was.members data))) kind computed shorthand method) := by
  rw [overlay, if_pos ho, layered]

theorem isObject_tree_iff : j.tree.isObject = true ↔ ∃ data, j = .object data := by
  constructor
  · intro h
    cases j with
    | object data => exact ⟨data, rfl⟩
    | int n => simp [Json.tree, isObject_signedTree] at h
    | double x => simp [Json.tree, isObject_signedTree] at h
    | _ => cases h
  · rintro ⟨data, rfl⟩
    rfl

theorem overlay_replaced (h : ¬ (was.isObject = true ∧ j.tree.isObject = true)) :
    overlay j (.mk (.property key was kind computed shorthand method)) = .mk (.property key j.tree .init computed false false) := by
  cases j with
  | object data => rw [overlay, if_neg fun ho => h ⟨ho, rfl⟩]
  | _ => rw [overlay]; simp

end Property

theorem overlay_other (h : member.propertyValue? = none) : overlay j member = member := by
  obtain ⟨n⟩ := member
  cases n with
  | property => cases h
  | _ => cases j <;> rfl

theorem memberKey?_overlay (j : Json) (member : Tree) : (overlay j member).memberKey? = member.memberKey? := by
  obtain ⟨n⟩ := member
  cases n with
  | property key was kind computed shorthand method =>
    by_cases h : was.isObject = true ∧ j.tree.isObject = true
    · obtain ⟨data, rfl⟩ := isObject_tree_iff.1 h.2
      rw [overlay_deeper h.1]
      rfl
    · rw [overlay_replaced h]
      rfl
  | _ => rw [overlay_other rfl]

/-! ## Listed changes -/

theorem changeFor_cons_self (name : String) (j : Json) (data : List (String × Json)) :
    changeFor (overlays ((name, j) :: data)) name = overlay j := by
  rw [overlays, changeFor, List.lookup_cons_self, Option.getD_some]

theorem changeFor_cons_of_ne {other : String} (hne : other ≠ name) (j : Json) (data : List (String × Json)) :
    changeFor (overlays ((name, j) :: data)) other = changeFor (overlays data) other := by
  rw [overlays, changeFor, List.lookup_cons, beq_false_of_ne hne, changeFor]

/-- A key that the data has not is left alone. -/
theorem changeFor_of_notMem (h : name ∉ data.map Prod.fst) : changeFor (overlays data) name = id := by
  induction data with
  | nil => rfl
  | cons m data ih =>
    rw [List.map_cons, List.mem_cons, not_or] at h
    rw [changeFor_cons_of_ne h.1, ih h.2]

theorem changeFor_of_mem (hkeys : (data.map Prod.fst).Nodup) {m : String × Json} (hm : m ∈ data) :
    changeFor (overlays data) m.1 = overlay m.2 := by
  induction data with
  | nil => cases hm
  | cons first data ih =>
    rw [List.map_cons, List.nodup_cons] at hkeys
    rcases List.mem_cons.1 hm with rfl | hm
    · exact changeFor_cons_self ..
    · have hne : m.1 ≠ first.1 := by
        intro he
        exact hkeys.1 (he ▸ List.mem_map_of_mem hm)
      rw [changeFor_cons_of_ne hne, ih hkeys.2 hm]

/-- What is listed for a key is the identity, or lays a value of the data over a member. -/
theorem changeFor_cases (data : List (String × Json)) (name : String) :
    changeFor (overlays data) name = id ∨ ∃ m ∈ data, changeFor (overlays data) name = overlay m.2 := by
  induction data with
  | nil => exact .inl rfl
  | cons first data ih =>
    by_cases he : name = first.1
    · exact .inr ⟨first, List.mem_cons_self, he ▸ changeFor_cons_self ..⟩
    · rw [changeFor_cons_of_ne he]
      exact ih.imp id fun ⟨m, hm, heq⟩ => ⟨m, List.mem_cons_of_mem first hm, heq⟩

/-! ## Changes of first members -/

/-- Changes of the keys that are looked at decide. -/
theorem changeFirsts_congr (h : ∀ name, name ∉ seen → ∀ m ∈ old, m.memberKey? = some name → change' name m = change name m) :
    changeFirsts change' seen old = changeFirsts change seen old := by
  induction old generalizing seen with
  | nil => rfl
  | cons m old ih =>
    have hrest (name : String) (hname : name ∉ seen) (m' : Tree) (hm' : m' ∈ old) :=
      h name hname m' (List.mem_cons_of_mem m hm')
    cases hk : m.memberKey? with
    | none => rw [changeFirsts, changeFirsts, hk, ih hrest]
    | some key =>
      rw [changeFirsts, changeFirsts, hk]
      dsimp only
      rw [ih fun name hname => hrest name fun hs => hname (List.mem_cons_of_mem key hs)]
      by_cases hs : key ∈ seen
      · rw [if_pos hs, if_pos hs]
      · rw [if_neg hs, if_neg hs, h key hs m List.mem_cons_self hk]

/-- Behind the members come others that no change alters. -/
theorem changeFirsts_append (h : ∀ m ∈ more, ∀ name, m.memberKey? = some name → change name m = m) :
    changeFirsts change seen (old ++ more) = changeFirsts change seen old ++ more := by
  induction old generalizing seen with
  | nil =>
    induction more generalizing seen with
    | nil => rfl
    | cons m more ih =>
      have hrest (seen : List String) : changeFirsts change seen ([] ++ more) = changeFirsts change seen [] ++ more :=
        ih fun m' hm' => h m' (List.mem_cons_of_mem m hm')
      simp only [List.nil_append, changeFirsts] at hrest ⊢
      cases hk : m.memberKey? with
      | none => exact congrArg (m :: ·) (hrest seen)
      | some key =>
        dsimp only
        rw [hrest, h m List.mem_cons_self key hk, ite_self]
  | cons m old ih =>
    rw [List.cons_append, changeFirsts, changeFirsts]
    cases m.memberKey? with
    | none => exact congrArg (m :: ·) ih
    | some key => exact congrArg (_ :: ·) ih

/-- One more change, of a key that is not seen: the first member with the key may as well be changed beforehand. -/
theorem changeFirsts_first (hpre : ∀ m ∈ pre, m.memberKey? ≠ some name) (hm : member.memberKey? = some name)
    (hkey : (change' name member).memberKey? = some name) (hid : change name = id)
    (hother : ∀ other, other ≠ name → change' other = change other) (hseen : name ∉ seen) :
    changeFirsts change' seen (pre ++ member :: post) = changeFirsts change seen (pre ++ change' name member :: post) := by
  induction pre generalizing seen with
  | nil =>
    have hpost : changeFirsts change' (name :: seen) post = changeFirsts change (name :: seen) post :=
      changeFirsts_congr fun other ho m _ _ => by rw [hother other fun he => ho (he ▸ List.mem_cons_self)]
    rw [List.nil_append, List.nil_append, changeFirsts, changeFirsts, hm, hkey]
    dsimp only
    rw [if_neg hseen, if_neg hseen, hid, id, hpost]
  | cons first pre ih =>
    have hrest := fun m hm => hpre m (List.mem_cons_of_mem first hm)
    rw [List.cons_append, List.cons_append, changeFirsts, changeFirsts]
    cases hk : first.memberKey? with
    | none => exact congrArg (first :: ·) (ih hrest hseen)
    | some other =>
      have hne : other ≠ name := by
        rintro rfl
        exact hpre first List.mem_cons_self hk
      dsimp only
      rw [ih hrest (by simp [hne.symm, hseen]), hother other hne]

/-- Changing twice is changing once, if each change alone is so and keeps the key. -/
theorem changeFirsts_changeFirsts (hkey : ∀ name m, (change name m).memberKey? = m.memberKey?)
    (htwice : ∀ name, ∀ m ∈ old, change name (change name m) = change name m) :
    changeFirsts change seen (changeFirsts change seen old) = changeFirsts change seen old := by
  induction old generalizing seen with
  | nil => rfl
  | cons m old ih =>
    have hrest (seen : List String) : changeFirsts change seen (changeFirsts change seen old) = changeFirsts change seen old :=
      ih fun name m' hm' => htwice name m' (List.mem_cons_of_mem m hm')
    have hcons : changeFirsts change seen (m :: old) = match m.memberKey? with
        | some name => (if name ∈ seen then m else change name m) :: changeFirsts change (name :: seen) old
        | none => m :: changeFirsts change seen old := rfl
    rw [hcons]
    cases hk : m.memberKey? with
    | none =>
      dsimp only
      rw [changeFirsts, hk]
      exact congrArg (m :: ·) (hrest seen)
    | some key =>
      dsimp only
      by_cases hs : key ∈ seen
      · rw [if_pos hs, changeFirsts, hk]
        dsimp only
        rw [if_pos hs, hrest]
      · rw [if_neg hs, changeFirsts, hkey, hk]
        dsimp only
        rw [if_neg hs, htwice key m List.mem_cons_self, hrest]

theorem map_memberKey?_changeFirsts (hkey : ∀ name m, (change name m).memberKey? = m.memberKey?) :
    (changeFirsts change seen old).map memberKey? = old.map memberKey? := by
  induction old generalizing seen with
  | nil => rfl
  | cons m old ih =>
    rw [changeFirsts]
    cases hk : m.memberKey? with
    | none =>
      dsimp only
      rw [List.map_cons, List.map_cons, ih]
    | some key =>
      dsimp only
      rw [List.map_cons, List.map_cons, ih, apply_ite memberKey?, hkey, ite_self]

/-! ## Merging is laying over -/

theorem newData_append (h : ∀ m ∈ more, ∀ d ∈ data, m.memberKey? ≠ some d.1) : newData (old ++ more) data = newData old data := by
  refine List.filter_congr fun d hd => ?_
  have hmore : more.all (fun m => m.memberKey? ≠ some d.1) = true := List.all_eq_true.2 fun m hm => decide_eq_true (h m hm d hd)
  rw [List.all_append, hmore, Bool.and_true]

theorem newData_congr (h : post.map memberKey? = old.map memberKey?) : newData post data = newData old data := by
  refine List.filter_congr fun d _ => ?_
  have hall (ms : List Tree) : ms.all (fun m => m.memberKey? ≠ some d.1) = (ms.map memberKey?).all (· ≠ some d.1) := by
    rw [List.all_map]
    rfl
  rw [hall, hall, h]

theorem changeFirsts_id (seen : List String) (old : List Tree) : changeFirsts (fun _ => id) seen old = old := by
  induction old generalizing seen with
  | nil => rfl
  | cons m old ih =>
    rw [changeFirsts]
    cases m.memberKey? with
    | none => simp [ih]
    | some name => simp [ih]

section Cons
variable {rest : List (String × Json)} (hname : name ∉ rest.map Prod.fst)
include hname

/-- A key that no member has comes behind them. -/
theorem layered_cons_new (hnew : ∀ m ∈ old, m.memberKey? ≠ some name) :
    layered old ((name, j) :: rest) = layered (old ++ [Source.plainProperty (Json.key name) j.tree]) rest := by
  have hkey := Json.memberKey?_plainProperty name j.tree
  have hdata : newData old ((name, j) :: rest) = (name, j) :: newData old rest :=
    List.filter_cons_of_pos (List.all_eq_true.2 fun m hm => decide_eq_true (hnew m hm))
  have hrest : newData (old ++ [Source.plainProperty (Json.key name) j.tree]) rest = newData old rest := by
    refine newData_append ?_
    simp only [List.forall_mem_singleton, hkey, ne_eq, Option.some.injEq]
    rintro d hd rfl
    exact hname (List.mem_map_of_mem hd)
  have hold : changeFirsts (changeFor (overlays ((name, j) :: rest))) [] old = changeFirsts (changeFor (overlays rest)) [] old := by
    refine changeFirsts_congr fun other _ m hm hk => ?_
    rw [changeFor_cons_of_ne]
    rintro rfl
    exact hnew m hm hk
  rw [layered, layered, hdata, hrest, hold, changeFirsts_append, Json.memberTrees, List.append_assoc, List.singleton_append]
  simp only [List.forall_mem_singleton, hkey, Option.some.injEq]
  rintro _ rfl
  rw [changeFor_of_notMem hname, id]

/-- A key that a member has changes the first one that has it. -/
theorem layered_cons_first (hpre : ∀ m ∈ pre, m.memberKey? ≠ some name) (hm : member.memberKey? = some name) :
    layered (pre ++ member :: post) ((name, j) :: rest) = layered (pre ++ overlay j member :: post) rest := by
  have hself := changeFor_cons_self name j rest
  have hdata : newData (pre ++ member :: post) ((name, j) :: rest) = newData (pre ++ overlay j member :: post) rest := by
    rw [newData, List.filter_cons_of_neg (by simp [hm]), ← newData]
    refine newData_congr ?_
    simp only [List.map_append, List.map_cons, memberKey?_overlay]
  rw [layered, layered, hdata, ← hself, changeFirsts_first hpre hm]
  · rw [hself, memberKey?_overlay, hm]
  · exact changeFor_of_notMem hname
  · exact fun other hne => changeFor_cons_of_ne hne j rest
  · exact List.not_mem_nil

end Cons

/-- Merging members one after the other comes to laying all the data over the literal, if this is so for each value. -/
theorem mergeMembers_layered (hkeys : (data.map Prod.fst).Nodup)
    (hinto : ∀ m ∈ old, ∀ d ∈ data, m.memberKey? = some d.1 → mergeInto m d.2.tree = some (overlay d.2 m)) :
    mergeMembers old (Json.memberTrees data) = layered old data := by
  -- What is left of the data finds the literal with the first value laid over it already.
  induction data generalizing old with
  | nil => 
    rw [Json.memberTrees, mergeMembers, layered, newData, List.filter_nil, Json.memberTrees, List.append_nil]
    exact (changeFirsts_id [] old).symm
  | cons first rest ih =>
    obtain ⟨name, j⟩ := first
    rw [List.map_cons, List.nodup_cons] at hkeys
    have hkey := Json.memberKey?_plainProperty name j.tree
    -- a member with this key takes no more of the data
    have done {m : Tree} (hm : m.memberKey? = some name) (d : String × Json) (hd : d ∈ rest) : m.memberKey? ≠ some d.1 := by
      rw [hm, ne_eq, Option.some.injEq]
      intro he
      exact hkeys.1 (List.mem_map.2 ⟨d, hd, he.symm⟩)
    have hrest (m : Tree) (hm : m ∈ old) (d : String × Json) (hd : d ∈ rest) := hinto m hm d (List.mem_cons_of_mem _ hd)
    rw [Json.memberTrees, mergeMembers]
    rcases first_cases old name with hnew | ⟨pre, member, post, rfl, hpre, hm⟩
    · have happ : mergeMember old (Source.plainProperty (Json.key name) j.tree)
          = old ++ [Source.plainProperty (Json.key name) j.tree] := by
        exact mergeMember_new rfl hkey hnew
      rw [happ, layered_cons_new hkeys.1 hnew]
      refine ih hkeys.2 fun m hm d hd hk => ?_
      rcases List.mem_append.1 hm with hm | hm
      · exact hrest m hm d hd hk
      · rw [List.mem_singleton.1 hm] at hk
        exact absurd hk (done hkey d hd)
    · have hchanged := hinto member (by simp) (name, j) List.mem_cons_self hm
      rw [mergeMember_found rfl hkey hpre hm hchanged, layered_cons_first hkeys.1 hpre hm]
      refine ih hkeys.2 fun m hm' d hd hk => ?_
      rcases List.mem_append.1 hm' with hm' | hm'
      · exact hrest m (List.mem_append_left _ hm') d hd hk
      rcases List.mem_cons.1 hm' with rfl | hm'
      · exact absurd hk (done ((memberKey?_overlay j member).trans hm) d hd)
      · exact hrest m (by simp [hm']) d hd hk

theorem Membered.of_propertyValue? {property : Tree} (h : property.Membered) (hv : property.propertyValue? = some was) :
    was.Membered := by
  obtain ⟨n⟩ := property
  cases n with
  | property key old kind computed shorthand method =>
    obtain rfl : old = was := Option.some.inj hv
    exact h.children old (by simp)
  | _ => cases hv

theorem mergeInto_plain {property : Tree} (hp : property.propertyValue? = some was) (hno : j.tree.isObject = false) :
    mergeInto property j.tree = some (overlay j property) := by
  obtain ⟨n⟩ := property
  cases n with
  | property key old kind computed shorthand method =>
    have hnot : ¬ (old.isObject = true ∧ j.tree.isObject = true) := by simp [hno]
    rw [mergeInto_replaced rfl hnot, overlay_replaced hnot]
  | _ => cases hp

theorem mergeMembers_of_values (hkeys : (data.map Prod.fst).Nodup) (hold : AllMembers old)
    (hinto : ∀ d ∈ data, ∀ property was : Tree, property.propertyValue? = some was → was.Membered →
      mergeInto property d.2.tree = some (overlay d.2 property)) :
    mergeMembers old (Json.memberTrees data) = layered old data := by
  refine mergeMembers_layered hkeys fun m hm d hd hk => ?_
  obtain ⟨hmember, hm⟩ := hold m hm
  obtain ⟨was, hv⟩ := exists_property hmember hk
  exact hinto d hd m was hv (hm.of_propertyValue? hv)

/-- A property takes the tree of a value as the value is laid over it. -/
theorem mergeInto_overlay (hj : j.Proper) {property : Tree} (hp : property.propertyValue? = some was) (hwas : was.Membered) :
    mergeInto property j.tree = some (overlay j property) := by
  induction hj using Json.Proper.byObjects generalizing property was with
  | plain j hj hno => exact mergeInto_plain hp hno
  | object data hproper hkeys ih =>
    obtain ⟨n⟩ := property
    cases n with
    | property key old kind computed shorthand method =>
      obtain rfl : old = was := Option.some.inj hp
      by_cases ho : old.isObject = true
      · have hmembers := mergeMembers_of_values hkeys (hwas.ofObject ho) fun d hd property was => ih d hd
        rw [mergeInto_deeper rfl ho rfl, overlay_deeper ho, ← hmembers]
        rfl
      · rw [mergeInto_replaced rfl fun h => ho h.1, overlay_replaced fun h => ho h.1]
    | _ => cases hp

/-- Merging the members of an object comes to laying the object over the literal. -/
theorem mergeMembers_object (hj : (Json.object data).Proper) (hold : AllMembers old) :
    mergeMembers old (Json.memberTrees data) = layered old data := by
  cases hj with
  | object _ hproper hkeys => exact mergeMembers_of_values hkeys hold fun d hd _ _ => mergeInto_overlay (hproper d hd)

/-! ## The same data once more -/

theorem mem_memberTrees : member ∈ Json.memberTrees data ↔ ∃ d ∈ data, Source.plainProperty (Json.key d.1) d.2.tree = member := by
  induction data with
  | nil => simp [Json.memberTrees]
  | cons d data ih => simp [Json.memberTrees, ih, eq_comm]

theorem memberKey?_changeFor (data : List (String × Json)) (name : String) (m : Tree) :
    (changeFor (overlays data) name m).memberKey? = m.memberKey? := by
  rcases changeFor_cases data name with h | ⟨d, -, h⟩
  · rw [h, id]
  · rw [h, memberKey?_overlay]

/-- Once data is laid over a literal, each key of it is in a member. -/
theorem newData_layered (old : List Tree) (data : List (String × Json)) : newData (layered old data) data = [] := by
  refine List.filter_eq_nil_iff.2 fun d hd hall => ?_
  rw [layered, List.all_append, Bool.and_eq_true] at hall
  have hold : d ∈ newData old data := by
    refine List.mem_filter.2 ⟨hd, List.all_eq_true.2 fun m hm => decide_eq_true fun hk => ?_⟩
    have hkeys : some d.1 ∈ (changeFirsts (changeFor (overlays data)) [] old).map memberKey? := by
      rw [map_memberKey?_changeFirsts (memberKey?_changeFor data), ← hk]
      exact List.mem_map_of_mem hm
    obtain ⟨m', hm', hk'⟩ := List.mem_map.1 hkeys
    exact of_decide_eq_true (List.all_eq_true.1 hall.1 m' hm') hk'
  have hmem : Source.plainProperty (Json.key d.1) d.2.tree ∈ Json.memberTrees (newData old data) := mem_memberTrees.2 ⟨d, hold, rfl⟩
  exact of_decide_eq_true (List.all_eq_true.1 hall.2 _ hmem) (Json.memberKey?_plainProperty d.1 d.2.tree)

/-- A plain property that holds a value already. -/
theorem overlay_plainProperty (htwice : ∀ property, overlay j (overlay j property) = overlay j property) (key : Source.Key) :
    overlay j (Source.plainProperty key j.tree) = Source.plainProperty key j.tree := by
  have hplain : overlay j (Source.plainProperty key Json.null.tree) = Source.plainProperty key j.tree :=
    overlay_replaced fun h => nomatch h.1
  rw [← hplain, htwice]

/-- Laying the same data over a literal once more changes nothing, if this is so for each value. -/
theorem layered_twice (hkeys : (data.map Prod.fst).Nodup)
    (htwice : ∀ d ∈ data, ∀ property, overlay d.2 (overlay d.2 property) = overlay d.2 property) :
    layered (layered old data) data = layered old data := by
  have hnew (m : Tree) (hm : m ∈ Json.memberTrees (newData old data)) (name : String) (hk : m.memberKey? = some name) :
      changeFor (overlays data) name m = m := by
    obtain ⟨d, hd, rfl⟩ := mem_memberTrees.1 hm
    have hmem : d ∈ data := List.mem_of_mem_filter hd
    obtain rfl : d.1 = name := Option.some.inj ((Json.memberKey?_plainProperty d.1 d.2.tree).symm.trans hk)
    rw [changeFor_of_mem hkeys hmem, overlay_plainProperty (htwice d hmem)]
  have hchange (name : String) (m : Tree) :
      changeFor (overlays data) name (changeFor (overlays data) name m) = changeFor (overlays data) name m := by
    rcases changeFor_cases data name with h | ⟨d, hd, h⟩
    · rw [h, id, id]
    · rw [h, htwice d hd]
  conv_lhs => rw [layered, newData_layered, Json.memberTrees, List.append_nil, layered, changeFirsts_append hnew,
    changeFirsts_changeFirsts (memberKey?_changeFor data) fun name m _ => hchange name m]
  rfl

theorem overlay_twice_plain (hno : j.tree.isObject = false) (member : Tree) : overlay j (overlay j member) = overlay j member := by
  obtain ⟨n⟩ := member
  cases n with
  | property key was kind computed shorthand method => rw [overlay_replaced (by simp [hno]), overlay_replaced (by simp [hno])]
  | _ => exact (congrArg (overlay j) (overlay_other rfl)).trans rfl

/-- A value is laid over a member once and for all. -/
theorem overlay_overlay (hj : j.Proper) (member : Tree) : overlay j (overlay j member) = overlay j member := by
  induction hj using Json.Proper.byObjects generalizing member with
  | plain j hj hno => exact overlay_twice_plain hno member
  | object data hproper hkeys ih =>
    have htwice (old : List Tree) : layered (layered old data) data = layered old data := layered_twice hkeys ih
    -- the data alone is what the data makes of no members
    have hself : layered (Json.memberTrees data) data = Json.memberTrees data := by
      have hnil : layered [] data = Json.memberTrees data := by
        rw [layered, newData, changeFirsts, List.nil_append]
        exact congrArg Json.memberTrees (List.filter_eq_self.2 fun _ _ => rfl)
      rw [← hnil, htwice]
    obtain ⟨n⟩ := member
    cases n with
    | property key was kind computed shorthand method =>
      by_cases ho : was.isObject = true
      · rw [overlay_deeper ho, overlay_deeper rfl, members, node, htwice]
      · rw [overlay_replaced fun h => ho h.1, Json.tree, overlay_deeper rfl, members, node, hself]
    | _ => exact (congrArg (overlay _) (overlay_other rfl)).trans rfl

/-- Data is laid over a literal once and for all. -/
theorem layered_layered (hj : (Json.object data).Proper) (old : List Tree) : layered (layered old data) data = layered old data := by
  cases hj with
  | object _ hproper hkeys => exact layered_twice hkeys fun d hd => overlay_overlay (hproper d hd)

end Tree

/-! ## Updates -/

/-- Nodes that are not below a target are in the same trees as before, if the target's own tree is. -/
theorem Store.tree_around {s s' : Store} {K K' : Set NodeId} {target x : NodeId} (hF : Forest s.children K)
    (hin : ∀ x ∈ K, x.index < s.size) (hF' : Forest s'.children K') (hin' : ∀ x ∈ K', x.index < s'.size) (hK : K ⊆ K')
    (ht : target ∈ K) (htarget : s'.tree target = s.tree target)
    (hother : ∀ y : NodeId, y.index < s.size → ¬ Below s.children target y → s'.get y = s.get y)
    (hx : x ∈ K) (hno : ¬ Below s.children target x) : s'.tree x = s.tree x := by
  -- by the tree: a child is the target, or not below it either
  generalize htree : s.tree x = t
  induction t using Tree.induct generalizing x with
  | mk n ih =>
    have hget : s'.get x = s.get x := hother x (hin x hx) hno
    have heq : s.tree x = .mk ((s.get x).map s.tree) := tree_eq hF hin hx
    obtain rfl : (s.get x).map s.tree = n := Tree.mk.inj (heq.symm.trans htree)
    have hkids (c : NodeId) (hc : c ∈ (s.get x).children) : s'.tree c = s.tree c := by
      have hcK : c ∈ K := hF.closed x hx c hc
      by_cases hb : Below s.children target c
      · by_cases he : target = c
        · rw [← he]
          exact htarget
        · exact absurd (hF.below_holder ht hx hc hb he) hno
      · refine ih (s.tree c) ?_ hcK hb rfl
        rw [Node.children_map]
        exact List.mem_map_of_mem hc
    rw [← htree, heq, tree_eq hF' hin' (hK hx), hget, Node.map_congr hkids]

namespace Editor

variable {e : Editor} {K : Set NodeId} {target : NodeId} {data : List (String × Json)}

/-- `e'` is `e` with the data laid over the object literal `target`, and nothing else has changed. -/
structure Updated (e e' : Editor) (target : NodeId) (data : List (String × Json)) : Prop where
  literal : e'.store.tree target = .mk (.objectExpression (Tree.layered (e.store.tree target).members data))
  other : ∀ x : NodeId, x.index < e.store.size → ¬ Below e.store.children target x → e'.store.get x = e.store.get x
  root : e'.store.root = e.store.root
  current : e'.current = e.current

theorem update_layered (h : Sound e K) (hm : e.store.Membered) (ht : e.updateTarget? = some target)
    (hj : (Json.object data).Proper) : ∃ e' K', e.update (.data (.object data)) = .ok e' ∧ K ⊆ K' ∧ Sound e' K' ∧
      Updated e e' target data := by
  have hread : Source.readExpression (ChangeValue.data (.object data)).source = .ok (Json.object data).tree :=
    Source.readExpression_tree hj
  obtain ⟨hK, ho⟩ := updateTarget?_known h ht
  obtain ⟨e', K', he, hKK, hs, hcurrent, htree, hroot, hother⟩ := update_tree h ht hread rfl
  have hold : Tree.AllMembers (e.store.tree target).members :=
    (hm.tree h.forest h.inside hK).ofObject ((Store.isObject_tree h.forest h.inside hK).trans ho)
  refine ⟨e', K', he, hKK, hs, ?_, hother, hroot, hcurrent⟩
  rw [htree, ← Tree.mergeMembers_object hj hold]
  rfl

namespace Updated

variable {e' : Editor} {K' : Set NodeId} (hu : Updated e e' target data) (h : Sound e K) (ht : e.updateTarget? = some target)
  (hK : K ⊆ K') (hs : Sound e' K')
include hu h ht hK hs

/-- The next update changes the same literal. -/
theorem updateTarget? : e'.updateTarget? = some target := by
  have htarget : target ∈ K := (updateTarget?_known h ht).1
  have ho : e'.store.isObject target = true := by
    rw [← Store.isObject_tree hs.forest hs.inside (hK htarget), hu.literal]
    rfl
  unfold Editor.updateTarget? at ht ⊢
  rw [node, hu.current]
  split at ht
  next properties hn =>
    obtain rfl : e.current = target := Option.some.inj ht
    obtain ⟨properties', hn'⟩ := isObject_iff.1 ho
    rw [hn']
  next key value kind computed shorthand method hn =>
    split at ht
    next =>
      obtain rfl : value = target := Option.some.inj ht
      have hkid : value ∈ e.store.children e.current := by
        rw [Store.children, ← node, hn]
        simp
      -- the property is above the literal, so the update has left it alone
      rw [hu.other e.current (h.inside e.current h.current) (h.forest.not_below_kid h.current hkid), ← node, hn]
      exact if_pos ho
    next => cases ht
  next => cases ht

/-- Once the literal has the data, having it laid over once more leaves the text of the program. -/
theorem print_again {e'' : Editor} {K'' : Set NodeId} (hj : (Json.object data).Proper) (hu' : Updated e' e'' target data)
    (hK' : K' ⊆ K'') (hs' : Sound e'' K'') : e''.store.tree target = e'.store.tree target ∧ e''.print = e'.print := by
  have htarget : target ∈ K' := hK (updateTarget?_known h ht).1
  have hliteral : e''.store.tree target = e'.store.tree target := by
    rw [hu'.literal, hu.literal]
    exact congrArg (fun members => Tree.mk (.objectExpression members)) (Tree.layered_layered hj _)
  refine ⟨hliteral, ?_⟩
  have hroot : e''.store.tree e'.store.root = e'.store.tree e'.store.root := by
    by_cases he : target = e'.store.root
    · rw [← he]
      exact hliteral
    · apply Store.tree_around hs.forest hs.inside hs'.forest hs'.inside hK' htarget hliteral hu'.other hs.root
      intro hb
      rcases Relation.ReflTransGen.cases_tail hb with hr | ⟨p, -, hp⟩
      · exact he hr.symm
      · exact hs.top p hp
  unfold print
  rw [hu'.root, hroot]

end Updated

end Editor

/-! ## Runs -/

namespace Editing

/-- The cursor may stand on any node that root or cursor reach. -/
theorem run_sound_at (t : Tree) (moves : List Move) {x : NodeId}
    (hx : Below ((start t).run moves).editor.store.children ((start t).run moves).editor.store.root x ∨
      Below ((start t).run moves).editor.store.children ((start t).run moves).editor.current x) :
    ∃ K, Sound (((start t).run moves).editor.moveTo x) K := by
  obtain ⟨K, -, hk⟩ := run_known (start_known t) moves
  refine ⟨K, { hk.sound with current := ?_ }⟩
  rcases hx with hx | hx
  · exact hk.sound.forest.below_mem hk.sound.root hx
  · exact hk.sound.forest.below_mem hk.sound.current hx

/-- In a program, after whatever moves, an object literal is updated with any JSON object, at the literal itself or at the property
that holds it. It is left with the object laid over its members, and no node that is not below it has changed. The same update once
more succeeds too and leaves the text of the program. -/
theorem run_update_layered {text : String} {t : Tree} (ht : Source.readProgram text = .ok t) (moves : List Move)
    (hmoves : ∀ m ∈ moves, m.IsReal) {e : Editor} (he : ((start t).run moves).editor = e) {x target : NodeId}
    (hx : Below e.store.children e.store.root x ∨ Below e.store.children e.current x)
    (htarget : (e.moveTo x).updateTarget? = some target) {data : List (String × Json)} (hj : (Json.object data).Proper) :
    ∃ e₁ e₂, (e.moveTo x).change .update (.data (.object data)) = .ok e₁ ∧ Editor.Updated (e.moveTo x) e₁ target data ∧
      e₁.change .update (.data (.object data)) = .ok e₂ ∧ e₂.store.tree target = e₁.store.tree target ∧ e₂.print = e₁.print := by
  subst he
  obtain ⟨K, hs⟩ := run_sound_at t moves hx
  have hm : (((start t).run moves).editor.moveTo x).store.Membered :=
    run_membered ht moves fun m hm => (hmoves m hm).membered
  obtain ⟨e₁, K₁, he₁, hK₁, hs₁, hu₁⟩ := Editor.update_layered hs hm htarget hj
  have hm₁ : e₁.store.Membered := (Editor.Edited.change .update _ he₁).membered hm
  have ht₁ := hu₁.updateTarget? hs htarget hK₁ hs₁
  obtain ⟨e₂, K₂, he₂, hK₂, hs₂, hu₂⟩ := Editor.update_layered hs₁ hm₁ ht₁ hj
  obtain ⟨hliteral, hprint⟩ := hu₁.print_again hs htarget hK₁ hs₁ hj hu₂ hK₂ hs₂
  exact ⟨e₁, e₂, he₁, hu₁, he₂, hliteral, hprint⟩

/-- A key twice, a nested literal behind a quoted key, a shorthand, a method, a computed key and a spread. -/
def mixedMembersText : String :=
  "x = \x7b a: 1, get a() \x7b \x7d, 'b': \x7b c: 2, d: \x7b \x7d \x7d, e, f() \x7b \x7d, [k]: 3, ...y \x7d;"

/-- Values for all of these keys but the computed one, and for two new ones. -/
def mixedMembersData : List (String × Json) :=
  [("k", .string "new"), ("b", .object [("d", .object [("g", .bool true)]), ("c", .null)]), ("a", .int (-1)), ("e", .array [.null]),
    ("f", .object [])]

theorem mixed_members_layered : ∃ t, Source.readProgram mixedMembersText = .ok t ∧
    let e := ((start t).run [.find (.object none none none none), .visit]).editor
    ∃ e₁ e₂, (e.moveTo e.current).change .update (.data (.object mixedMembersData)) = .ok e₁ ∧
      Editor.Updated (e.moveTo e.current) e₁ e.current mixedMembersData ∧
      e₁.change .update (.data (.object mixedMembersData)) = .ok e₂ ∧
      e₂.store.tree e.current = e₁.store.tree e.current ∧ e₂.print = e₁.print := by
  have facts : (Source.readProgram mixedMembersText).toOption.any (fun t =>
      let e := ((start t).run [.find (.object none none none none), .visit]).editor
      (e.moveTo e.current).updateTarget? = some e.current) = true := by decide +kernel
  have hproper : (Json.object mixedMembersData).Proper := by
    have inner : (Json.object [("d", .object [("g", .bool true)]), ("c", .null)]).Proper := by
      refine .object _ ?_ (by decide)
      simp only [List.forall_mem_cons]
      refine ⟨.object _ ?_ (by decide), .null, nofun⟩
      simp only [List.forall_mem_cons]
      exact ⟨.bool true, nofun⟩
    have items : (Json.array [.null]).Proper := by
      refine .array _ ?_
      simp only [List.forall_mem_cons]
      exact ⟨.null, nofun⟩
    refine .object _ ?_ (by decide)
    simp only [mixedMembersData, List.forall_mem_cons]
    exact ⟨.string _, inner, .int _ (by decide), items, .object _ nofun (by decide), nofun⟩
  cases hr : Source.readProgram mixedMembersText with
  | error => simp [hr, Except.toOption] at facts
  | ok t =>
    simp only [hr, Except.toOption, Option.any_some] at facts
    have hmoves : ∀ m ∈ [Move.find (.object none none none none), .visit], m.IsReal := by simp [Move.IsReal]
    exact ⟨t, rfl, run_update_layered hr _ hmoves rfl (.inr (.refl _)) (of_decide_eq_true facts) hproper⟩

end Editing
end Graft
