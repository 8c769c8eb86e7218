import Graft.Proofs.Query.Search
import Graft.Proofs.Query.Values
/-!
# Nodes as JSON

`Tree.view` is a tree as JSON data: an object with the type of the top and one member for each of its fields. A pattern is
matched against a node field by field in the store, without that data ever being built; `Store.contains_iff` says that the
outcome is containment in it (`Json.Contained`), a relation of JSON values alone.
-/

namespace Graft

/-! ## Containment -/

namespace Json

/-- The first value is contained in the second: an object in one that has all of its keys, with values that contain its
own, an array in the first elements of a longer one, and a scalar in one that equals it, numbers being compared as doubles. -/
inductive Contained : Json → Json → Prop
  | object {members all : List (String × Json)} : (∀ m ∈ members, (all.lookup m.1).isSome = true) →
    (∀ m ∈ members, ∀ v, all.lookup m.1 = some v → Contained m.2 v) → Contained (.object members) (.object all)
  | array {items all : List Json} : items.length ≤ all.length →
    (∀ (i : Nat) (j v : Json), items[i]? = some j → all[i]? = some v → Contained j v) → Contained (.array items) (.array all)
  | number {j v : Json} {x y : Double} : j.number? = some x → v.number? = some y → x.eqv y = true → Contained j v
  | string (s : String) : Contained (.string s) (.string s)
  | bool (b : Bool) : Contained (.bool b) (.bool b)
  | null : Contained .null .null

section Contained
variable {members all : List (String × Json)} {items values : List Json} {j v : Json} {key : String} {x y : Double}

theorem contained_members_nil : Contained (.object []) (.object all) := .object nofun nofun

theorem contained_members_cons : Contained (.object ((key, j) :: members)) (.object all) ↔
    (∃ v, all.lookup key = some v ∧ Contained j v) ∧ Contained (.object members) (.object all) := by
  constructor
  · intro h
    cases h with
    | object hkeys hvalues =>
      obtain ⟨v, hv⟩ := Option.isSome_iff_exists.1 (hkeys (key, j) List.mem_cons_self)
      exact ⟨⟨v, hv, hvalues (key, j) List.mem_cons_self v hv⟩,
        .object (fun m hm => hkeys m (List.mem_cons_of_mem _ hm)) fun m hm => hvalues m (List.mem_cons_of_mem _ hm)⟩
    | number hx => cases hx
  · rintro ⟨⟨v, hv, hj⟩, h⟩
    cases h with
    | object hkeys hvalues =>
      refine .object (List.forall_mem_cons.2 ⟨by rw [hv]; rfl, hkeys⟩) (List.forall_mem_cons.2 ⟨fun w hw => ?_, hvalues⟩)
      cases hv.symm.trans hw
      exact hj
    | number hx => cases hx

theorem contained_items_nil : Contained (.array []) (.array values) := .array (Nat.zero_le _) nofun

theorem not_contained_items : ¬ Contained (.array (j :: items)) (.array []) := by
  intro h
  cases h with
  | array hlength => cases hlength
  | number hx => cases hx

theorem contained_items_cons : Contained (.array (j :: items)) (.array (v :: values)) ↔
    Contained j v ∧ Contained (.array items) (.array values) := by
  constructor
  · intro h
    cases h with
    | array hlength hitems =>
      exact ⟨hitems 0 j v rfl rfl, .array (Nat.le_of_succ_le_succ hlength) fun i => hitems (i + 1)⟩
    | number hx => cases hx
  · rintro ⟨hj, h⟩
    cases h with
    | array hlength hitems =>
      refine .array (Nat.succ_le_succ hlength) fun i j' v' hj' hv' => ?_
      cases i with
      | zero =>
        cases hj'
        cases hv'
        exact hj
      | succ i => exact hitems i j' v' hj' hv'
    | number hx => cases hx

theorem contained_object : Contained j (.object all) → ∃ members, j = .object members := by
  intro h
  cases h with
  | object => exact ⟨_, rfl⟩
  | number _ hy => cases hy

theorem contained_array : Contained j (.array values) → ∃ items, j = .array items := by
  intro h
  cases h with
  | array => exact ⟨_, rfl⟩
  | number _ hy => cases hy

theorem contained_string {s : String} : Contained j (.string s) ↔ j = .string s := by
  constructor
  · intro h
    cases h with
    | string => rfl
    | number _ hy => cases hy
  · rintro rfl
    exact .string s

theorem contained_bool {b : Bool} : Contained j (.bool b) ↔ j = .bool b := by
  constructor
  · intro h
    cases h with
    | bool => rfl
    | number _ hy => cases hy
  · rintro rfl
    exact .bool b

theorem contained_null : Contained j .null ↔ j = .null := by
  constructor
  · intro h
    cases h with
    | null => rfl
    | number _ hy => cases hy
  · rintro rfl
    exact .null

theorem contained_double : Contained j (.double y) ↔ ∃ x, j.number? = some x ∧ x.eqv y = true := by
  constructor
  · intro h
    cases h with
    | number hx hy hxy =>
      cases hy
      exact ⟨_, hx, hxy⟩
  · rintro ⟨x, hx, hxy⟩
    exact .number hx rfl hxy

end Contained

/-! ## Objects by key -/

theorem lookup_cons (key k : String) (v : Json) (members : List (String × Json)) :
    ((k, v) :: members).lookup key = if key = k then some v else members.lookup key := by
  rw [List.lookup_cons]
  by_cases h : key = k
  · rw [h, beq_self_eq_true, if_pos rfl]
  · rw [beq_false_of_ne h, if_neg h]

theorem lookup_map {α β : Type} (f : α → β) (key : String) (members : List (String × α)) :
    (members.map fun m => (m.1, f m.2)).lookup key = (members.lookup key).map f := by
  induction members with
  | nil => rfl
  | cons m rest ih =>
    rw [List.map_cons, List.lookup_cons, List.lookup_cons]
    cases key == m.1
    · exact ih
    · rfl

theorem lookup_insertMember (key k : String) (value : Json) (members : List (String × Json)) :
    (insertMember k value members).lookup key = if key = k then some value else members.lookup key := by
  induction members with
  | nil => exact lookup_cons key k value []
  | cons m rest ih =>
    obtain ⟨k', v'⟩ := m
    rw [insertMember]
    split
    next => exact lookup_cons key k value _
    next =>
      split
      next heq =>
        subst heq
        rw [lookup_cons, lookup_cons]
        split <;> rfl
      next hne =>
        rw [lookup_cons, lookup_cons, ih]
        by_cases h : key = k'
        · rw [if_pos h, if_neg (fun hk => hne (hk.symm.trans h)), if_pos h]
        · rw [if_neg h, if_neg h]

/-- An object has the members that it is made of. -/
theorem lookup_ofMembers {members : List (String × Json)} (h : (members.map (·.1)).Nodup) :
    ∃ all, ofMembers members = .object all ∧ ∀ key, all.lookup key = members.lookup key := by
  have folded (acc : List (String × Json)) (key : String) :
      (members.foldl (fun acc m => insertMember m.1 m.2 acc) acc).lookup key = (members.lookup key).or (acc.lookup key) := by
    induction members generalizing acc with
    | nil => rfl
    | cons m rest ih =>
      obtain ⟨k, v⟩ := m
      obtain ⟨hk, hrest⟩ := List.nodup_cons.1 h
      rw [List.foldl_cons, ih hrest, lookup_insertMember, lookup_cons]
      by_cases hkey : key = k
      · have hnone : rest.lookup key = none := by
          rw [List.lookup_eq_none_iff]
          intro m hm
          exact bne_iff_ne.2 fun heq => hk (List.mem_map.2 ⟨m, hm, heq.symm.trans hkey⟩)
        rw [if_pos hkey, if_pos hkey, hnone]
        rfl
      · rw [if_neg hkey, if_neg hkey]
  exact ⟨_, rfl, fun key => by rw [folded, List.lookup_nil, Option.or_none]⟩

end Json

/-! ## Fields and nodes -/

namespace Field
variable {α β : Type}

def map (f : α → β) : Field α → Field β
  | .node a => .node (f a)
  | .list as => .list (as.map f)
  | .holes slots => .holes (slots.map (Option.map f))
  | .text s => .text s
  | .number x => .number x
  | .flag b => .flag b
  | .absent => .absent

section Map
variable (f : α → β)

@[simp] theorem map_node (a : α) : (node a).map f = .node (f a) := rfl
@[simp] theorem map_list (as : List α) : (list as).map f = .list (as.map f) := rfl
@[simp] theorem map_holes (slots : List (Option α)) : (holes slots).map f = .holes (slots.map (Option.map f)) := rfl
@[simp] theorem map_text (s : String) : (text s).map f = .text s := rfl
@[simp] theorem map_flag (b : Bool) : (flag b).map f = .flag b := rfl

@[simp] theorem map_ofOption (o : Option α) : (ofOption o).map f = ofOption (o.map f) := by
  cases o <;> rfl

@[simp] theorem map_field (l : LiteralValue) : (l.field : Field α).map f = l.field := by
  cases l <;> rfl

end Map

/-- A field whose nodes are JSON values: a hole and an absent node are null. -/
def view : Field Json → Json
  | .node v => v
  | .list vs => .array vs
  | .holes slots => .array (slots.map fun slot => slot.getD .null)
  | .text s => .string s
  | .number x => .double x
  | .flag b => .bool b
  | .absent => .null

end Field

namespace Node
variable {α β : Type}

theorem typeName_map (f : α → β) (n : Node α) : (n.map f).typeName = n.typeName := by
  cases n <;> rfl

theorem fields_map (f : α → β) (n : Node α) : (n.map f).fields = n.fields.map fun m => (m.1, m.2.map f) := by
  have list (as : List α) := traverseList_pure (fun a => (rfl : (pure (f a) : Id β) = _)) as
  have option (o : Option α) := traverseOption_pure (fun a => (rfl : (pure (f a) : Id β) = _)) o
  have holes (as : List (Option α)) := traverseList_pure option as
  cases n <;> simp [map, traverse, traverseFunc, traverseClass, fields, Func.fields, ClassParts.fields, list, option, holes]

theorem field?_map (f : α → β) (n : Node α) (name : String) : (n.map f).field? name = (n.field? name).map (Field.map f) := by
  rw [field?, fields_map, Json.lookup_map, field?]

/-- The fields of a node have different names, and none of them is called `type`. -/
theorem names_nodup (n : Node α) : ("type" :: n.fields.map (·.1)).Nodup := by
  cases n <;> simp [fields, Func.fields, ClassParts.fields]

/-- A node whose children are JSON values, as an object. -/
def view (n : Node Json) : Json := .ofMembers (("type", .string n.typeName) :: n.fields.map fun m => (m.1, m.2.view))

theorem view_spec (n : Node Json) : ∃ all, n.view = .object all ∧ all.lookup "type" = some (.string n.typeName) ∧
    ∀ key, key ≠ "type" → all.lookup key = (n.field? key).map Field.view := by
  have hnames : (("type", Json.string n.typeName) :: n.fields.map fun m => (m.1, m.2.view)).map (·.1) =
      "type" :: n.fields.map (·.1) := by
    simp [Function.comp_def]
  obtain ⟨all, hall, hlookup⟩ := Json.lookup_ofMembers (hnames ▸ n.names_nodup)
  refine ⟨all, hall, by rw [hlookup, List.lookup_cons_self], fun key hkey => ?_⟩
  rw [hlookup, Json.lookup_cons, if_neg hkey, Json.lookup_map, field?]

end Node

namespace Tree

section Fold
variable {β : Type} (combine : Node β → β)

theorem foldList_eq_map (ts : List Tree) : foldList combine ts = ts.map (fold combine) := by
  induction ts with
  | nil => rfl
  | cons t ts ih => rw [foldList, ih, List.map_cons]

theorem foldOption_eq_map (o : Option Tree) : foldOption combine o = o.map (fold combine) := by
  cases o <;> rfl

theorem foldHoles_eq_map (slots : List (Option Tree)) : foldHoles combine slots = slots.map (Option.map (fold combine)) := by
  induction slots with
  | nil => rfl
  | cons slot slots ih => cases slot <;> rw [foldHoles, ih] <;> rfl

theorem foldFunc_eq_map (f : Func Tree) : foldFunc combine f =
    ⟨f.id.map (fold combine), f.params.map (fold combine), fold combine f.body, f.isAsync, f.generator⟩ := by
  cases f
  rw [foldFunc, foldOption_eq_map, foldList_eq_map]

theorem foldClass_eq_map (k : ClassParts Tree) : foldClass combine k =
    ⟨k.id.map (fold combine), k.superClass.map (fold combine), fold combine k.body⟩ := by
  cases k
  rw [foldClass, foldOption_eq_map, foldOption_eq_map]

/-- A fold combines what it makes of the children. -/
theorem fold_eq_map (n : Node Tree) : (mk n).fold combine = combine (n.map (fold combine)) := by
  have list (ts : List Tree) := Node.traverseList_pure (fun t => (rfl : (pure (fold combine t) : Id β) = _)) ts
  have option (o : Option Tree) := Node.traverseOption_pure (fun t => (rfl : (pure (fold combine t) : Id β) = _)) o
  have holes (slots : List (Option Tree)) := Node.traverseList_pure option slots
  cases n <;> simp [fold, Node.map, Node.traverse, Node.traverseFunc, Node.traverseClass, list, option, holes, foldList_eq_map,
    foldOption_eq_map, foldHoles_eq_map, foldFunc_eq_map, foldClass_eq_map]

end Fold

/-- A tree as JSON. -/
def view (t : Tree) : Json := t.fold Node.view

end Tree

namespace Store
variable {s : Store} {K : Set NodeId} {top id : NodeId}

/-! ## Patterns -/

section
variable (hF : Forest s.children K) (hin : ∀ x ∈ K, x.index < s.size)
include hF hin

/-- The object that a node is seen as, key by key. -/
theorem view_tree {x : NodeId} (hx : x ∈ K) : ∃ all, (s.tree x).view = .object all ∧
    all.lookup "type" = some (.string (s.typeName x)) ∧
    ∀ key, key ≠ "type" → all.lookup key = ((s.get x).field? key).map fun f => (f.map fun c => (s.tree c).view).view := by
  have hview : (s.tree x).view = ((s.get x).map fun c => (s.tree c).view).view := by
    rw [tree_eq hF hin hx, Tree.view, Tree.fold_eq_map, Node.map_map]
    rfl
  obtain ⟨all, hall, htype, hlookup⟩ := Node.view_spec ((s.get x).map fun c => (s.tree c).view)
  refine ⟨all, hview.trans hall, by rw [htype, Node.typeName_map]; rfl, fun key hkey => ?_⟩
  rw [hlookup key hkey, Node.field?_map, Option.map_map]
  rfl

omit hin in
theorem field_mem {x : NodeId} (hx : x ∈ K) {key : String} {f : Field NodeId} (hf : (s.get x).field? key = some f) :
    ∀ c ∈ f.children, c ∈ K := by
  intro c hc
  obtain ⟨l₁, l₂, hfields, -⟩ := List.lookup_eq_some_iff.1 hf
  refine hF.closed x hx c (List.mem_flatMap.2 ⟨(key, f), ?_, hc⟩)
  rw [hfields]
  exact List.mem_append_right _ List.mem_cons_self

omit hF hin in
theorem fieldContains_text (text : String) (j : Json) :
    fieldContains s (.text text) j = true ↔ j.Contained (.string text) := by
  cases j <;> simp [fieldContains, Json.contained_string, eq_comm]

omit hF hin in
theorem fieldContains_number (x : Double) (j : Json) : fieldContains s (.number x) j = true ↔ j.Contained (.double x) := by
  cases j <;> simp [fieldContains, Json.contained_double, Json.number?]

omit hF hin in
theorem fieldContains_flag (b : Bool) (j : Json) : fieldContains s (.flag b) j = true ↔ j.Contained (.bool b) := by
  cases j <;> simp [fieldContains, Json.contained_bool, eq_comm]

omit hF hin in
theorem fieldContains_absent (j : Json) : fieldContains s .absent j = true ↔ j.Contained .null := by
  cases j <;> simp [fieldContains, Json.contained_null]

omit hF hin in
/-- Only an array is contained in a list. -/
theorem fieldContains_other {f : Field NodeId} {j : Json} {values : List Json} (hj : ∀ items, j ≠ .array items)
    (hf : fieldContains s f j = false) : fieldContains s f j = true ↔ j.Contained (.array values) := by
  rw [hf]
  refine iff_of_false Bool.false_ne_true fun h => ?_
  obtain ⟨items, hitems⟩ := Json.contained_array h
  exact hj items hitems

/-- Only an object is contained in a node. -/
theorem not_contained_view {x : NodeId} (hx : x ∈ K) {j : Json} (hj : ∀ members, j ≠ .object members) :
    ¬ j.Contained (s.tree x).view := by
  obtain ⟨all, hall, -⟩ := view_tree hF hin hx
  rw [hall]
  intro h
  obtain ⟨members, hmembers⟩ := Json.contained_object h
  exact hj members hmembers

end

mutual
/-- A pattern is contained in a node if it is contained in its view. -/
theorem contains_view (hF : Forest s.children K) (hin : ∀ x ∈ K, x.index < s.size) {x : NodeId} (hx : x ∈ K) :
    (j : Json) → (s.contains x j = true ↔ j.Contained (s.tree x).view)
  | .object members => by
    rw [contains]
    exact containsMembers_view hF hin hx members
  | .null | .bool _ | .int _ | .double _ | .string _ | .array _ =>
    iff_of_false Bool.false_ne_true (not_contained_view hF hin hx nofun)

theorem containsMembers_view (hF : Forest s.children K) (hin : ∀ x ∈ K, x.index < s.size) {x : NodeId} (hx : x ∈ K) :
    (members : List (String × Json)) → (s.containsMembers x members = true ↔ (Json.object members).Contained (s.tree x).view)
  | [] => by
    obtain ⟨all, hall, -⟩ := view_tree hF hin hx
    rw [hall]
    exact iff_of_true rfl Json.contained_members_nil
  | (key, want) :: rest => by
    have hrest := containsMembers_view hF hin hx rest
    obtain ⟨all, hall, htype, hlookup⟩ := view_tree hF hin hx
    rw [hall] at hrest ⊢
    rw [containsMembers, Bool.and_eq_true, hrest, Json.contained_members_cons]
    refine and_congr_left fun _ => ?_
    by_cases hkey : key = "type"
    · subst hkey
      rw [if_pos rfl, htype]
      cases want <;> simp [Json.string?, Json.contained_string]
    · rw [if_neg hkey, hlookup key hkey]
      cases hf : (s.get x).field? key with
      | none => simp
      | some f => simpa using fieldContains_view hF hin (field_mem hF hx hf) want

theorem fieldContains_view (hF : Forest s.children K) (hin : ∀ x ∈ K, x.index < s.size) {f : Field NodeId}
    (hf : ∀ c ∈ f.children, c ∈ K) :
    (j : Json) → (fieldContains s f j = true ↔ j.Contained (f.map fun c => (s.tree c).view).view)
  | .object members => by
    cases f with
    | node id =>
      rw [fieldContains]
      exact containsMembers_view hF hin (hf id (List.mem_singleton_self id)) members
    | list | holes => exact fieldContains_other nofun rfl
    | text text => exact fieldContains_text text _
    | number x => exact fieldContains_number x _
    | flag b => exact fieldContains_flag b _
    | absent => exact fieldContains_absent _
  | .array items => by
    cases f with
    | node id => exact iff_of_false Bool.false_ne_true (not_contained_view hF hin (hf id (List.mem_singleton_self id)) nofun)
    | list ids =>
      rw [fieldContains]
      exact listContains_view hF hin hf items
    | holes slots =>
      rw [fieldContains]
      exact slotsContain_view hF hin (fun c hc => hf c (List.mem_filterMap.2 ⟨some c, hc, rfl⟩)) items
    | text text => exact fieldContains_text text _
    | number x => exact fieldContains_number x _
    | flag b => exact fieldContains_flag b _
    | absent => exact fieldContains_absent _
  | .null | .bool _ | .int _ | .double _ | .string _ => by
    cases f with
    | node id => exact iff_of_false Bool.false_ne_true (not_contained_view hF hin (hf id (List.mem_singleton_self id)) nofun)
    | list | holes => exact fieldContains_other nofun rfl
    | text text => exact fieldContains_text text _
    | number x => exact fieldContains_number x _
    | flag b => exact fieldContains_flag b _
    | absent => exact fieldContains_absent _

theorem listContains_view (hF : Forest s.children K) (hin : ∀ x ∈ K, x.index < s.size) {ids : List NodeId}
    (h : ∀ c ∈ ids, c ∈ K) : (items : List Json) →
    (listContains s ids items = true ↔ (Json.array items).Contained (.array (ids.map fun c => (s.tree c).view)))
  | [] => by
    rw [listContains]
    exact iff_of_true rfl Json.contained_items_nil
  | item :: items => by
    cases ids with
    | nil => exact iff_of_false Bool.false_ne_true Json.not_contained_items
    | cons id ids =>
      obtain ⟨hid, hids⟩ := List.forall_mem_cons.1 h
      rw [listContains, Bool.and_eq_true, List.map_cons, Json.contained_items_cons, contains_view hF hin hid item,
        listContains_view hF hin hids items]

theorem slotsContain_view (hF : Forest s.children K) (hin : ∀ x ∈ K, x.index < s.size) {slots : List (Option NodeId)}
    (h : ∀ c, some c ∈ slots → c ∈ K) : (items : List Json) →
    (slotsContain s slots items = true ↔ (Json.array items).Contained
      (.array ((slots.map (Option.map fun c => (s.tree c).view)).map fun slot => slot.getD .null)))
  | [] => by
    rw [slotsContain]
    exact iff_of_true rfl Json.contained_items_nil
  | item :: items => by
    cases slots with
    | nil => exact iff_of_false Bool.false_ne_true Json.not_contained_items
    | cons slot slots =>
      have hrest := slotsContain_view hF hin (fun c hc => h c (List.mem_cons_of_mem _ hc)) items
      cases slot with
      | none =>
        refine Iff.trans ?_ Json.contained_items_cons.symm
        change slotsContain s (none :: slots) (item :: items) = true ↔ item.Contained .null ∧ _
        rw [← hrest, Json.contained_null]
        cases item <;> simp [slotsContain]
      | some id =>
        rw [slotsContain, Bool.and_eq_true, hrest, contains_view hF hin (h id List.mem_cons_self) item]
        exact Json.contained_items_cons.symm
end

/-- Whether a pattern is contained in a node of a finite tree is a question to the view of the node alone. Only an object is
contained in a node. -/
theorem contains_iff (h : s.FiniteTree top) (hid : Below s.children top id) (pattern : Json) :
    ∃ t, s.tree? id = some t ∧ (s.contains id pattern = true ↔ pattern.Contained t.view) ∧
      (s.contains id pattern = true → ∃ members, pattern = .object members) := by
  have hK : id ∈ {x | Below s.children top x} := hid
  obtain ⟨t, ht⟩ := Option.isSome_iff_exists.1 (tree?_isSome h.forest h.inside hK)
  have hview := contains_view h.forest h.inside hK pattern
  rw [tree, ht, Option.getD_some] at hview
  refine ⟨t, ht, hview, fun hc => ?_⟩
  cases pattern with
  | object members => exact ⟨members, rfl⟩
  | _ => cases hc

/-- In `f([, 1], /a/)` a pattern reaches through a hole, a number and the value of a regular expression. -/
theorem call_contains_iff :
    let numbers := Tree.mk (.arrayExpression [none, some (.mk (.literal (.number ⟨0x3FF0000000000000⟩) "1"))])
    let s := ofTree (.mk (.callExpression (.mk (.identifier "f")) [numbers, .mk (.literal (.regex "a" "") "/a/")] false))
    let pattern := Json.object [("arguments", .array [.object [("elements", .array [.null, .object [("value", .int 1)]])],
      .object [("value", .null)]]), ("type", .string "CallExpression")]
    s.FiniteTree s.root ∧ s.contains s.root pattern = true ∧ ∃ t, s.tree? s.root = some t ∧ pattern.Contained t.view := by
  intro numbers s pattern
  have hfinite : s.FiniteTree s.root := ofTree_finiteTree _
  have hcontains : s.contains s.root pattern = true := by decide +kernel
  obtain ⟨t, ht, hiff, -⟩ := contains_iff hfinite (.refl _) pattern
  exact ⟨hfinite, hcontains, t, ht, hiff.1 hcontains⟩

end Store
end Graft
