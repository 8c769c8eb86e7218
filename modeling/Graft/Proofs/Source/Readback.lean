import Graft.Proofs.Source.Data
import Graft.Proofs.Syntax.Fitting
import Graft.Query.Names
/-!
# Data read back

`Store.json?` is the JSON value that an expression of a store spells out. For the text that `ofJson` writes for a value it is
that value, with its numbers as doubles (`readExpression_json`).
-/

namespace Graft

namespace Json

mutual
/-- A value with its integers as doubles. -/
def asDoubles : Json → Json
  | .null => .null
  | .bool b => .bool b
  | .int n => .double (Double.ofInt n)
  | .double x => .double x
  | .string s => .string s
  | .array items => .array (itemsAsDoubles items)
  | .object members => .object (membersAsDoubles members)

def itemsAsDoubles : List Json → List Json
  | [] => []
  | j :: rest => asDoubles j :: itemsAsDoubles rest

def membersAsDoubles : List (String × Json) → List (String × Json)
  | [] => []
  | (name, j) :: rest => (name, asDoubles j) :: membersAsDoubles rest
end

theorem map_fst_membersAsDoubles (members : List (String × Json)) :
    (membersAsDoubles members).map Prod.fst = members.map Prod.fst := by
  induction members with
  | nil => rfl
  | cons m members ih => rw [membersAsDoubles, List.map_cons, List.map_cons, ih]

end Json

namespace Store

/-! ## Data in a store -/

/-- The value of a numeric literal. -/
def number? (s : Store) (id : NodeId) : Option Double :=
  match s.get id with
  | .literal (.number x) _ => some x
  | _ => none

/-- A member of an object literal with its key and what `value?` makes of its value. A shorthand, a computed key, an accessor
and a method are no data. -/
def dataMember? (s : Store) (value? : NodeId → Option Json) (member : NodeId) : Option (String × Json) :=
  match s.get member with
  | .property _ value .init false false false => do return (← s.memberKey? member, ← value? value)
  | _ => none

/-- The value that an expression spells out, if no path below it is longer than the bound: a literal for a scalar, a minus sign
before a number for the negated number, an array literal without holes, and an object literal without a key twice. -/
def jsonWithin (s : Store) : Nat → NodeId → Option Json
  | 0, _ => none
  | depth + 1, id =>
    match s.get id with
    | .literal .null _ => some .null
    | .literal (.boolean b) _ => some (.bool b)
    | .literal (.number x) _ => some (.double x)
    | .literal (.string text) _ => some (.string text)
    | .unaryExpression "-" argument => (s.number? argument).map fun x => .double x.neg
    | .arrayExpression elements => (elements.mapM fun (e : Option NodeId) => e.bind (jsonWithin s depth)).map .array
    | .objectExpression properties => do
      let members ← properties.mapM (s.dataMember? (jsonWithin s depth))
      if (members.map Prod.fst).Nodup then some (.object members) else none
    | _ => none

/-- The value that an expression spells out. -/
def json? (s : Store) (id : NodeId) : Option Json := s.jsonWithin (s.size + 1) id

/-! ## Inserted data -/

/-- `s'` has all slots of `s`, as they are. -/
structure Keeps (s s' : Store) : Prop where
  size : s.size ≤ s'.size
  get : ∀ x : NodeId, x.index < s.size → s'.get x = s.get x

variable {s s' s'' : Store} {n : Node NodeId} {j : Json} {depth : Nat} {x : Double}

theorem Keeps.refl (s : Store) : Keeps s s := ⟨Nat.le_refl _, fun _ _ => rfl⟩

theorem Keeps.trans (h : Keeps s s') (h' : Keeps s' s'') : Keeps s s'' where
  size := h.size.trans h'.size
  get x hx := (h'.get x (hx.trans_le h.size)).trans (h.get x hx)

theorem keeps_insert (t : Tree) (s : Store) : Keeps s (s.insert t).2 :=
  ⟨(insert_planted t s).size, (insert_planted t s).get⟩

theorem index_insert (t : Tree) (s : Store) : (s.insert t).1.index < (s.insert t).2.size := by
  obtain ⟨n⟩ := t
  rw [insert_mk, size_alloc, index_alloc]
  exact Nat.lt_succ_self _

/-- The top of an inserted tree holds what the children were inserted for. -/
theorem Keeps.get_insert {n : Node Tree} (h : Keeps (s.insert (.mk n)).2 s') :
    s'.get (s.insert (.mk n)).1 = (n.traverse (Tree.fold insertNode) s).1 := by
  rw [h.get _ (index_insert (.mk n) s), insert_mk, get_alloc_self]

theorem Keeps.of_insert {n : Node Tree} (h : Keeps (s.insert (.mk n)).2 s') : Keeps (n.traverse (Tree.fold insertNode) s).2 s' := by
  rw [insert_mk] at h
  refine ⟨le_trans (by rw [size_alloc]; exact Nat.le_succ _) h.size, fun x hx => ?_⟩
  rw [h.get x (by rw [size_alloc]; omega), get_alloc_of_lt hx]

/-- The tree of the value spells out the value wherever it is inserted. -/
def Spelled (j : Json) : Prop := ∀ (s s' : Store) (depth : Nat), Keeps (s.insert j.tree).2 s' → (s.insert j.tree).1.index < depth →
  s'.jsonWithin depth (s.insert j.tree).1 = some j.asDoubles

theorem spelled_literal (value : LiteralValue) (raw : String) (ht : j.tree = .mk (.literal value raw))
    (hvalue : ∀ s : Store, ∀ id, s.get id = .literal value raw → ∀ depth, s.jsonWithin (depth + 1) id = some j.asDoubles) :
    Spelled j := by
  intro s s' depth hkeeps hdepth
  rw [ht] at hkeeps hdepth ⊢
  obtain ⟨depth, rfl⟩ : ∃ d, depth = d + 1 := ⟨depth - 1, by omega⟩
  exact hvalue s' _ hkeeps.get_insert depth

/-- The tree of a number, found in its text. -/
theorem numberTree_text {d : Decimal} (hd : d.WellFormed) :
    Source.numberTree (String.ofList d.text) = .mk (.literal (.number d.value) (String.ofList d.text)) := by
  rw [Source.numberTree, Decimal.decodeNumber?_text hd]

theorem spelled_number (hj : j.Proper) (hx : j.number? = some x) (hdouble : j.asDoubles = .double x)
    (htree : j.tree = Json.signedTree (Source.ofJson j).toList) : Spelled j := by
  obtain ⟨minus, d, hd, hvalue, htext⟩ := Json.numeral_spec hj hx
  obtain ⟨c, cs, hhead, hc⟩ := Decimal.head_digit hd
  cases minus with
  | false =>
    rw [if_neg Bool.false_ne_true] at hvalue htext
    refine spelled_literal (.number d.value) (String.ofList d.text) ?_ fun s id hget depth => ?_
    · rw [htree, htext, ← numberTree_text hd, hhead, Json.signedTree]
      rintro numeral ⟨⟩
      cases hc
    · rw [jsonWithin, hget, hdouble, hvalue]
  | true =>
    rw [if_pos rfl] at hvalue htext
    have ht : j.tree = .mk (.unaryExpression "-" (.mk (.literal (.number d.value) (String.ofList d.text)))) := by
      rw [htree, htext, Json.signedTree, numberTree_text hd]
    intro s s' depth hkeeps hdepth
    obtain ⟨depth, rfl⟩ : ∃ k, depth = k + 1 := ⟨depth - 1, by omega⟩
    rw [ht] at hkeeps ⊢
    have hnumber : s'.number? (s.insert (.mk (.literal (.number d.value) (String.ofList d.text)))).1 = some d.value := by
      have hinner : Keeps (s.insert (.mk (.literal (.number d.value) (String.ofList d.text)))).2 s' := hkeeps.of_insert
      rw [number?, hinner.get_insert]
      rfl
    have hget : s'.get _ = .unaryExpression "-" (s.insert (.mk (.literal (.number d.value) (String.ofList d.text)))).1 :=
      hkeeps.get_insert
    rw [jsonWithin, hget]
    simp only [hnumber, hdouble, ← hvalue, Option.map_some]

theorem insert_items (j : Json) (items : List Json) (s : Store) :
    Node.traverseList (Node.traverseOption (Tree.fold insertNode)) (Json.itemTrees (j :: items)) s =
      let more := Node.traverseList (Node.traverseOption (Tree.fold insertNode)) (Json.itemTrees items) (s.insert j.tree).2
      (some (s.insert j.tree).1 :: more.1, more.2) := rfl

/-- The trees of items spell out the items. -/
theorem spelled_items {items : List Json} (h : ∀ j ∈ items, Spelled j) (s : Store) :
    let inserted := Node.traverseList (Node.traverseOption (Tree.fold insertNode)) (Json.itemTrees items) s
    Keeps s inserted.2 ∧ ∀ s' depth, Keeps inserted.2 s' → inserted.2.size ≤ depth →
      inserted.1.mapM (fun (e : Option NodeId) => e.bind (s'.jsonWithin depth)) = some (Json.itemsAsDoubles items) := by
  induction items generalizing s with
  | nil => exact ⟨.refl s, fun _ _ _ _ => rfl⟩
  | cons j items ih =>
    obtain ⟨hkeeps, hvalues⟩ := ih (fun k hk => h k (List.mem_cons_of_mem j hk)) (s.insert j.tree).2
    rw [insert_items]
    refine ⟨(keeps_insert j.tree s).trans hkeeps, fun s' depth hs' hdepth => ?_⟩
    have hvalue := h j List.mem_cons_self s s' depth (hkeeps.trans hs')
      ((index_insert j.tree s).trans_le (hkeeps.size.trans hdepth))
    have hrest := hvalues s' depth hs' hdepth
    rw [List.mapM_cons, Option.bind_some, hvalue, hrest]
    rfl

theorem spelled_array {items : List Json} (h : ∀ j ∈ items, Spelled j) : Spelled (.array items) := by
  intro s s' depth hkeeps hdepth
  obtain ⟨depth, rfl⟩ : ∃ k, depth = k + 1 := ⟨depth - 1, by omega⟩
  obtain ⟨-, hvalues⟩ := spelled_items h s
  rw [Json.tree] at hkeeps hdepth ⊢
  have hget : s'.get _ = .arrayExpression _ := hkeeps.get_insert
  have hitems := hvalues s' depth hkeeps.of_insert (by
    rw [insert_mk, index_alloc] at hdepth
    exact Nat.le_of_lt_succ hdepth)
  rw [jsonWithin, hget]
  dsimp only
  rw [hitems]
  rfl

theorem insert_members (name : String) (j : Json) (members : List (String × Json)) (s : Store) :
    Node.traverseList (Tree.fold insertNode) (Json.memberTrees ((name, j) :: members)) s =
      let member := s.insert (Source.plainProperty (Json.key name) j.tree)
      let more := Node.traverseList (Tree.fold insertNode) (Json.memberTrees members) member.2
      (member.1 :: more.1, more.2) := rfl

theorem key_not_computed (name : String) : (Json.key name).isComputed = false := by
  rw [Json.key]
  split <;> rfl

/-- The tree of a key names the key. -/
theorem keyName?_insert (name : String) (hkeeps : Keeps (s.insert (Json.key name).tree).2 s') :
    s'.keyName? (s.insert (Json.key name).tree).1 false = some name := by
  rw [Json.key] at hkeeps ⊢
  rw [keyName?]
  by_cases h : Source.isIdentifierName name = true
  · rw [if_pos h] at hkeeps ⊢
    have hget : s'.get (s.insert (Source.Key.named name).tree).1 = .identifier name := Keeps.get_insert hkeeps
    rw [hget]
    rfl
  · rw [if_neg h] at hkeeps ⊢
    have hget : s'.get (s.insert (Source.Key.other (Source.stringTree (Json.quote name))).tree).1 =
        .literal (.string (Source.decodeString (Json.quote name))) (Json.quote name) := Keeps.get_insert hkeeps
    rw [hget, Source.decodeString_quote]

/-- The trees of members spell out the members. -/
theorem spelled_members {members : List (String × Json)} (h : ∀ m ∈ members, Spelled m.2) (s : Store) :
    let inserted := Node.traverseList (Tree.fold insertNode) (Json.memberTrees members) s
    Keeps s inserted.2 ∧ ∀ s' depth, Keeps inserted.2 s' → inserted.2.size ≤ depth →
      inserted.1.mapM (s'.dataMember? (s'.jsonWithin depth)) = some (Json.membersAsDoubles members) := by
  induction members generalizing s with
  | nil => exact ⟨.refl s, fun _ _ _ _ => rfl⟩
  | cons m members ih =>
    obtain ⟨name, j⟩ := m
    obtain ⟨hkeeps, hvalues⟩ := ih (fun m hm => h m (List.mem_cons_of_mem _ hm))
      (s.insert (Source.plainProperty (Json.key name) j.tree)).2
    rw [insert_members]
    refine ⟨(keeps_insert _ s).trans hkeeps, fun s' depth hs' hdepth => ?_⟩
    -- what was inserted later keeps the member and its parts
    have hmember : Keeps (s.insert (Source.plainProperty (Json.key name) j.tree)).2 s' := hkeeps.trans hs'
    have hinner : Keeps ((s.insert (Json.key name).tree).2.insert j.tree).2 s' := hmember.of_insert
    have hkey := keyName?_insert name ((keeps_insert j.tree _).trans hinner)
    have hget : s'.get (s.insert (Source.plainProperty (Json.key name) j.tree)).1 =
        .property (s.insert (Json.key name).tree).1 ((s.insert (Json.key name).tree).2.insert j.tree).1 .init
          (Json.key name).isComputed false false := hmember.get_insert
    rw [key_not_computed] at hget
    have hsize : ((s.insert (Json.key name).tree).2.insert j.tree).2.size ≤
        (s.insert (Source.plainProperty (Json.key name) j.tree)).2.size :=
      (Keeps.of_insert (.refl (s.insert (Source.plainProperty (Json.key name) j.tree)).2)).size
    have hvalue := h (name, j) List.mem_cons_self (s.insert (Json.key name).tree).2 s' depth hinner
      ((index_insert j.tree _).trans_le ((hsize.trans hkeeps.size).trans hdepth))
    have hdata : s'.dataMember? (s'.jsonWithin depth) (s.insert (Source.plainProperty (Json.key name) j.tree)).1 =
        some (name, j.asDoubles) := by
      rw [dataMember?, hget]
      dsimp only
      rw [memberKey?, hget]
      dsimp only
      rw [hkey, hvalue]
      rfl
    rw [List.mapM_cons, hdata, hvalues s' depth hs' hdepth]
    rfl

theorem spelled_object {members : List (String × Json)} (h : ∀ m ∈ members, Spelled m.2)
    (hkeys : (members.map Prod.fst).Nodup) : Spelled (.object members) := by
  intro s s' depth hkeeps hdepth
  obtain ⟨depth, rfl⟩ : ∃ k, depth = k + 1 := ⟨depth - 1, by omega⟩
  obtain ⟨-, hvalues⟩ := spelled_members h s
  rw [Json.tree] at hkeeps hdepth ⊢
  have hget : s'.get _ = .objectExpression _ := hkeeps.get_insert
  have hmembers := hvalues s' depth hkeeps.of_insert (by
    rw [insert_mk, index_alloc] at hdepth
    exact Nat.le_of_lt_succ hdepth)
  rw [jsonWithin, hget]
  dsimp only
  rw [hmembers]
  change (if ((Json.membersAsDoubles members).map Prod.fst).Nodup then some (Json.object (Json.membersAsDoubles members))
    else none) = _
  rw [Json.map_fst_membersAsDoubles, if_pos hkeys]
  rfl

/-- Every value is spelled out by its tree. -/
theorem spelled_tree (hj : j.Proper) : Spelled j := by
  induction hj with
  | null => exact spelled_literal .null "null" rfl fun s id hget depth => by rw [jsonWithin, hget]; rfl
  | bool b => exact spelled_literal (.boolean b) _ rfl fun s id hget depth => by rw [jsonWithin, hget]; rfl
  | int n h => exact spelled_number (.int n h) rfl rfl rfl
  | double x h => exact spelled_number (.double x h) rfl rfl rfl
  | string text =>
    refine spelled_literal (.string (Source.decodeString (Json.quote text))) (Json.quote text) rfl fun s id hget depth => ?_
    rw [jsonWithin, hget, Source.decodeString_quote]
    rfl
  | array items _ ih => exact spelled_array ih
  | object members _ hkeys ih => exact spelled_object ih hkeys

/-- A value that is written as source is read, wherever it is put, as an expression that spells it out. -/
theorem readExpression_json (hj : j.Proper) (s : Store) : ∃ t, Source.readExpression (Source.ofJson j) = .ok t ∧
    (s.insert t).2.json? (s.insert t).1 = some j.asDoubles := by
  refine ⟨j.tree, Source.readExpression_tree hj, ?_⟩
  exact spelled_tree hj s _ _ (.refl _) (Nat.lt_succ_of_lt (index_insert j.tree s))

/-- A value with a bare and a quoted key, an escape, a negative integer and a fraction. -/
def mixedData : Json :=
  .object [("a b", .string "\"\n"), ("clé", .array [.int (-5), .double ⟨0x3FB999999999999A⟩, .null])]

theorem mixedData_read : mixedData.Proper ∧
    Source.ofJson mixedData = "\x7b \"a b\": \"\\\"\\n\", clé: [-5, 0.1, null] \x7d" ∧
    ∃ t, Source.readExpression (Source.ofJson mixedData) = .ok t ∧ (empty.insert t).2.json? (empty.insert t).1 =
      some (.object [("a b", .string "\"\n"),
        ("clé", .array [.double ⟨0xC014000000000000⟩, .double ⟨0x3FB999999999999A⟩, .null])]) := by
  have hproper : mixedData.Proper := by
    refine .object _ ?_ (by decide)
    simp only [List.forall_mem_cons]
    refine ⟨.string _, .array _ ?_, nofun⟩
    simp only [List.forall_mem_cons]
    exact ⟨.int _ (by decide), .double _ (by decide +kernel), .null, nofun⟩
  obtain ⟨t, hread, hjson⟩ := readExpression_json hproper empty
  have hminus : Double.ofInt (-5) = ⟨0xC014000000000000⟩ := by decide +kernel
  refine ⟨hproper, by decide +kernel, t, hread, hjson.trans ?_⟩
  rw [mixedData]
  simp only [Json.asDoubles, Json.membersAsDoubles, Json.itemsAsDoubles, hminus]

end Store
end Graft
