import Graft.Proofs.Query.Data
import Graft.Proofs.Query.Search
/-!
# What a condition on keys asks for

A condition on keys asks for members at any depth: a table for its keys, a list of names for the names. `Store.hasKeys_iff` says
so without the cases in which a condition is read and matched. A list with an entry that is no string is read as well, and as a
value that asks for nothing; the strings in it are asked for nowhere (`Store.keysKept_iff`).
-/

namespace Graft
namespace Json

variable {j k : Json} {key name : String} {path : List String} {items : List Json} {members : List (String × Json)}

/-- The value behind keys, each of a table. -/
inductive At : Json → List String → Json → Prop
  | here (j : Json) : At j [] j
  | behind {key : String} {path : List String} {j k : Json} {members : List (String × Json)} :
    (key, j) ∈ members → At j path k → At (.object members) (key :: path) k

/-- The keys of a table, or the names in a list of names. Any other value asks for nothing. -/
def asked? : Json → Option (List String)
  | .array items => strings? (.array items)
  | .object members => some (members.map Prod.fst)
  | _ => none

theorem At.eq_of_not_object (h : At j path k) (hj : ∀ members, j ≠ .object members) : path = [] ∧ k = j := by
  cases h with
  | here => exact ⟨rfl, rfl⟩
  | behind => exact absurd rfl (hj _)

theorem At.asked_isSome (h : At j path k) (hk : k.asked?.isSome = true) : j.asked?.isSome = true := by
  cases h with
  | here => exact hk
  | behind => rfl

/-- A list of names holds strings and nothing else. -/
theorem strings?_eq_some {names : List String} : strings? (.array items) = some names ↔ items = names.map .string := by
  rw [strings?]
  induction items generalizing names with
  | nil => cases names <;> simp
  | cons item items ih =>
    rw [List.mapM_cons]
    cases item with
    | string s =>
      cases names with
      | nil => cases items.mapM string? <;> simp [string?]
      | cons name names =>
        simp only [string?, Option.bind_eq_bind, Option.bind_some, List.map_cons, List.cons.injEq, Json.string.injEq, ← ih]
        cases items.mapM string? <;> simp
    | _ => cases names <;> simp [string?]

end Json

/-! ## Objects behind keys -/

namespace Store
variable {s : Store} {o x : NodeId} {j k : Json} {key : String} {path : List String}

/-- The object literal behind keys, each that of the first member that has it. -/
def objectAt? (s : Store) (object : NodeId) : List String → Option NodeId
  | [] => some object
  | key :: path =>
    ((s.findProperty? object key).bind s.propertyValue?).bind fun value =>
      if s.isObject value then s.objectAt? value path else none

def hasMember (s : Store) (object : NodeId) (name : String) : Bool := (s.findProperty? object name).isSome

/-- An object literal has all that a condition asks for, at every depth. -/
def Meets (s : Store) (object : NodeId) (j : Json) : Prop :=
  ∀ path k names, j.At path k → k.asked? = some names →
    ∃ x, s.objectAt? object path = some x ∧ ∀ name ∈ names, s.hasMember x name = true

theorem meets_of_not_object (hj : ∀ members, j ≠ .object members) : s.Meets o j ↔
    ∀ names, j.asked? = some names → ∀ name ∈ names, s.hasMember o name = true := by
  constructor
  · intro h names hnames
    obtain ⟨x, hx, hmembers⟩ := h [] j names (.here j) hnames
    obtain rfl := Option.some.inj hx
    exact hmembers
  · intro h path k names hat hnames
    obtain ⟨rfl, rfl⟩ := hat.eq_of_not_object hj
    exact ⟨o, rfl, h names hnames⟩

theorem objectAt?_cons : s.objectAt? o (key :: path) = (s.objectAt? o [key]).bind fun value => s.objectAt? value path := by
  rw [objectAt?, objectAt?]
  cases (s.findProperty? o key).bind s.propertyValue? with
  | none => rfl
  | some value =>
    change (if s.isObject value then s.objectAt? value path else none) =
      (if s.isObject value then some value else none).bind fun value => s.objectAt? value path
    split <;> rfl

/-- A table asks for its keys, and behind each of them for what the value there asks for, if that asks for anything. -/
theorem meets_object {members : List (String × Json)} : s.Meets o (.object members) ↔
    ∀ m ∈ members, s.hasMember o m.1 = true ∧
      (m.2.asked?.isSome = true → ∃ value, s.objectAt? o [m.1] = some value ∧ s.Meets value m.2) := by
  constructor
  · intro h m hm
    obtain ⟨x, hx, hmembers⟩ := h [] _ _ (.here (.object members)) rfl
    obtain rfl := Option.some.inj hx
    refine ⟨hmembers m.1 (List.mem_map_of_mem hm), fun hasked => ?_⟩
    obtain ⟨names, hnames⟩ := Option.isSome_iff_exists.1 hasked
    obtain ⟨value, hvalue, -⟩ := h [m.1] m.2 names (.behind hm (.here m.2)) hnames
    refine ⟨value, hvalue, fun path k names hat hnames => ?_⟩
    obtain ⟨x, hx, hmembers⟩ := h (m.1 :: path) k names (.behind hm hat) hnames
    rw [objectAt?_cons, hvalue] at hx
    exact ⟨x, hx, hmembers⟩
  · intro h path k names hat hnames
    cases hat with
    | here =>
      refine ⟨o, rfl, fun name hname => ?_⟩
      obtain rfl := Option.some.inj hnames
      obtain ⟨m, hm, rfl⟩ := List.mem_map.1 hname
      exact (h m hm).1
    | behind hm hat =>
      obtain ⟨value, hvalue, hmeets⟩ := (h _ hm).2 (hat.asked_isSome (by rw [hnames]; rfl))
      obtain ⟨x, hx, hmembers⟩ := hmeets _ k names hat hnames
      exact ⟨x, by rw [objectAt?_cons, hvalue]; exact hx, hmembers⟩

/-! ## Matching -/

/-- A condition that asks for nothing is read as one that is only there to be present. -/
theorem ofJson_eq_present (hj : j.asked? = none) : ∃ value, KeySpec.ofJson j = .present value := by
  cases j with
  | array items =>
    rw [KeySpec.ofJson]
    split
    next names hnames => cases hj.symm.trans hnames
    next => exact ⟨_, rfl⟩
  | object members => cases hj
  | _ => exact ⟨_, rfl⟩

theorem ofJson_ne_present (hj : j.asked?.isSome = true) (value : Json) : KeySpec.ofJson j ≠ .present value := by
  intro h
  cases j with
  | array items =>
    rw [KeySpec.ofJson] at h
    split at h
    next => cases h
    next hnone =>
      rw [Json.asked?, Json.strings?, hnone] at hj
      cases hj
  | object members =>
    rw [KeySpec.ofJson] at h
    cases h
  | _ => cases hj

/-- What a row of a table asks for. -/
theorem hasTable_cons {rest : List (String × KeySpec)} : s.hasTable o ((key, KeySpec.ofJson j) :: rest) = true ↔
    (s.hasMember o key = true ∧ (j.asked?.isSome = true →
      ∃ value, s.objectAt? o [key] = some value ∧ s.hasKeys value (KeySpec.ofJson j) = true)) ∧
    s.hasTable o rest = true := by
  rw [hasTable, Bool.and_eq_true]
  refine and_congr_left fun _ => ?_
  rw [hasMember, objectAt?]
  cases s.findProperty? o key with
  | none => simp
  | some property =>
    rw [Option.bind_some, Option.isSome_some]
    cases hasked : j.asked? with
    | none =>
      obtain ⟨value, hvalue⟩ := ofJson_eq_present hasked
      rw [hvalue]
      simp
    | some names =>
      have hne := ofJson_ne_present (j := j) (by rw [hasked]; rfl)
      cases hspec : KeySpec.ofJson j with
      | present value => exact absurd hspec (hne value)
      | names | nested => cases hvalue : s.propertyValue? property <;> simp [hvalue, objectAt?]

mutual
/-- An object literal has the keys exactly if it has all that the condition asks for. -/
theorem hasKeys_iff (s : Store) (o : NodeId) : (j : Json) → (s.hasKeys o (KeySpec.ofJson j) = true ↔ s.Meets o j)
  | .array items => by
    rw [meets_of_not_object (by simp), KeySpec.ofJson, Json.asked?, Json.strings?]
    cases items.mapM Json.string? with
    | none => simp [hasKeys]
    | some names => simp [hasKeys, hasMember]
  | .object members => by
    rw [KeySpec.ofJson, hasKeys, hasTable_iff s o members, meets_object]
  | .null | .bool _ | .int _ | .double _ | .string _ => by
    rw [meets_of_not_object (by simp)]
    simp [KeySpec.ofJson, hasKeys, Json.asked?]

theorem hasTable_iff (s : Store) (o : NodeId) : (members : List (String × Json)) →
    (s.hasTable o (KeySpec.ofMembers members) = true ↔ ∀ m ∈ members, s.hasMember o m.1 = true ∧
      (m.2.asked?.isSome = true → ∃ value, s.objectAt? o [m.1] = some value ∧ s.Meets value m.2))
  | [] => by simp [KeySpec.ofMembers, hasTable]
  | (key, j) :: rest => by
    rw [KeySpec.ofMembers, hasTable_cons, hasTable_iff s o rest, List.forall_mem_cons]
    simp only [hasKeys_iff s _ j]
end

end Store

/-! ## The least object with the keys -/

namespace Tree

/-- The object literal behind keys, each that of the first member that has it. -/
def objectAt? (t : Tree) : List String → Option Tree
  | [] => some t
  | key :: path => (valueOf? t.members key).bind fun value => if value.isObject then value.objectAt? path else none

def hasMember (t : Tree) (name : String) : Bool := (t.members.find? fun m => m.memberKey? = some name).isSome

end Tree

namespace Store
variable {s : Store} {K : Set NodeId} {x : NodeId} (hF : Forest s.children K) (hin : ∀ x ∈ K, x.index < s.size)
include hF hin

theorem objectAt?_tree (hx : x ∈ K) (path : List String) : (s.tree x).objectAt? path = (s.objectAt? x path).map s.tree := by
  induction path generalizing x with
  | nil => rfl
  | cons key path ih =>
    rw [Tree.objectAt?, objectAt?, valueOf?_tree hF hin hx]
    cases hvalue : (s.findProperty? x key).bind s.propertyValue? with
    | none => rfl
    | some value =>
      have hmem := value_mem hF hx hvalue
      rw [Option.map_some, Option.bind_some, Option.bind_some, isObject_tree hF hin hmem, ih hmem]
      split <;> rfl

omit hin in
theorem objectAt?_mem (hx : x ∈ K) {path : List String} {y : NodeId} (h : s.objectAt? x path = some y) : y ∈ K := by
  induction path generalizing x with
  | nil => exact Option.some.inj h ▸ hx
  | cons key path ih =>
    rw [objectAt?, Option.bind_eq_some_iff] at h
    obtain ⟨value, hvalue, h⟩ := h
    split at h
    · exact ih (value_mem hF hx hvalue) h
    · cases h

theorem hasMember_tree (hx : x ∈ K) (name : String) : (s.tree x).hasMember name = s.hasMember x name := by
  rw [Tree.hasMember, members_tree hF hin hx, find?_tree hF hin fun m hm => members_mem hF hx hm, Option.isSome_map]
  rfl

end Store

namespace Json

mutual
/-- An object with all that a condition asks for and nothing else. -/
def least : Json → Json
  | .array items => .object (((strings? (.array items)).getD []).map fun name => (name, .null))
  | .object members => .object (leastMembers members)
  | _ => .object []

def leastMembers : List (String × Json) → List (String × Json)
  | [] => []
  | (key, j) :: rest => (key, least j) :: leastMembers rest
end

theorem leastMembers_eq (members : List (String × Json)) : leastMembers members = members.map fun m => (m.1, m.2.least) := by
  induction members with
  | nil => rfl
  | cons m rest ih => rw [leastMembers, ih, List.map_cons]

theorem least_eq (j : Json) : ∃ members, j.least = .object members ∧ members.map Prod.fst = j.asked?.getD [] := by
  cases j with
  | array items => exact ⟨_, rfl, by simp [asked?, Function.comp_def]⟩
  | object members => exact ⟨_, rfl, by simp [asked?, leastMembers_eq, Function.comp_def]⟩
  | _ => exact ⟨[], rfl, rfl⟩

theorem hasMember_memberTrees (members : List (String × Json)) (name : String) :
    (tree (.object members)).hasMember name = true ↔ name ∈ members.map Prod.fst := by
  rw [Tree.hasMember, show (tree (.object members)).members = memberTrees members from rfl]
  induction members with
  | nil => simp [memberTrees]
  | cons m rest ih =>
    obtain ⟨first, j⟩ := m
    rw [memberTrees, List.find?_cons, memberKey?_plainProperty, List.map_cons, List.mem_cons, ← ih]
    by_cases hname : first = name
    · simp [hname]
    · simp [hname, Ne.symm hname]

theorem hasMember_least (j : Json) (name : String) :
    j.least.tree.hasMember name = true ↔ ∃ names, j.asked? = some names ∧ name ∈ names := by
  obtain ⟨members, hleast, hnames⟩ := least_eq j
  rw [hleast, hasMember_memberTrees, hnames]
  cases j.asked? <;> simp

theorem objectAt?_least {j k : Json} {path : List String} (h : At j path k) (hj : j.Proper) :
    j.least.tree.objectAt? path = some k.least.tree := by
  induction h with
  | here => rfl
  | @behind key path j k members hm hat ih =>
    cases hj with
    | object _ hmembers hkeys =>
      have hnodup : ((leastMembers members).map Prod.fst).Nodup := by
        rw [leastMembers_eq, List.map_map]
        exact hkeys
      have hmem : (key, j.least) ∈ leastMembers members := by
        rw [leastMembers_eq]
        exact List.mem_map.2 ⟨_, hm, rfl⟩
      have hvalue := valueOf?_memberTrees hnodup hmem
      have hobject : j.least.tree.isObject = true := by
        obtain ⟨members, hleast, -⟩ := least_eq j
        rw [hleast]
        rfl
      rw [Tree.objectAt?, show (least (.object members)).tree.members = memberTrees (leastMembers members) from rfl, hvalue,
        Option.bind_some, if_pos hobject, ih (hmembers _ hm)]

end Json

namespace Store

/-- An object literal has a member for each string in each list of a condition, at the depth of the list. -/
def HasListed (s : Store) (object : NodeId) (condition : Json) : Prop :=
  ∀ path items name, condition.At path (.array items) → .string name ∈ items →
    ∃ x, s.objectAt? object path = some x ∧ s.hasMember x name = true

variable {s : Store} {o : NodeId} {k : Json}

/-- The names of a list of names are asked for. -/
theorem Meets.hasMember (h : s.Meets o k) {path : List String} {items : List Json} {name : String}
    (hat : k.At path (.array items)) (hlist : (Json.strings? (.array items)).isSome = true) (hname : .string name ∈ items) :
    ∃ x, s.objectAt? o path = some x ∧ s.hasMember x name = true := by
  obtain ⟨names, hnames⟩ := Option.isSome_iff_exists.1 hlist
  obtain ⟨x, hx, hmembers⟩ := h path _ names hat hnames
  rw [Json.strings?_eq_some.1 hnames, List.mem_map] at hname
  obtain ⟨n, hn, heq⟩ := hname
  obtain rfl := Json.string.inj heq
  exact ⟨x, hx, hmembers n hn⟩

/-- There is an object literal that has no more than a condition asks for. -/
theorem exists_least (hk : k.Proper) : ∃ (s : Store) (o : NodeId), s.isObject o = true ∧ s.Meets o k ∧
    ∀ path j, k.At path j → ∀ x, s.objectAt? o path = some x → ∀ name, s.hasMember x name = true →
      ∃ names, j.asked? = some names ∧ name ∈ names := by
  have htree : (Store.ofTree k.least.tree).tree (Store.ofTree k.least.tree).root = k.least.tree := by
    refine Eq.trans ?_ (tree_insert k.least.tree .empty)
    exact tree_agree (s := (Store.empty.insert k.least.tree).2) rfl fun _ _ => rfl
  obtain ⟨hin, hF⟩ := ofTree_finiteTree k.least.tree
  generalize Store.ofTree k.least.tree = s at htree hin hF
  have hroot : s.root ∈ {x | Below s.children s.root x} := .refl s.root
  have hat {path : List String} {j : Json} (h : k.At path j) : ∃ x, Below s.children s.root x ∧
      s.objectAt? s.root path = some x ∧ s.tree x = j.least.tree := by
    have htrees := objectAt?_tree hF hin hroot path
    rw [htree, Json.objectAt?_least h hk, eq_comm, Option.map_eq_some_iff] at htrees
    obtain ⟨x, hx, hxtree⟩ := htrees
    exact ⟨x, objectAt?_mem hF hroot hx, hx, hxtree⟩
  refine ⟨s, s.root, ?_, ?_, ?_⟩
  · rw [← isObject_tree hF hin hroot, htree]
    obtain ⟨members, hleast, -⟩ := k.least_eq
    rw [hleast]
    rfl
  · intro path j names h hnames
    obtain ⟨x, hx, hobject, hxtree⟩ := hat h
    refine ⟨x, hobject, fun name hname => ?_⟩
    rw [← hasMember_tree hF hin hx, hxtree, Json.hasMember_least]
    exact ⟨names, hnames, hname⟩
  · intro path j h x hobject name hname
    obtain ⟨y, hy, hobject', hytree⟩ := hat h
    obtain rfl := Option.some.inj (hobject.symm.trans hobject')
    rw [← hasMember_tree hF hin hy, hytree, Json.hasMember_least] at hname
    exact hname

/-- A condition keeps all names in its lists exactly if no list has a string beside another entry. -/
theorem hasListed_iff (hk : k.Proper) :
    (∀ (s : Store) o, s.isObject o = true → s.hasKeys o (KeySpec.ofJson k) = true → s.HasListed o k) ↔
      ∀ path items name, k.At path (.array items) → .string name ∈ items →
        (Json.strings? (.array items)).isSome = true := by
  constructor
  · intro h path items name hat hname
    obtain ⟨s, o, hobject, hmeets, hleast⟩ := exists_least hk
    obtain ⟨x, hx, hmember⟩ := h s o hobject ((hasKeys_iff s o k).2 hmeets) path items name hat hname
    obtain ⟨names, hnames, -⟩ := hleast path _ hat x hx name hmember
    exact Option.isSome_iff_exists.2 ⟨names, hnames⟩
  · intro h s o _ hkeys path items name hat hname
    exact ((hasKeys_iff s o k).1 hkeys).hasMember hat (h path items name hat hname) hname

end Store

/-! ## Reading -/

namespace MatchSpec
variable {members : List (String × Json)} {k : Json} {name : Option String} {anonymous : Option Bool} {keys : Option KeySpec}
  {values : Option (List (String × Json))}

theorem lookup_filter_ne {key tag : String} (hne : key ≠ tag) (members : List (String × Json)) :
    (members.filter fun m => m.1 ≠ tag).lookup key = members.lookup key := by
  induction members with
  | nil => rfl
  | cons m rest ih =>
    obtain ⟨first, j⟩ := m
    by_cases hfirst : first = tag
    · rw [List.filter_cons_of_neg (by simpa using hfirst), ih, List.lookup_cons, beq_eq_false_iff_ne.2 (hfirst ▸ hne)]
    · rw [List.filter_cons_of_pos (by simpa using hfirst), List.lookup_cons, List.lookup_cons, ih]

/-- The keys of an object specification are read whatever they are. -/
theorem keys_of_build {category : String} {arguments : Option (Option (List (Option MatchSpec)))}
    (h : build category members arguments = some (.object name anonymous keys values)) :
    Json.optional? (some ∘ KeySpec.ofJson) (members.lookup "keys") = some keys := by
  rw [build] at h
  obtain ⟨fields, -, h⟩ := Option.bind_eq_some_iff.1 h
  by_cases hfields : !Json.onlyFields fields members
  · rw [if_pos hfields] at h
    cases h
  · rw [if_neg hfields] at h
    simp only [Option.pure_def, Option.bind_eq_bind] at h
    split at h
    case h_2 =>
      obtain ⟨_, _, h⟩ := Option.bind_eq_some_iff.1 h
      obtain ⟨_, _, h⟩ := Option.bind_eq_some_iff.1 h
      obtain ⟨read, hread, h⟩ := Option.bind_eq_some_iff.1 h
      obtain ⟨_, _, h⟩ := Option.bind_eq_some_iff.1 h
      cases h
      exact hread
    all_goals simp [Option.bind_eq_some_iff] at h

theorem keys_of_ofJson? (h : ofJson? (.object members) = some (.object name anonymous keys values))
    (hk : members.lookup "keys" = some k) (hnull : k ≠ .null) : keys = some (KeySpec.ofJson k) := by
  rw [ofJson?, ofJsonWithin, Json.tagged?] at h
  obtain ⟨⟨category, rest⟩, htagged, h⟩ := Option.bind_eq_some_iff.1 h
  obtain ⟨tag, -, htagged⟩ := Option.bind_eq_some_iff.1 htagged
  obtain ⟨category', -, htagged⟩ := Option.bind_eq_some_iff.1 htagged
  cases htagged
  have hread := keys_of_build h
  rw [lookup_filter_ne (by decide), hk] at hread
  cases k with
  | null => exact absurd rfl hnull
  | _ => exact (Option.some.inj hread).symm

/-- An object literal that an object specification matches has all that the keys ask for, and if it says nothing but the keys,
it matches no more than these object literals. So the strings in its lists, at any depth, are names of members of whatever it
matches exactly if no list has a string beside another entry: such a list asks for nothing. -/
theorem listed_keys_iff (h : ofJson? (.object members) = some (.object name anonymous keys values))
    (hk : members.lookup "keys" = some k) (hnull : k ≠ .null) (hproper : k.Proper) :
    (∀ (s : Store) node parent, s.matchesIn node parent (.object name anonymous keys values) = true → s.Meets node k) ∧
    (∀ (s : Store) node parent, s.matchesIn node parent (.object none none keys none) = true ↔
      s.isObject node = true ∧ s.Meets node k) ∧
    ((∀ (s : Store) node parent, s.matchesIn node parent (.object none none keys none) = true → s.HasListed node k) ↔
      ∀ path items listed, k.At path (.array items) → .string listed ∈ items →
        (Json.strings? (.array items)).isSome = true) := by
  obtain rfl := keys_of_ofJson? h hk hnull
  have hbare (s : Store) (node : NodeId) (parent : Option NodeId) :
      s.matchesIn node parent (.object none none (some (KeySpec.ofJson k)) none) = true ↔
        s.isObject node = true ∧ s.hasKeys node (KeySpec.ofJson k) = true := by
    simp [Store.matchesIn]
  refine ⟨fun s node parent hm => ?_, fun s node parent => ?_, ?_⟩
  · simp only [Store.matchesIn, Bool.and_eq_true] at hm
    exact (Store.hasKeys_iff s node k).1 hm.1.1.2
  · rw [hbare, Store.hasKeys_iff]
  · rw [← Store.hasListed_iff hproper]
    constructor
    · exact fun hm s node hobject hkeys => hm s node none ((hbare s node none).2 ⟨hobject, hkeys⟩)
    · exact fun hm s node parent hmatch => hm s node ((hbare s node parent).1 hmatch).1 ((hbare s node parent).1 hmatch).2

/-- A table with a list in it: whatever is matched has a `width` in its `size`. -/
theorem sized_listed_keys :
    let k := Json.object [("name", .bool true), ("size", .array [.string "width", .string "height"])]
    ofJson? (.object [("category", .string "object"), ("keys", k)]) = some (.object none none (some (KeySpec.ofJson k)) none) ∧
      k.Proper ∧ ∀ (s : Store) node parent, s.matchesIn node parent (.object none none (some (KeySpec.ofJson k)) none) = true →
        ∃ x, s.objectAt? node ["size"] = some x ∧ s.hasMember x "width" = true := by
  intro k
  have hload : ofJson? (.object [("category", .string "object"), ("keys", k)]) =
    some (.object none none (some (KeySpec.ofJson k)) none) := rfl
  have hproper : k.Proper := .object _ (by
    simp only [List.forall_mem_cons]
    exact ⟨.bool true, .array _ (by simp [Json.Proper.string]), by simp⟩) (by decide)
  refine ⟨hload, hproper, fun s node parent hm => ?_⟩
  obtain ⟨hmeets, -, -⟩ := listed_keys_iff hload rfl (by simp [k]) hproper
  have hat : k.At ["size"] (.array [.string "width", .string "height"]) := .behind (by simp) (.here _)
  exact (hmeets s node parent hm).hasMember hat rfl (by simp)

/-- A list with a number in it: the empty object literal has no `width`, and is matched. -/
theorem mixed_list_unasked :
    let k := Json.array [.string "width", .int 1]
    let spec := MatchSpec.object none none (some (KeySpec.ofJson k)) none
    let s := Store.ofTree (.mk (.objectExpression []))
    ofJson? (.object [("category", .string "object"), ("keys", k)]) = some spec ∧ s.matchesIn s.root none spec = true ∧
      s.hasMember s.root "width" = false :=
  ⟨rfl, by decide +kernel, by decide +kernel⟩

end MatchSpec
end Graft
