import Graft.Proofs.Print.Extent
import Graft.Proofs.Print.Starts
import Graft.Proofs.Print.Targets
/-!
# Reading over operands

A reader of statements (`Graft.Lexical.run`) has to get over the expressions in them. `Crosses` follows its state over printed pieces.
The laws of a reader (`Follows`) say what it does at a word, a bracket and a keyword, and from them it crosses every tree that binds at
least like a call (`Tree.Spelt.crosses`).
-/

namespace Graft

open Lexical

namespace Lexical
variable {κ : Type} {take : κ → String → Option κ} {x y z : κ} {ps qs : Pieces} {b : Bracket} {w : String}

@[simp] theorem tokens_line (depth : Nat) (ps : Pieces) : tokens (.line depth :: ps) = tokens ps := rfl

/-- Outside of all brackets before the pieces and behind them, with these states. -/
def Crosses (take : κ → String → Option κ) (x : κ) (ps : Pieces) (y : κ) : Prop := run take ([], x) (tokens ps) = some ([], y)

/-- All is in one pair of brackets. -/
def Grouped (o c : String) (ps : Pieces) : Prop := ∃ us, Balanced us ∧ tokens ps = o :: us ++ [c]

namespace Crosses

theorem nil : Crosses take x [] x := rfl

theorem append (h : Crosses take x ps y) (h' : Crosses take y qs z) : Crosses take x (ps ++ qs) z := by
  rw [Crosses, tokens_append, run_append h]
  exact h'

theorem cons {piece : Piece} (h : Crosses take x [piece] y) (h' : Crosses take y ps z) : Crosses take x (piece :: ps) z :=
  h.append h'

/-- Blanks and the order in which pieces were joined do not matter. -/
theorem congr (h : Crosses take x ps y) (he : tokens qs = tokens ps) : Crosses take x qs y := by
  rwa [Crosses, he]

theorem mark (hw : isBracket w = false) (h : take x w = some y) : Crosses take x [.mark w] y := by
  show run take ([], x) [w] = _
  rw [run, advance_word hw, h]
  rfl

theorem leaf (hw : isBracket w = false) (h : take x w = some y) : Crosses take x [.leaf w] y := mark hw h

theorem grouped {o c : String} (ho : opening? o = some b) (hc : closing? c = some b) (h : Grouped o c ps) (hx : take x o = some y) :
    Crosses take x ps y := by
  obtain ⟨us, hus, hps⟩ := h
  rw [Crosses, hps]
  exact run_group ho hc hus hx

end Crosses

theorem grouped_of_paired {o c : String} (h : Tree.Paired ps) : Grouped o c (.mark o :: ps ++ [.mark c]) :=
  ⟨tokens ps, h.balanced, by simp⟩

/-! ## Readers -/

/-- A token that a value begins with and is done, and no name behind a dot. -/
def IsValue (w : String) : Prop := IsInline w ∧ w ∉ ["class", "function", "extends", "new", ".", "?."]

/-- A reader that is in `start` where a value is about to start, and in `done` behind it. The bodies of functions and classes that are
still to come are counted. -/
structure Follows (take : κ → String → Option κ) (start done : Nat → κ) : Prop where
  value (n : Nat) {w : String} : IsValue w → take (start n) w = some (done n)
  group (n : Nat) {w : String} : w ∈ ["(", "[", "\x7b"] → take (start n) w = some (done n)
  new (n : Nat) : take (start n) "new" = some (start n)
  function (n : Nat) : take (start n) "function" = some (done (n + 1)) ∧ take (done n) "function" = some (done (n + 1))
  ofClass (n : Nat) : take (start n) "class" = some (done (n + 1))
  name (n : Nat) {w : String} : IsValue w → take (done n) w = some (done n)
  further (n : Nat) {w : String} : w ∈ ["(", "["] → take (done n) w = some (done n)
  member (n : Nat) (dot : String) {w : String} : isDot dot = true → IsInline w → run take ([], done n) [dot, w] = some ([], done n)
  optional (n : Nat) {w : String} : w ∈ ["(", "["] → ∃ x, take (done n) "?." = some x ∧ take x w = some (done n)
  heritage (n : Nat) : take (done n) "extends" = some (start n)
  body (n : Nat) : take (done (n + 1)) "\x7b" = some (done n)

theorem run_pair {w' : String} (hw : isBracket w = false) (hw' : isBracket w' = false) (h : take x w = some y)
    (h' : take y w' = some z) : run take ([], x) [w, w'] = some ([], z) := by
  rw [run, advance_word hw, h]
  show run take ([], y) [w'] = _
  rw [run, advance_word hw', h']
  rfl

/-- In a line there is no state but the number of the colons that are asked for. -/
theorem follows_inLine (asked : Nat) : Follows inLine (fun _ => asked) fun _ => asked := by
  have key {w : String} (h : w ∉ [";", "?", ":"]) : inLine asked w = some asked := by
    simp only [List.mem_cons, List.not_mem_nil, or_false, not_or] at h
    rw [inLine, if_neg h.1, if_neg h.2.1, if_neg h.2.2]
  have among {ws : List String} {w : String} (h : w ∈ ws) (hws : ∀ w ∈ ws, w ∉ [";", "?", ":"] := by decide) :
      inLine asked w = some asked :=
    key (hws w h)
  have dot {w : String} (h : isDot w = true) : inLine asked w = some asked := by
    have hmem : w ∈ [".", "?."] := by simpa [isDot] using h
    exact among hmem
  exact {
    value := fun _ _ h => key h.1.2
    group := fun _ _ h => among h
    new := fun _ => key (by decide)
    function := fun _ => ⟨key (by decide), key (by decide)⟩
    ofClass := fun _ => key (by decide)
    name := fun _ _ h => key h.1.2
    further := fun _ _ h => among h
    member := fun _ _ _ hd h => run_pair (not_bracket_of_dot hd) h.1 (dot hd) (key h.2)
    optional := fun _ _ h => ⟨asked, key (by decide), among h⟩
    heritage := fun _ => key (by decide)
    body := fun _ => key (by decide) }

/-- Inside of a class. -/
theorem follows_heritage : Follows Heritage.take (fun n => ⟨n + 1, true, false⟩) fun n => ⟨n + 1, false, false⟩ := by
  have word {n : Nat} {wants : Bool} {w : String} (h : w ∉ ["class", "function", "extends", "new", ".", "?."])
      (hw : w ≠ "\x7b" ∨ wants = true) : Heritage.take ⟨n + 1, wants, false⟩ w = some ⟨n + 1, false, false⟩ := by
    simp only [List.mem_cons, List.not_mem_nil, or_false, not_or] at h
    rcases hw with hw | rfl <;> simp [Heritage.take, isDot, *]
  have value {n : Nat} {wants : Bool} {w : String} (h : IsValue w) :
      Heritage.take ⟨n + 1, wants, false⟩ w = some ⟨n + 1, false, false⟩ := by
    refine word h.2 (.inl ?_)
    rintro rfl
    cases h.1.1
  have key : ∀ w ∈ ["(", "[", "\x7b"], w ∉ ["class", "function", "extends", "new", ".", "?."] := by decide
  have further : ∀ w ∈ ["(", "["], w ∈ ["(", "[", "\x7b"] ∧ w ≠ "\x7b" := by decide
  exact {
    value := fun _ _ h => value h
    group := fun _ _ h => word (key _ h) (.inr rfl)
    new := fun _ => rfl
    function := fun _ => ⟨rfl, rfl⟩
    ofClass := fun _ => rfl
    name := fun _ _ h => value h
    further := fun _ _ h => word (key _ (further _ h).1) (.inl (further _ h).2)
    member := fun n dot w hd h => by
      refine run_pair (y := ⟨n + 1, false, true⟩) (not_bracket_of_dot hd) h.1 ?_ rfl
      simp [Heritage.take, hd]
    optional := fun n w _ => ⟨⟨n + 1, false, true⟩, rfl, rfl⟩
    heritage := fun _ => rfl
    body := fun _ => rfl }

end Lexical

namespace Node
variable {τ : Slot} {n : Node Tree} {s : String}

/-- A keyword or a mark that is no expression by itself. -/
def isForeign (w : String) : Bool :=
  w ∈ [".", "?.", "\x7b", "\x7d"] || w ∈ Grammar.reservedWords && w ∉ ["true", "false", "null", "this", "super"]

theorem not_foreign_of_first {c : Char} {cs : List Char} (hs : s.toList = c :: cs)
    (hc : startsName .reader c = false ∧ c ∉ "?\x7b\x7d".toList) (hdot : c = '.' → cs ≠ []) : isForeign s = false := by
  have key : ∀ w ∈ Grammar.reservedWords, w.toList.head?.any (startsName .reader) = true := by decide
  rw [isForeign, Bool.or_eq_false_iff, decide_eq_false_iff_not]
  refine ⟨fun hmem => ?_, ?_⟩
  · simp only [List.mem_cons, List.not_mem_nil, or_false] at hmem
    rcases hmem with rfl | rfl | rfl | rfl <;> cases hs
    · exact hdot rfl rfl
    all_goals exact hc.2 (by decide)
  · rw [Bool.and_eq_false_iff, decide_eq_false_iff_not]
    refine .inl fun hmem => ?_
    have := key s hmem
    simp [hs, hc.1] at this

theorem not_reserved (hn : (Node.identifier s : Node Tree).IsSpelt (fun _ => False) τ) (hm : τ ≠ .memberName) (hk : τ ≠ .key) :
    s ∉ Grammar.reservedWords := by
  have key : ∀ w ∈ Grammar.reservedWords, '\\' ∉ w.toList := by decide
  obtain ⟨v, hv, hr⟩ := hn
  intro hmem
  rw [hv.1.plain (key s hmem), String.ofList_toList] at hr
  exact (hr hmem).elim hm hk

theorem not_foreign_of_name (hn : (Node.identifier s : Node Tree).IsSpelt (fun _ => False) τ) (hm : τ ≠ .memberName)
    (hk : τ ≠ .key) : isForeign s = false := by
  have marks : ∀ w ∈ [".", "?.", "\x7b", "\x7d"], w.toList.head?.any (startsName .reader) = false := by decide
  have hr := not_reserved hn hm hk
  obtain ⟨v, hv, -⟩ := hn
  rw [isForeign, Bool.or_eq_false_iff, decide_eq_false_iff_not, Bool.and_eq_false_iff, decide_eq_false_iff_not]
  refine ⟨fun hmem => ?_, .inl hr⟩
  obtain ⟨c, cs, hw, hc⟩ := hv.first
  have := marks s hmem
  simp [hw, hc] at this

theorem not_foreign (hn : n.leafText? = some s) (hs : n.IsSpelt (fun _ => False) τ) (hm : τ ≠ .memberName) (hk : τ ≠ .key) :
    isForeign s = false := by
  cases n with
  | identifier name =>
    cases hn
    exact not_foreign_of_name hs hm hk
  | privateIdentifier name =>
    cases hn
    have hfirst : ("#" ++ name).toList = '#' :: name.toList := by simp
    exact not_foreign_of_first hfirst (by decide) nofun
  | literal value raw =>
    cases hn
    rcases literal_first hs with h | ⟨c, cs, hw, hc⟩
    · have key : ∀ w ∈ ["true", "false", "null"], isForeign w = false := by decide
      exact key _ h
    · refine not_foreign_of_first hw ⟨?_, fun hmem => ?_⟩ fun hdot => ?_
      · by_contra hname
        obtain ⟨hmark, hquote, hdigit⟩ := name_plain (Bool.not_eq_false _ ▸ hname)
        rcases hc with hc | hc | ⟨rfl, -⟩ | ⟨rfl, -⟩
        · simp [hquote] at hc
        · simp [hdigit] at hc
        · cases hmark
        · cases hmark
      · have key : "?\x7b\x7d".toList.all (fun d => !isQuote d && !Unicode.isAsciiDigit d && d ≠ '.' && d ≠ '/') = true := by
          decide
        exact hc.ne (List.all_eq_true.1 key c hmem) rfl
      · subst hdot
        rcases hc with hc | hc | ⟨-, hc⟩ | ⟨hc, -⟩
        · cases hc
        · cases hc
        · exact hc
        · cases hc
  | thisExpression | super =>
    cases hn
    decide
  | verbatim text => exact hs.elim
  | _ => cases hn

theorem isValue_leaf (hn : n.leafText? = some s) (hs : n.IsSpelt (fun _ => False) τ) (hm : τ ≠ .memberName) (hk : τ ≠ .key) :
    IsValue s := by
  have key : ∀ w ∈ ["class", "function", "extends", "new", ".", "?."], isForeign w = true := by decide
  refine ⟨?_, fun hmem => ?_⟩
  · cases n with
    | identifier | privateIdentifier | literal =>
      cases hn
      exact hs.inline _ List.mem_cons_self
    | thisExpression | super =>
      cases hn
      exact ⟨rfl, by decide⟩
    | verbatim text => exact hs.elim
    | _ => cases hn
  · have := not_foreign hn hs hm hk
    rw [key s hmem] at this
    cases this

end Node

namespace Tree
variable {σ : Slot} {t : Tree} {ts : List Tree} {c : PrintContext}

/-! ## Parts in brackets -/

theorem grouped_block (h : ∀ t ∈ ts, t.PrintsPaired) : Grouped "\x7b" "\x7d" (block ts c) := by
  cases ts with
  | nil => exact ⟨[], rfl, rfl⟩
  | cons t ts =>
    have ht : Paired (asStatement t (pieces t) c.deeper.withIn) := paired_asStatement (h t List.mem_cons_self)
    have hts : Paired (lines ts c.deeper.withIn) := paired_lines fun u hu => h u (List.mem_cons_of_mem _ hu)
    refine ⟨_, (ht.append hts).balanced, ?_⟩
    rw [block]
    simp

theorem grouped_braced (h : ∀ t ∈ ts, t.PrintsPaired) : Grouped "\x7b" "\x7d" (braced ts c) := by
  cases ts with
  | nil => exact ⟨[], rfl, rfl⟩
  | cons t ts =>
    have ht : Paired (asOperand t (pieces t) Level.assign c) := paired_asOperand (h t List.mem_cons_self)
    have hts : Paired (furtherMembers ts c) := paired_furtherMembers fun u hu => h u (List.mem_cons_of_mem _ hu)
    refine ⟨_, (ht.append hts).balanced, ?_⟩
    rw [braced]
    simp

theorem WellFormed.grouped_body (h : WellFormed σ t) (hb : t.node.isBlock = true) :
    Grouped "\x7b" "\x7d" (asStatement t (pieces t) c) := by
  obtain ⟨n⟩ := t
  cases n with
  | blockStatement body => exact grouped_block fun t ht => (h.places (t, .statement) (by simp [Node.places, ht])).2.paired
  | _ => cases hb

theorem WellFormed.grouped_classBody (h : WellFormed .classBody t) : Grouped "\x7b" "\x7d" (classBody t c) := by
  obtain ⟨n⟩ := t
  have ha := h.allows
  cases n with
  | classBody members =>
    have hmembers : Paired (memberLines members c.deeper) := paired_members h.places rfl
    show Grouped _ _ (if members.isEmpty then [.mark "\x7b", .mark "\x7d"] else _)
    split
    next => exact ⟨[], rfl, rfl⟩
    next => exact ⟨_, hmembers.balanced, by simp⟩
  | _ => cases ha

theorem grouped_parenthesized (h : t.PrintsPaired) : Grouped "(" ")" (parenthesized (pieces t) c) := grouped_of_paired (h c.withIn)

/-- A name prints as itself. -/
theorem Spelt.isName (h : Spelt (fun _ => False) .name t) (c : PrintContext) :
    ∃ w, IsValue w ∧ asOperand t (pieces t) Level.primary c = [.leaf w] := by
  obtain ⟨n⟩ := t
  have ha := h.allows
  cases n with
  | identifier name =>
    refine ⟨name, Node.isValue_leaf rfl h.spelt nofun nofun, ?_⟩
    exact if_neg (by simp [level, node, Node.level, Node.isBareIn])
  | _ => cases ha

theorem Spelt.isMemberName {kept : String → Prop} (h : Spelt kept .memberName t) (c : PrintContext) :
    ∃ w, IsInline w ∧ pieces t c = [.leaf w] := by
  obtain ⟨n⟩ := t
  have ha := h.allows
  cases n with
  | identifier name => exact ⟨name, h.spelt.inline _ List.mem_cons_self, rfl⟩
  | privateIdentifier name => exact ⟨_, h.spelt.inline _ List.mem_cons_self, rfl⟩
  | _ => cases ha

/-! ## Functions and classes -/

/-- What stands in front of the parameters of a function. -/
def functionHead (f : Func Tree) (c : PrintContext) : Pieces :=
  optionally f.isAsync [.mark "async", .blank] ++ .mark "function" :: optionally f.generator [.mark "*"] ++ [.blank] ++
    f.id.elim [] fun t => asOperand t (pieces t) Level.primary c

theorem function_eq (f : Func Tree) (c : PrintContext) : function f c =
    functionHead f c ++ (.mark "(" :: listed f.params c ++ [.mark ")", .blank]) ++ asStatement f.body (pieces f.body) c := by
  obtain ⟨id, params, body, isAsync, generator⟩ := f
  have happend (ps : Pieces) : ps ++ (.mark "(" :: listed params c ++ [.mark ")", .blank]) =
      ps ++ .mark "(" :: listed params c ++ [.mark ")", .blank] := (List.append_assoc _ _ _).symm
  cases id <;> (rw [happend]; rfl)

/-- What stands between the first word of a class and its body. -/
def classHead (k : ClassParts Tree) (c : PrintContext) : Pieces :=
  (k.id.elim [] fun t => .blank :: asOperand t (pieces t) Level.primary c) ++
    k.superClass.elim [] fun t => [.blank, .mark "extends", .blank] ++ asOperand t (pieces t) Level.call c

theorem classPieces_eq (k : ClassParts Tree) (c : PrintContext) :
    classPieces k c = .mark "class" :: classHead k c ++ .blank :: classBody k.body c := by
  obtain ⟨id, superClass, body⟩ := k
  cases id <;> cases superClass <;> rfl

/-! ## What binds like a call -/

section Readers
variable {κ : Type} {take : κ → String → Option κ} {start done : Nat → κ} {n : Nat}

/-- Without parentheses, the tree is crossed as a value. -/
def PrintsValue (take : κ → String → Option κ) (start done : Nat → κ) (t : Tree) : Prop :=
  Level.call ≤ t.level → ∀ n c, Crosses take (start n) (pieces t c) (done n)

variable (laws : Follows take start done)
include laws

theorem crosses_parenthesized (hp : t.PrintsPaired) : Crosses take (start n) (parenthesized (pieces t) c) (done n) :=
  .grouped rfl rfl (grouped_parenthesized hp) (laws.group n (by decide))

/-- The arguments of a call, the parameters of a function or a computed name. -/
theorem crosses_further {b : Bracket} {o e : String} {ps : Pieces} (ho : opening? o = some b) (he : closing? e = some b)
    (hmem : o ∈ ["(", "["]) (h : Paired ps) (isOptional : Bool) :
    Crosses take (done n) (optionally isOptional [.mark "?."] ++ (.mark o :: ps ++ [.mark e])) (done n) := by
  cases isOptional with
  | false => exact .grouped ho he (grouped_of_paired h) (laws.further n hmem)
  | true =>
    obtain ⟨x, hdot, hx⟩ := laws.optional n hmem
    exact .cons (.mark rfl hdot) (.grouped ho he (grouped_of_paired h) hx)

theorem crosses_listed (h : Paired (listed ts c)) : Crosses take (done n) (.mark "(" :: listed ts c ++ [.mark ")"]) (done n) :=
  crosses_further laws rfl rfl (by decide) h false

section Places
variable (hp : t.PrintsPaired) (h : PrintsValue take start done t)
include hp h

theorem crosses_asOperand : Crosses take (start n) (asOperand t (pieces t) Level.call c) (done n) := by
  unfold asOperand
  split
  next => exact crosses_parenthesized laws hp
  next hl =>
    simp only [Bool.or_eq_true, decide_eq_true_eq, not_or, Nat.not_lt] at hl
    exact h hl.1 n c

theorem crosses_asChainObject : Crosses take (start n) (asChainObject t (pieces t) c) (done n) := by
  unfold asChainObject
  split
  next => exact crosses_parenthesized laws hp
  next => exact crosses_asOperand laws hp h

theorem crosses_asMemberObject : Crosses take (start n) (asMemberObject t (pieces t) c) (done n) := by
  unfold asMemberObject
  split
  next => exact crosses_parenthesized laws hp
  next => exact crosses_asChainObject laws hp h

theorem crosses_asNewCallee : Crosses take (start n) (asNewCallee t (pieces t) c) (done n) := by
  unfold asNewCallee
  split
  next => exact crosses_parenthesized laws hp
  next hn => exact h (Grammar.level_of_callee (Bool.eq_false_iff.2 hn)) n c

end Places

theorem crosses_name (h : ∀ t ∈ ts, Spelt (fun _ => False) .name t) {id : Option Tree} (hid : id.toList = ts) :
    Crosses take (done n) (id.elim [] fun t => asOperand t (pieces t) Level.primary c) (done n) := by
  cases id with
  | none => exact .nil
  | some t =>
    obtain ⟨w, hw, hname⟩ := (h t (by simp [← hid])).isName c
    show Crosses take (done n) (asOperand t (pieces t) Level.primary c) (done n)
    rw [hname]
    exact .leaf hw.1.1 (laws.name n hw)

/-- A function, from its first word to the end of its body. -/
theorem crosses_function {f : Func Tree} (hid : ∀ t ∈ f.id.toList, Spelt (fun _ => False) .name t)
    (hparams : Paired (listed f.params c)) (hbody : Grouped "\x7b" "\x7d" (asStatement f.body (pieces f.body) c)) :
    Crosses take (start n) (function f c) (done n) := by
  obtain ⟨id, params, body, isAsync, generator⟩ := f
  have hword : Crosses take (start n) (optionally isAsync [.mark "async"] ++ [.mark "function"]) (done (n + 1)) := by
    cases isAsync with
    | true =>
      have hasync : IsValue "async" := ⟨⟨rfl, by decide⟩, by decide⟩
      exact .cons (.mark rfl (laws.value n hasync)) (.mark rfl (laws.function n).2)
    | false => exact .mark rfl (laws.function n).1
  have hstar : Crosses take (done (n + 1)) (optionally generator [.mark "*"]) (done (n + 1)) := by
    cases generator with
    | true => exact .mark rfl (laws.name (n + 1) ⟨⟨rfl, by decide⟩, by decide⟩)
    | false => exact .nil
  have hname := crosses_name (c := c) (n := n + 1) laws hid rfl
  have hrest := (crosses_listed laws (n := n + 1) hparams).append (.grouped rfl rfl hbody (laws.body n))
  refine (((hword.append hstar).append hname).append hrest).congr ?_
  rw [function_eq]
  cases isAsync <;> cases generator <;> simp [functionHead, optionally]

theorem crosses_classHead {k : ClassParts Tree} (hid : ∀ t ∈ k.id.toList, Spelt (fun _ => False) .name t)
    (hsuper : ∀ t ∈ k.superClass, t.PrintsPaired ∧ PrintsValue take start done t) :
    Crosses take (done n) (classHead k c) (done n) := by
  obtain ⟨id, superClass, body⟩ := k
  have hname := crosses_name (c := c) (n := n) laws hid rfl
  have hheritage : Crosses take (done n) (superClass.elim [] fun t => .mark "extends" :: asOperand t (pieces t) Level.call c)
      (done n) := by
    cases superClass with
    | none => exact .nil
    | some t =>
      obtain ⟨hp, ht⟩ := hsuper t rfl
      exact .cons (.mark rfl (laws.heritage n)) (crosses_asOperand laws hp ht)
  refine (hname.append hheritage).congr ?_
  cases id <;> cases superClass <;> simp [classHead]

/-- What binds like a call and is no name of a member is crossed as a value. -/
theorem Spelt.crosses (h : Spelt (fun _ => False) σ t) (hn : t.node.isExpression = true ∨ t.node.isDestructuring = true)
    (hm : σ ≠ .memberName) (hk : σ ≠ .key) : PrintsValue take start done t := by
  -- On the tree. An operand at the front binds like a call too, or has parentheses; all others are in brackets.
  induction h with
  | @mk σ n ha hs hcomplete hlinked hbelow ih =>
    have hwhole : Spelt (fun _ => False) σ (.mk n) := .mk ha hs hcomplete hlinked hbelow
    have kids := hwhole.wellFormed.places
    have operand {u : Tree} (hu : (u, Slot.expression) ∈ n.places σ) : u.PrintsPaired ∧ PrintsValue take start done u :=
      ⟨(kids _ hu).2.paired, ih _ hu (.inl (hbelow _ hu).allows) nofun nofun⟩
    have items (ts : List Tree) (hts : ∀ t ∈ ts, (t, Slot.item) ∈ n.places σ) (c : PrintContext) : Paired (listed ts c) :=
      (clear_listed fun t ht => clear_kid kids (hts t ht) rfl).paired
    intro hl m c
    cases n with
    | identifier | literal =>
      have hw := Node.isValue_leaf rfl hs hm hk
      exact .leaf hw.1.1 (laws.value m hw)
    | thisExpression | super => exact .leaf rfl (laws.value m ⟨⟨rfl, by decide⟩, by decide⟩)
    | arrayExpression elements =>
      have hslots : Paired (slots elements c) :=
        (clear_slots fun t ht => clear_kid kids (by simpa [Node.places] using ht : (t, Slot.item) ∈ _) rfl).paired
      have hlast : Paired (optionally (isLastHole elements) [.mark ","]) := by cases isLastHole elements <;> exact paired_fixed rfl
      exact .grouped rfl rfl (grouped_of_paired (hslots.append hlast)) (laws.group m (by decide))
    | arrayPattern elements =>
      have hslots : Paired (slots elements c) :=
        (clear_slots fun t ht => clear_kid kids (by simpa [Node.places] using ht : (t, Slot.element) ∈ _) rfl).paired
      have hlast : Paired (optionally (isLastHole elements) [.mark ","]) := by cases isLastHole elements <;> exact paired_fixed rfl
      exact .grouped rfl rfl (grouped_of_paired (hslots.append hlast)) (laws.group m (by decide))
    | objectExpression properties | objectPattern properties =>
      have hgroup : Grouped "\x7b" "\x7d" (braced properties c) :=
        grouped_braced fun t ht => paired_kids kids t (by simpa [Node.children, Node.fields] using ht)
      exact .grouped rfl rfl hgroup (laws.group m (by decide))
    | functionExpression f =>
      have hblock := (kids (f.body, .block) (by simp [Node.places, Node.funcPlaces])).1
      refine crosses_function laws (fun t ht => hbelow (t, .name) ?_) (clear_listed (clear_func kids rfl).2).paired
        (hblock.grouped_body hblock.allows)
      simp [Node.places, Node.funcPlaces, ht]
    | classExpression k =>
      have hhead := crosses_classHead laws (k := k) (c := c) (n := m + 1) (fun t ht => hbelow (t, .name) ?_) fun t ht => operand ?_
      · have hbody := (kids (k.body, .classBody) (by simp [Node.places, Node.classPlaces])).1.grouped_classBody (c := c)
        show Crosses take _ (classPieces k c) _
        rw [classPieces_eq]
        exact .cons (.mark rfl (laws.ofClass m)) (hhead.append (.grouped rfl rfl hbody (laws.body m)))
      · simp [Node.places, Node.classPlaces, ht]
      · simp [Node.places, Node.classPlaces, Option.mem_def.1 ht]
    | callExpression callee arguments optional =>
      obtain ⟨hp, ht⟩ := operand (u := callee) (by simp [Node.places])
      have ha := items arguments (fun t ht => by simp [Node.places, ht]) c
      have harguments := crosses_further (n := m) laws (o := "(") (e := ")") rfl rfl (by decide) ha optional
      refine ((crosses_asChainObject (c := c) laws hp ht).append harguments).congr ?_
      show tokens (_ ++ _ ++ _ ++ _ ++ _) = _
      simp
    | newExpression callee arguments =>
      obtain ⟨hp, ht⟩ := operand (u := callee) (by simp [Node.places])
      have ha := items arguments (fun t ht => by simp [Node.places, ht]) c
      have hnew : Crosses take (start m) [.mark "new", .blank] (start m) := (Crosses.mark rfl (laws.new m)).congr rfl
      refine ((hnew.append (crosses_asNewCallee (c := c) laws hp ht)).append (crosses_listed laws ha)).congr ?_
      show tokens (_ ++ _ ++ _ ++ _ ++ _) = _
      simp
    | memberExpression object member computed optional =>
      obtain ⟨hp, ht⟩ := operand (u := object) (by simp [Node.places])
      refine (crosses_asMemberObject laws hp ht).append ?_
      cases computed with
      | true =>
        have hm : Paired (asOperand member (pieces member) Level.sequence c) :=
          paired_operand kids (by simp [Node.children, Node.fields])
        refine (crosses_further laws (o := "[") (e := "]") rfl rfl (by decide) hm optional).congr ?_
        show tokens (_ ++ .mark "[" :: _ ++ _) = _
        simp
      | false =>
        obtain ⟨w, hw, hmember⟩ := (hbelow (member, .memberName) (by simp [Node.places])).isMemberName c
        show Crosses take _ (.mark (if optional then "?." else ".") :: pieces member c) _
        rw [hmember]
        cases optional with
        | true => exact laws.member m "?." rfl hw
        | false => exact laws.member m "." rfl hw
    | chainExpression e =>
      refine (operand (u := e) (by simp [Node.places])).2 ?_ m c
      have := hlinked e List.mem_cons_self
      unfold Tree.level
      cases hn : e.node <;> rw [hn] at this <;> first | exact Nat.le_refl _ | cases this
    | binaryExpression operator l r | logicalExpression operator l r =>
      exact absurd (Nat.le_trans hl (Grammar.ofOperator_le operator)) (by decide)
    | updateExpression operator isBefore e => exact absurd hl Grammar.level_of_update
    | sequenceExpression => exact absurd hl (by decide : ¬ Level.call ≤ Level.sequence)
    | assignmentExpression | arrowFunctionExpression => exact absurd hl (by decide : ¬ Level.call ≤ Level.assign)
    | conditionalExpression => exact absurd hl (by decide : ¬ Level.call ≤ Level.conditional)
    | unaryExpression | awaitExpression => exact absurd hl (by decide : ¬ Level.call ≤ Level.unary)
    | verbatim => exact hs.elim
    | _ => rcases hn with hn | hn <;> cases hn

end Readers

end Tree
end Graft
