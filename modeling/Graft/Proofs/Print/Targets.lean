import Graft.Proofs.Print.Containment
import Graft.Proofs.Print.Formed
import Graft.Source.Program
/-!
# What a loop over something assigns to

In the head of `for (a in b)` and `for (a of b)` a bare `in` in front of the separator would be read as the separator. An expression
or a pattern there binds as tightly as a call or stands in parentheses, so it has none. A declaration may give a variable a value,
and that value prints as it does anywhere: the flag that puts a bare `in` in parentheses in the head of a counting loop is not set
here. These values are the only place where the `in` of an operator comes to stand bare (`Tree.loop_target_bare`), and the
printed text is then another loop or no program at all (`Tree.membership_target_lost`).
-/

namespace Graft

open Lexical
open Piece (blank leaf mark)

namespace Lexical
variable {s s' : List Bracket} {ts us : List String} {b b' w : String} {ps qs : Pieces}

/-! ## Bare tokens of two texts in a row -/

theorem bareFrom_append (h : nest s ts = some s') (b : String) (us : List String) :
    ∃ b', bareFrom s b (ts ++ us) = bareFrom s b ts ++ bareFrom s' b' us := by
  induction ts generalizing s b with
  | nil =>
    cases h
    exact ⟨b, rfl⟩
  | cons w ts ih =>
    cases ho : opening? w with
    | some bracket =>
      obtain ⟨b', hb⟩ := ih (s := bracket :: s) (by simpa [nest, ho] using h) w
      exact ⟨b', by simpa [bareFrom, ho] using hb⟩
    | none =>
      cases hc : closing? w with
      | some bracket =>
        cases s with
        | nil => simp [nest, ho, hc] at h
        | cons top s =>
          obtain ⟨-, h⟩ : bracket = top ∧ nest s ts = some s' := by simpa [nest, ho, hc] using h
          obtain ⟨b', hb⟩ := ih h w
          exact ⟨b', by simpa [bareFrom, ho, hc] using hb⟩
      | none =>
        obtain ⟨b', hb⟩ := ih (s := s) (by simpa [nest, ho, hc] using h) w
        refine ⟨b', ?_⟩
        cases s with
        | nil =>
          simp only [List.cons_append, bareFrom, ho, hc, hb]
          split <;> rfl
        | cons top s => simpa [bareFrom, ho, hc] using hb

/-- The token before counts if it is a dot. -/
theorem bareFrom_before (h : isDot b = isDot b') : bareFrom s b ts = bareFrom s b' ts := by
  cases ts with
  | nil => rfl
  | cons w ts =>
    unfold bareFrom
    rw [h]

/-- There is an `in` outside of brackets, and not as the name of a member. -/
def HasIn (ps : Pieces) : Prop := "in" ∈ bare (tokens ps)

/-- A mark that is no bracket, no dot and no `in`. -/
def isSeparator (w : String) : Bool := !isBracket w && !isDot w && w ≠ "in"

theorem mem_bareFrom_separator (hw : isSeparator w = true) : "in" ∈ bareFrom [] b (w :: ts) ↔ "in" ∈ bare ts := by
  simp only [isSeparator, Bool.and_eq_true, Bool.not_eq_true', decide_eq_true_eq] at hw
  have hts : bareFrom [] w ts = bare ts := bareFrom_before hw.1.2
  rw [bareFrom_outside hw.1.1, hts]
  split
  next => rfl
  next => simp [Ne.symm hw.2]

theorem hasIn_mark (hw : isSeparator w = true) : HasIn (mark w :: ps) ↔ HasIn ps := mem_bareFrom_separator hw

theorem hasIn_separated (hp : Balanced (tokens ps)) (w : String) (hw : isSeparator w = true) (qs : Pieces) :
    HasIn (ps ++ mark w :: qs) ↔ HasIn ps ∨ HasIn qs := by
  obtain ⟨b, hb⟩ := bareFrom_append hp "" (w :: tokens qs)
  rw [HasIn, bare, tokens_append, tokens_mark, hb, List.mem_append, mem_bareFrom_separator hw]
  rfl

end Lexical

namespace Tree
variable {t u : Tree} {σ τ : Slot} {c : PrintContext} {ps : Pieces}

theorem Clear.not_hasIn (h : Clear true ps) : ¬ HasIn ps := fun hin => (h.of_mem_bare _ hin).2 rfl rfl

/-! ## What binds at least like a call -/

/-- Without parentheses, the tree prints no bare `in`. -/
def PrintsTight (t : Tree) : Prop := Level.call ≤ t.level → ∀ c, Clear true (pieces t c)

section Places
variable (hp : t.PrintsPaired) (h : t.PrintsTight)
include hp h

theorem tight_asOperand : Clear true (asOperand t (pieces t) Level.call c) := by
  unfold asOperand
  split
  next => exact enclosed_parenthesized hp _ _
  next hl =>
    simp only [Bool.or_eq_true, decide_eq_true_eq, not_or, Nat.not_lt] at hl
    exact h hl.1 c

theorem tight_asChainObject : Clear true (asChainObject t (pieces t) c) := by
  unfold asChainObject
  split
  next => exact enclosed_parenthesized hp _ _
  next => exact tight_asOperand hp h

theorem tight_asMemberObject : Clear true (asMemberObject t (pieces t) c) := by
  unfold asMemberObject
  split
  next => exact enclosed_parenthesized hp _ _
  next => exact tight_asChainObject hp h

theorem tight_asNewCallee : Clear true (asNewCallee t (pieces t) c) := by
  unfold asNewCallee
  split
  next => exact enclosed_parenthesized hp _ _
  next hn => exact h (Grammar.level_of_callee (Bool.eq_false_iff.2 hn)) c

end Places

theorem WellFormed.places {n : Node Tree} (h : WellFormed σ (.mk n)) :
    ∀ p ∈ n.places σ, WellFormed p.2 p.1 ∧ Contained p.2 p.1 := by
  cases h with
  | mk _ _ _ _ h => exact fun p hp => ⟨h p hp, (h p hp).contained⟩

/-- A name that is declared prints as itself. -/
theorem name_tight (h : WellFormed .name t) : Clear true (asOperand t (pieces t) Level.primary c) := by
  cases h with
  | @mk _ n ha hv hs =>
    cases n with
    | identifier name =>
      obtain ⟨hb, hw⟩ := clear_word (n := .identifier name) (b := true) hs List.mem_cons_self rfl nofun nofun
      have hname : asOperand (.mk (.identifier name)) (pieces (.mk (.identifier name))) Level.primary c = [leaf name] :=
        if_neg (by simp [level, node, Node.level, Node.isBareIn])
      rw [hname]
      exact .leaf hb hw
    | _ => cases ha

section Nodes
variable {n : Node Tree} (kids : ∀ p ∈ n.places σ, WellFormed p.2 p.1 ∧ Contained p.2 p.1)
include kids

theorem tight_function {f : Func Tree} (hn : n.places σ = Node.funcPlaces .block f) : Clear true (function f c) := by
  obtain ⟨hblock, hbody⟩ := kids (f.body, .block) (by simp [hn, Node.funcPlaces])
  obtain ⟨-, hparams⟩ := clear_func kids hn
  have hname : ∀ t ∈ f.id, Clear true (asOperand t (pieces t) Level.primary c) := fun t ht =>
    name_tight (kids (t, .name) (by simp [hn, Node.funcPlaces, Option.mem_def.1 ht])).1
  obtain ⟨id, params, body, isAsync, generator⟩ := f
  have hword : Clear true (optionally isAsync [mark "async", blank] ++
      mark "function" :: optionally generator [mark "*"] ++ [blank]) :=
    ((clear_optionally (clear_fixed rfl) _).append (.cons (clear_fixed rfl) (clear_optionally (clear_fixed rfl) _))).append
      (clear_fixed rfl)
  have hid : Clear true (id.elim [] fun t => asOperand t (pieces t) Level.primary c) := passes_elim hname
  have hclose : Passes (Inline true) [.round] [mark ")", blank] [] := clear_fixed rfl
  have hrest : Clear true (asStatement body (pieces body) c) := enclosed_asStatement hblock.allows (hbody.enclosed hblock.allows) _ _
  cases id <;> exact (((hword.append hid).append (enters_listed hparams)).append hclose).append hrest

theorem tight_class {k : ClassParts Tree} (hn : n.places σ = Node.classPlaces k)
    (hsuper : ∀ t ∈ k.superClass, t.PrintsTight) : Clear true (classPieces k c) := by
  have hid : ∀ t ∈ k.id, Clear true (asOperand t (pieces t) Level.primary c) := fun t ht =>
    name_tight (kids (t, .name) (by simp [hn, Node.classPlaces, Option.mem_def.1 ht])).1
  have hparent : ∀ t ∈ k.superClass, Clear true (asOperand t (pieces t) Level.call c) := fun t ht =>
    tight_asOperand (kids (t, .expression) (by simp [hn, Node.classPlaces, Option.mem_def.1 ht])).2.paired (hsuper t ht)
  have hbody := (kids (k.body, .classBody) (by simp [hn, Node.classPlaces])).2.classBody c
  obtain ⟨id, superClass, body⟩ := k
  have hname : Clear true (id.elim [] fun t => blank :: asOperand t (pieces t) Level.primary c) :=
    passes_elim fun t ht => .cons (clear_fixed rfl) (hid t ht)
  have hextends : Clear true (superClass.elim [] fun t =>
      [blank, mark "extends", blank] ++ asOperand t (pieces t) Level.call c) :=
    passes_elim fun t ht => .append (clear_fixed rfl) (hparent t ht)
  have hword : Clear true [mark "class"] := clear_fixed rfl
  have hblank : Clear true [blank] := clear_fixed rfl
  cases id <;> cases superClass <;> exact ((hword.cons hname).append hextends).append (hblank.cons (hbody _ _))

end Nodes

theorem WellFormed.printsTight (h : WellFormed σ t) (hn : t.node.isExpression = true ∨ t.node.isDestructuring = true)
    (hm : σ ≠ .memberName) (hk : σ ≠ .key) : t.PrintsTight := by
  -- On the tree. What binds like a call and begins with an operand has an operand that does so too, or parentheses.
  induction h with
  | @mk σ n ha hv hs hlinked hbelow ih =>
    have kids (p : Tree × Slot) (hp : p ∈ n.places σ) : WellFormed p.2 p.1 ∧ Contained p.2 p.1 :=
      ⟨hbelow p hp, (hbelow p hp).contained⟩
    have operand {u : Tree} (hu : (u, Slot.expression) ∈ n.places σ) : u.PrintsPaired ∧ u.PrintsTight :=
      ⟨(kids _ hu).2.paired, ih _ hu (.inl (hbelow _ hu).allows) nofun nofun⟩
    have items (ts : List Tree) (hts : ∀ t ∈ ts, (t, Slot.item) ∈ n.places σ) (c : PrintContext) : Paired (listed ts c) :=
      (clear_listed fun t ht => clear_kid kids (hts t ht) rfl).paired
    intro hl c
    cases n with
    | identifier name | literal value raw =>
      obtain ⟨hb, hw⟩ := clear_word (b := true) hs List.mem_cons_self rfl hm hk
      exact .leaf hb hw
    | thisExpression | super => exact .leaf rfl ⟨by decide, fun _ => by decide⟩
    | arrayExpression elements =>
      have hslots : Clear c.noIn (slots elements c) :=
        clear_slots fun t ht => clear_kid kids (by simpa [Node.places] using ht : (t, Slot.item) ∈ _) rfl
      have hopen : Passes (Inline true) [] [mark "["] [.square] := clear_fixed rfl
      have hlast : Clear true (optionally (isLastHole elements) [mark ","]) := clear_optionally (clear_fixed rfl) _
      exact ((hopen.cons hslots.paired.inside).append hlast.inside).append (clear_fixed rfl)
    | arrayPattern elements =>
      have hslots : Clear c.noIn (slots elements c) :=
        clear_slots fun t ht => clear_kid kids (by simpa [Node.places] using ht : (t, Slot.element) ∈ _) rfl
      have hopen : Passes (Inline true) [] [mark "["] [.square] := clear_fixed rfl
      have hlast : Clear true (optionally (isLastHole elements) [mark ","]) := clear_optionally (clear_fixed rfl) _
      exact ((hopen.cons hslots.paired.inside).append hlast.inside).append (clear_fixed rfl)
    | objectExpression properties | objectPattern properties =>
      exact enclosed_braced (fun t ht => paired_kids kids t (by simpa [Node.children, Node.fields] using ht)) _ _
    | functionExpression f => exact tight_function kids rfl
    | classExpression k =>
      exact tight_class kids rfl fun t ht => (operand (by simp [Node.places, Node.classPlaces, Option.mem_def.1 ht])).2
    | callExpression callee arguments optional =>
      obtain ⟨hp, ht⟩ := operand (u := callee) (by simp [Node.places])
      have ha := items arguments (fun t ht => by simp [Node.places, ht]) c
      have hoptional : Clear true (optionally optional [mark "?."]) := clear_optionally (clear_fixed rfl) _
      exact Passes.append (.append (.append (.append (tight_asChainObject hp ht) hoptional) (clear_fixed rfl)) ha.inside)
        (clear_fixed rfl)
    | newExpression callee arguments =>
      obtain ⟨hp, ht⟩ := operand (u := callee) (by simp [Node.places])
      have ha := items arguments (fun t ht => by simp [Node.places, ht]) c
      exact Passes.append (.append (.append (.append (clear_fixed rfl) (tight_asNewCallee hp ht)) (clear_fixed rfl)) ha.inside)
        (clear_fixed rfl)
    | memberExpression object member computed optional =>
      obtain ⟨hp, ht⟩ := operand (u := object) (by simp [Node.places])
      refine (tight_asMemberObject hp ht).append ?_
      cases computed with
      | true =>
        have hm : Paired (asOperand member (pieces member) Level.sequence c) :=
          paired_operand kids (by simp [Node.children, Node.fields])
        have hoptional : Clear true (optionally optional [mark "?."]) := clear_optionally (clear_fixed rfl) _
        exact Passes.append (hoptional.append (.cons (clear_fixed rfl) hm.inside)) (clear_fixed rfl)
      | false =>
        obtain ⟨w, hw, hmember⟩ := pieces_memberName (kids (member, .memberName) (by simp [Node.places])).1
        show Clear true (mark (if optional then "?." else ".") :: pieces member c)
        rw [hmember]
        cases optional <;> exact .member rfl ⟨by decide, fun _ => by decide⟩ hw
    | chainExpression e =>
      refine (operand (u := e) (by simp [Node.places])).2 ?_ c
      have := hlinked e List.mem_cons_self
      unfold Tree.level
      cases hn : e.node <;> rw [hn] at this <;> first | exact Nat.le_refl _ | cases this
    | binaryExpression operator l r | logicalExpression operator l r =>
      exact absurd (Nat.le_trans hl (Grammar.ofOperator_le operator)) (by decide)
    | updateExpression operator isBefore e => exact absurd hl Grammar.level_of_update
    | sequenceExpression => exact absurd hl (by decide : ¬ Level.call ≤ Level.sequence)
    | assignmentExpression | arrowFunctionExpression => exact absurd hl (by decide : ¬ Level.call ≤ Level.assign)
    | conditionalExpression => exact absurd hl (by decide : ¬ Level.call ≤ Level.conditional)
    | unaryExpression | awaitExpression => exact absurd hl (by decide : ¬ Level.call ≤ Level.unary)
    | verbatim => cases hv
    | _ => rcases hn with hn | hn <;> cases hn

/-! ## Targets -/

/-- What stands in front of the separator. -/
def loopTarget (left : Tree) (c : PrintContext) : Pieces :=
  asOperand left (asHead left (head left) (pieces left)) Level.call c

theorem pieces_forInStatement (left right body : Tree) (c : PrintContext) : pieces (.mk (.forInStatement left right body)) c =
    [mark "for", blank, mark "("] ++ loopTarget left c ++ [blank, mark "in", blank] ++
      asOperand right (pieces right) Level.sequence c ++ [mark ")", blank] ++ asStatement body (pieces body) c := rfl

theorem pieces_forOfStatement (left right body : Tree) (isAwait : Bool) (c : PrintContext) :
    pieces (.mk (.forOfStatement left right body isAwait)) c =
      [mark "for", blank] ++ optionally isAwait [mark "await", blank] ++ [mark "("] ++ loopTarget left c ++
        [blank, mark "of", blank] ++ asOperand right (pieces right) Level.assign c ++ [mark ")", blank] ++
        asStatement body (pieces body) c := rfl

def declaredValue? : Tree → Option Tree
  | .mk (.variableDeclarator _ init) => init
  | _ => none

/-- The values that a declaration gives to its variables. -/
def declaredValues : Tree → List Tree
  | .mk (.variableDeclaration _ declarations) => declarations.filterMap declaredValue?
  | _ => []

/-- The value of a declarator as it is printed. -/
def declaredPieces (e : Tree) (c : PrintContext) : Pieces := asOperand e (pieces e) Level.assign c

section Declarations
variable {d : Tree} (h : WellFormed .declarator d ∨ WellFormed .bareDeclarator d)
include h

theorem asDeclarator_eq : asDeclarator d (declarator d) (pieces d) = declarator d := by
  have ha : Slot.declarator.allows d.node = true ∨ Slot.bareDeclarator.allows d.node = true := h.imp (·.allows) (·.allows)
  obtain ⟨n⟩ := d
  rcases ha with ha | ha <;> cases n <;> first | rfl | cases ha

theorem balanced_declarator : Balanced (tokens (declarator d c)) := by
  rcases h with h | h
  · exact (h.contained.declarator c).balanced
  · exact (h.contained.declarator c).balanced

/-- A declarator shows an `in` where its value does. -/
theorem hasIn_declarator : HasIn (declarator d c) ↔ ∃ e ∈ declaredValue? d, HasIn (declaredPieces e c) := by
  obtain ⟨n⟩ := d
  have ha : Slot.declarator.allows n = true ∨ Slot.bareDeclarator.allows n = true := h.imp (·.allows) (·.allows)
  cases n with
  | variableDeclarator id init =>
    have hid : WellFormed .pattern id := by
      rcases h with h | h
      · exact (h.places (id, .pattern) List.mem_cons_self).1
      · exact (h.places (id, .pattern) List.mem_cons_self).1
    have hpattern : id.node.isPattern = true := hid.allows
    have hclear : Clear true (asOperand id (pieces id) Level.assign c) := by
      have hexpression : id.node.isExpression = true ∨ id.node.isDestructuring = true := by
        cases hn : id.node <;> rw [hn] at hpattern <;> first | exact .inl rfl | exact .inr rfl | cases hpattern
      have hlevel : Level.call ≤ id.level ∧ id.node.isBareIn = false := by
        unfold Tree.level
        cases hn : id.node <;> rw [hn] at hpattern <;>
          first
          | exact ⟨by decide, rfl⟩
          | exact ⟨Nat.le_refl _, rfl⟩
          | exact ⟨(by decide : Level.call ≤ Level.primary), rfl⟩
          | cases hpattern
      have hbare : asOperand id (pieces id) Level.assign c = pieces id c :=
        if_neg (by simp [hlevel.2, Nat.le_trans (by decide : Level.assign ≤ Level.call) hlevel.1])
      rw [hbare]
      exact hid.printsTight hexpression nofun nofun hlevel.1 c
    cases init with
    | none => simpa [declarator, declaredValue?] using hclear.not_hasIn
    | some e =>
      have hvalue : HasIn (declarator (.mk (.variableDeclarator id (some e))) c) ↔
          HasIn (asOperand id (pieces id) Level.assign c) ∨ HasIn (declaredPieces e c) := by
        simpa [HasIn, declarator, declaredPieces] using
          hasIn_separated hclear.balanced "=" rfl (declaredPieces e c)
      rw [hvalue]
      simp [hclear.not_hasIn, declaredValue?]
  | _ => rcases ha with ha | ha <;> cases ha

end Declarations

theorem hasIn_declarators {ds : List Tree} (h : ∀ d ∈ ds, WellFormed .declarator d ∨ WellFormed .bareDeclarator d) :
    HasIn (declarators ds c) ↔ ∃ e ∈ ds.filterMap declaredValue?, HasIn (declaredPieces e c) := by
  induction ds with
  | nil => simp [HasIn, declarators, bare, bareFrom]
  | cons d ds ih =>
    have hd := h d List.mem_cons_self
    have hds := ih fun d hd => h d (List.mem_cons_of_mem _ hd)
    have hvalues : (∃ e ∈ (d :: ds).filterMap declaredValue?, HasIn (declaredPieces e c)) ↔
        (∃ e ∈ declaredValue? d, HasIn (declaredPieces e c)) ∨ ∃ e ∈ ds.filterMap declaredValue?, HasIn (declaredPieces e c) := by
      cases hv : declaredValue? d <;> simp [hv]
    rw [hvalues, ← hasIn_declarator hd, ← hds]
    cases ds with
    | nil =>
      show HasIn (asDeclarator d (declarator d) (pieces d) c) ↔ _
      rw [asDeclarator_eq hd]
      simp [HasIn, declarators, bare, bareFrom]
    | cons d' ds =>
      rw [declarators, asDeclarator_eq hd]
      · simpa [HasIn] using hasIn_separated (balanced_declarator hd) "," rfl (declarators (d' :: ds) c)
      · exact List.cons_ne_nil d' ds

/-- In front of the separator an `in` shows where it does in the value of a variable. -/
theorem hasIn_loopTarget {left : Tree} (h : WellFormed .loopTarget left) :
    Balanced (tokens (loopTarget left c)) ∧
      (HasIn (loopTarget left c) ↔ ∃ e ∈ declaredValues left, HasIn (declaredPieces e c)) := by
  obtain ⟨n⟩ := left
  have hallows : Slot.loopTarget.allows n = true := h.allows
  by_cases hn : n.isExpression = true ∨ n.isDestructuring = true
  · have hplain : asHead (.mk n) (head (.mk n)) (pieces (.mk n)) = pieces (.mk n) ∧ declaredValues (.mk n) = [] := by
      cases n <;> first | exact ⟨rfl, rfl⟩ | (rcases hn with hn | hn <;> cases hn)
    have hclear : Clear true (loopTarget (.mk n) c) := by
      rw [loopTarget, hplain.1]
      exact tight_asOperand h.contained.paired (h.printsTight hn nofun nofun)
    rw [hplain.2]
    exact ⟨hclear.balanced, by simp [hclear.not_hasIn]⟩
  · cases n with
    | variableDeclaration kind declarations =>
      have hdeclarators : ∀ d ∈ declarations, WellFormed .declarator d ∨ WellFormed .bareDeclarator d := by
        intro d hd
        have hd := (h.places (d, Slot.loopTarget.ofDeclarator kind) (by simp [Node.places, hd])).1
        unfold Slot.ofDeclarator at hd
        split at hd
        · exact .inr hd
        · exact .inl hd
      have htarget : loopTarget (.mk (.variableDeclaration kind declarations)) c =
          mark kind.word :: blank :: declarators declarations c := by
        rw [loopTarget, asOperand, if_neg (by simp [level, node, Node.level, Node.isBareIn, Level.primary, Level.call])]
        rfl
      refine ⟨?_, ?_⟩
      · have hhead := (h.contained.head c).balanced
        rwa [htarget]
      · have hword : isSeparator kind.word = true := by cases kind <;> rfl
        rw [htarget, hasIn_mark hword]
        exact hasIn_declarators hdeclarators
    | _ => first
      | exact absurd (.inl rfl) hn
      | exact absurd (.inr rfl) hn
      | cases hallows
      | exact absurd (by simpa [Slot.allows] using hallows) hn

/-- What stands in front of the separator of a loop has its brackets in pairs, and an `in` outside of them just where the value of a
variable has one. -/
theorem loop_target_bare (σ : Slot) (left right body : Tree) (c : PrintContext) :
    (WellFormed σ (.mk (.forInStatement left right body)) →
      ∃ rest, pieces (.mk (.forInStatement left right body)) c =
          [mark "for", blank, mark "("] ++ loopTarget left c ++ [blank, mark "in", blank] ++ rest ∧
        Balanced (tokens (loopTarget left c)) ∧
        ("in" ∈ bare (tokens (loopTarget left c)) ↔ ∃ e ∈ declaredValues left, "in" ∈ bare (tokens (declaredPieces e c)))) ∧
    ∀ isAwait : Bool, WellFormed σ (.mk (.forOfStatement left right body isAwait)) →
      ∃ rest, pieces (.mk (.forOfStatement left right body isAwait)) c =
          [mark "for", blank] ++ optionally isAwait [mark "await", blank] ++ [mark "("] ++ loopTarget left c ++
            [blank, mark "of", blank] ++ rest ∧
        Balanced (tokens (loopTarget left c)) ∧
        ("in" ∈ bare (tokens (loopTarget left c)) ↔ ∃ e ∈ declaredValues left, "in" ∈ bare (tokens (declaredPieces e c))) := by
  refine ⟨fun h => ?_, fun isAwait h => ?_⟩
  · have hleft : WellFormed .loopTarget left := (h.places (left, .loopTarget) List.mem_cons_self).1
    refine ⟨asOperand right (pieces right) Level.sequence c ++ [mark ")", blank] ++ asStatement body (pieces body) c, ?_,
      hasIn_loopTarget hleft⟩
    rw [pieces_forInStatement]
    simp only [List.append_assoc]
  · have hleft : WellFormed .loopTarget left := (h.places (left, .loopTarget) List.mem_cons_self).1
    refine ⟨asOperand right (pieces right) Level.assign c ++ [mark ")", blank] ++ asStatement body (pieces body) c, ?_,
      hasIn_loopTarget hleft⟩
    rw [pieces_forOfStatement]
    simp only [List.append_assoc]

/-- A loop over names whose variable begins as the outcome of a comparison by `in`. -/
def membershipTarget : Tree :=
  .mk (.variableDeclaration .var [.mk (.variableDeclarator (.mk (.identifier "x"))
    (some (.mk (.binaryExpression "in" (.mk (.identifier "a")) (.mk (.identifier "b"))))))])

theorem membershipTarget_bare :
    WellFormed .statement (.mk (.forInStatement membershipTarget (.mk (.identifier "c")) (.mk .emptyStatement))) ∧
    ("in" ∈ bare (tokens (loopTarget membershipTarget {})) ↔
      ∃ e ∈ declaredValues membershipTarget, "in" ∈ bare (tokens (declaredPieces e {}))) := by
  have h : WellFormed .statement (.mk (.forInStatement membershipTarget (.mk (.identifier "c")) (.mk .emptyStatement))) := by
    simp [membershipTarget, WellFormed.iff_mk, Slot.allows, Slot.ofDeclarator, Node.places, Node.placed, Node.isVerbatim, Node.Spelled,
      Node.words, Node.chained, Node.isStatement, Node.isExpression, Node.isPattern, Node.isBareIn, isBracket, opening?, closing?]
  obtain ⟨rest, -, -, hin⟩ := (loop_target_bare .statement _ _ _ {}).1 h
  exact ⟨h, hin⟩

/-- The parentheses that the source has around the value are lost, and the loop that is printed goes over other names. -/
theorem membership_target_lost : ∃ left right body, Source.readProgram "for (var x = (a in b) in c) d" =
      .ok (.mk (.program [.mk (.forInStatement left right body)])) ∧
    "in" ∈ bare (tokens (loopTarget left {})) ∧
    (Tree.mk (.program [.mk (.forInStatement left right body)])).print = "for (var x = a in b in c) d;" ∧
    ∃ left', Source.readProgram "for (var x = a in b in c) d;" = .ok (.mk (.program [.mk (.forInStatement left'
      (.mk (.binaryExpression "in" (.mk (.identifier "b")) right)) body)])) ∧
      declaredValues left' = [.mk (.identifier "a")] :=
  ⟨membershipTarget, .mk (.identifier "c"), .mk (.expressionStatement (.mk (.identifier "d"))), rfl, by decide +kernel,
    by decide +kernel, .mk (.variableDeclaration .var [.mk (.variableDeclarator (.mk (.identifier "x")) (some (.mk (.identifier "a"))))]),
    rfl, rfl⟩

end Tree
end Graft
