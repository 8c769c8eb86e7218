import Graft.Print.Writer
import Graft.Proofs.Syntax.Children
/-!
# What a writer leaves behind

`Writes` says of a printing that it appends pieces, those of the depth and the flag it starts with, and that it leaves both as
they were. It composes along `++`, so what is written is never looked at again: each node is written as its parts are, and
`Tree.write_eq` holds of every tree and every state of the writer.
-/

namespace Graft

/-- Appends the printed form, and changes nothing else. -/
def Writes (f : Writing) (printed : Tree.Printed) : Prop :=
  ∀ w : Writer, f w = { w with out := w.out ++ printed ⟨w.depth, w.noIn⟩ }

open Writing
open Piece (blank leaf line mark)

namespace Writes
variable {f g : Writing} {F G : Tree.Printed} {t : Tree} {least : Nat}

theorem of_eq (h : Writes f F) (he : ∀ c, F c = G c) : Writes f G := fun w => by rw [h, he]

theorem nothing : Writes nothing fun _ => [] := fun w => by simp [Writing.nothing]

theorem put {ps : Pieces} : Writes (put ps) fun _ => ps := fun _ => rfl

theorem newline : Writes newline fun c => [line c.depth] := fun _ => rfl

theorem append (hf : Writes f F) (hg : Writes g G) : Writes (f ++ g) fun c => F c ++ G c := fun w => by
  show g (f w) = _
  rw [hf, hg, List.append_assoc]

theorem indented (h : Writes f F) : Writes (indented f) fun c => F c.deeper := fun w => by
  show dedent (f (indent w)) = _
  rw [h]
  rfl

theorem flagged (b : Bool) (h : Writes f F) : Writes (flagged b f) fun c => F { c with noIn := b } := fun w => by
  rw [Writing.flagged, h]

theorem ite {p : Prop} [Decidable p] (hf : Writes f F) (hg : Writes g G) :
    Writes (if p then f else g) fun c => if p then F c else G c := by
  split
  next => exact hf
  next => exact hg

theorem elim {o : Option Tree} {f : Tree → Writing} {F : Tree → Tree.Printed} (h : ∀ t ∈ o, Writes (f t) (F t)) :
    Writes (o.elim Writing.nothing f) fun c => o.elim [] fun t => F t c := by
  cases o with
  | none => exact .nothing
  | some t => exact h t rfl

/-! ## Places -/

section Places
variable (h : Writes f F)
include h

theorem parenthesized : Writes (parenthesized f) (Tree.parenthesized F) :=
  .flagged false (.append (.append .put h) .put)

theorem operand : Writes (operand t f least) (Tree.asOperand t F least) := fun w => by
  unfold Writing.operand Tree.asOperand
  split
  next => exact h.parenthesized w
  next => exact h w

theorem statement : Writes (statement t f) (Tree.asStatement t F) := by
  obtain ⟨n⟩ := t
  cases n <;> first | exact h | exact h.operand.append .put

theorem chainObject : Writes (chainObject t f) (Tree.asChainObject t F) := by
  unfold Writing.chainObject Tree.asChainObject
  split
  next => exact h.parenthesized
  next => exact h.operand

theorem memberObject : Writes (memberObject t f) (Tree.asMemberObject t F) := by
  unfold Writing.memberObject Tree.asMemberObject
  split
  next => exact h.parenthesized
  next => exact h.chainObject

theorem newCallee : Writes (newCallee t f) (Tree.asNewCallee t F) := by
  unfold Writing.newCallee Tree.asNewCallee
  split
  next => exact h.parenthesized
  next => exact h

theorem forced {force : Bool} : Writes (forced force t f least) (Tree.asForced force t F least) := by
  unfold Writing.forced Tree.asForced
  split
  next => exact h.parenthesized
  next => exact h.operand

theorem key {computed : Bool} : Writes (key computed t f) (Tree.asKey computed t F) := by
  unfold Writing.key Tree.asKey
  split
  next => exact .append (.append .put h.operand) .put
  next => exact h.operand

end Places

theorem loopHead (hf : Writes f F) (hg : Writes g G) : Writes (loopHead t f g) (Tree.asHead t F G) := by
  obtain ⟨n⟩ := t
  cases n <;> first | exact hf | exact hg

theorem declaration (hf : Writes f F) (hg : Writes g G) : Writes (declaration t f g) (Tree.asDeclarator t F G) := by
  obtain ⟨n⟩ := t
  cases n <;> first | exact hf | exact hg.operand

theorem member (hf : Writes f F) (hg : Writes g G) : Writes (member t f g) (Tree.asMember t F G) := by
  obtain ⟨n⟩ := t
  have hs : Writes (Writing.statement (.mk n) g) (Tree.asStatement (.mk n) G) := hg.statement
  cases n <;> first | exact hf | exact hs

theorem binary {operator : String} {l r : Tree} (hf : Writes f F) (hg : Writes g G) :
    Writes (binary operator l f r g) (Tree.binaryPieces operator l F r G) := by
  unfold Writing.binary Tree.binaryPieces
  exact .ite (.append (.append hf.forced .put) hg.operand) (.append (.append hf.forced .put) hg.forced)

end Writes

namespace Tree
variable {t : Tree} {ts : List Tree}

def WritesOperand (t : Tree) (least : Nat) : Prop := Writes (operand t (write t) least) (asOperand t (pieces t) least)

def WritesStatement (t : Tree) : Prop := Writes (statement t (write t)) (asStatement t (pieces t))

/-! ## Lists -/

theorem writes_listed (h : ∀ t ∈ ts, Writes (write t) (pieces t)) : Writes (writeListed ts) (listed ts) := by
  induction ts with
  | nil => exact .nothing
  | cons t ts ih =>
    have ht : WritesOperand t Level.assign := (h t List.mem_cons_self).operand
    have hts := ih fun u hu => h u (List.mem_cons_of_mem _ hu)
    cases ts with
    | nil => exact ht
    | cons u us => exact .append (.append ht .put) hts

theorem writes_slots {elements : List (Option Tree)} (h : ∀ t ∈ elements.filterMap id, Writes (write t) (pieces t)) :
    Writes (writeSlots elements) (slots elements) := by
  induction elements with
  | nil => exact .nothing
  | cons e elements ih =>
    have hes := ih fun u hu => h u (by cases e <;> simp_all)
    cases e with
    | none =>
      cases elements with
      | nil => exact .nothing
      | cons d ds => exact .of_eq (.append .put hes) fun _ => rfl
    | some t =>
      have ht : WritesOperand t Level.assign := (h t (by simp)).operand
      cases elements with
      | nil => exact ht
      | cons d ds => exact .append (.append ht .put) hes

theorem writes_programLines (h : ∀ t ∈ ts, Writes (write t) (pieces t)) : Writes (writeProgram ts) (programLines ts) := by
  induction ts with
  | nil => exact .nothing
  | cons t ts ih =>
    have ht : WritesStatement t := (h t List.mem_cons_self).statement
    have hts := ih fun u hu => h u (List.mem_cons_of_mem _ hu)
    cases ts with
    | nil => exact ht
    | cons u us =>
      refine .of_eq (.append (.append ht .put) hts) fun c => ?_
      rw [List.append_assoc]
      rfl

theorem writes_lines (h : ∀ t ∈ ts, Writes (write t) (pieces t)) : Writes (writeLines ts) (lines ts) := by
  induction ts with
  | nil => exact .nothing
  | cons t ts ih =>
    have ht : WritesStatement t := (h t List.mem_cons_self).statement
    exact .of_eq (.append (.append .newline ht) (ih fun u hu => h u (List.mem_cons_of_mem _ hu))) fun _ => rfl

theorem writes_block (h : ∀ t ∈ ts, Writes (write t) (pieces t)) : Writes (writeBlock ts) (block ts) := by
  cases ts with
  | nil => exact .put
  | cons t ts =>
    have ht : WritesStatement t := (h t List.mem_cons_self).statement
    have hts := writes_lines fun u hu => h u (List.mem_cons_of_mem _ hu)
    have hlines := (Writes.newline.append ht).append hts
    refine .of_eq (.flagged false (.append (.append (.append .put hlines.indented) .newline) .put)) fun c => ?_
    rw [block]
    simp [PrintContext.deeper, PrintContext.withIn]

theorem writes_furtherMembers (h : ∀ t ∈ ts, Writes (write t) (pieces t)) : Writes (writeFurther ts) (furtherMembers ts) := by
  induction ts with
  | nil => exact .nothing
  | cons t ts ih =>
    have ht : WritesOperand t Level.assign := (h t List.mem_cons_self).operand
    exact .append (.append .put ht) (ih fun u hu => h u (List.mem_cons_of_mem _ hu))

theorem writes_braced (h : ∀ t ∈ ts, Writes (write t) (pieces t)) : Writes (writeBraced ts) (braced ts) := by
  cases ts with
  | nil => exact .put
  | cons t ts =>
    have ht : WritesOperand t Level.assign := (h t List.mem_cons_self).operand
    exact .append (.append (.append .put ht) (writes_furtherMembers fun u hu => h u (List.mem_cons_of_mem _ hu))) .put

theorem writes_switchCases (h : ∀ t ∈ ts, Writes (writeCase t) (switchCase t)) : Writes (writeCases ts) (switchCases ts) := by
  induction ts with
  | nil => exact .nothing
  | cons t ts ih => exact .append (h t List.mem_cons_self) (ih fun u hu => h u (List.mem_cons_of_mem _ hu))

theorem writes_declarators
    (h : ∀ t ∈ ts, Writes (declaration t (writeDeclarator t) (write t)) (asDeclarator t (declarator t) (pieces t))) :
    Writes (writeDeclarators ts) (declarators ts) := by
  induction ts with
  | nil => exact .nothing
  | cons t ts ih =>
    have ht := h t List.mem_cons_self
    have hts := ih fun u hu => h u (List.mem_cons_of_mem _ hu)
    cases ts with
    | nil => exact ht
    | cons u us => exact .append (.append ht .put) hts

theorem writes_memberLines (h : ∀ t ∈ ts, Writes (member t (writeMember t) (write t)) (asMember t (classMember t) (pieces t))) :
    Writes (writeMembers ts) (memberLines ts) := by
  induction ts with
  | nil => exact .nothing
  | cons t ts ih =>
    exact .of_eq (.append (.append .newline (h t List.mem_cons_self)) (ih fun u hu => h u (List.mem_cons_of_mem _ hu)))
      fun _ => rfl

/-! ## Functions and classes -/

theorem writes_function {f : Func Tree} (h : ∀ t ∈ f.id.toList ++ f.params ++ [f.body], Writes (write t) (pieces t)) :
    Writes (writeFunction f) (function f) := by
  obtain ⟨id, params, body, isAsync, generator⟩ := f
  have hparams : Writes (writeListed params) (listed params) := writes_listed fun t ht => h t (by simp [ht])
  have hbody : WritesStatement body := (h body (by simp)).statement
  cases id with
  | none =>
    refine .of_eq (.append (.append (.append (.append (.append (.append (.append (.append .put .put) .put) .put) .nothing) .put)
      hparams) .put) hbody) fun c => ?_
    show _ = optionally isAsync _ ++ _ :: optionally generator _ ++ [_] ++ [] ++ _ :: listed params c ++ [_, _] ++
      asStatement body (pieces body) c
    simp
  | some i =>
    have hi : WritesOperand i Level.primary := (h i (by simp)).operand
    refine .of_eq (.append (.append (.append (.append (.append (.append (.append (.append .put .put) .put) .put) hi) .put)
      hparams) .put) hbody) fun c => ?_
    show _ = optionally isAsync _ ++ _ :: optionally generator _ ++ [_] ++ asOperand i (pieces i) _ c ++ _ :: listed params c ++
      [_, _] ++ asStatement body (pieces body) c
    simp

section Functions
variable {f : Func Tree} (h : ∀ t ∈ f.params ++ [f.body], Writes (write t) (pieces t))
include h

theorem writes_signature : Writes (writeSignature f) (signature f) := by
  obtain ⟨id, params, body, isAsync, generator⟩ := f
  have hparams : Writes (writeListed params) (listed params) := writes_listed fun t ht => h t (by simp [ht])
  have hbody : WritesStatement body := (h body (by simp)).statement
  exact .of_eq (.append (.append (.append .put hparams) .put) hbody) fun _ => rfl

theorem writes_arrow : Writes (writeArrow f) (arrow f) := by
  obtain ⟨id, params, body, isAsync, generator⟩ := f
  have hparams : Writes (writeListed params) (listed params) := writes_listed fun t ht => h t (by simp [ht])
  have hb : Writes (write body) (pieces body) := h body (by simp)
  have hbody : Writes (if body.node.isBlock then statement body (write body)
      else if startsWithBrace body then put [mark "("] ++ operand body (write body) Level.assign ++ put [mark ")"]
      else operand body (write body) Level.assign)
      (fun c => if body.node.isBlock then asStatement body (pieces body) c
        else if startsWithBrace body then [mark "("] ++ asOperand body (pieces body) Level.assign c ++ [mark ")"]
        else asOperand body (pieces body) Level.assign c) :=
    .ite hb.statement (.ite (.append (.append .put hb.operand) .put) hb.operand)
  refine .of_eq (.append (.append (.append (.append .put .put) hparams) .put) hbody) fun c => ?_
  show _ = optionally isAsync _ ++ _ :: listed params c ++ [_, _, _, _] ++ _
  simp only [List.append_assoc, List.cons_append, List.nil_append]

end Functions

theorem writes_class {k : ClassParts Tree} (hid : ∀ t ∈ k.id, Writes (write t) (pieces t))
    (hsuper : ∀ t ∈ k.superClass, Writes (write t) (pieces t)) (hbody : Writes (writeClassBody k.body) (classBody k.body)) :
    Writes (writeClass k) (classPieces k) := by
  obtain ⟨id, superClass, body⟩ := k
  have hname : Writes (id.elim nothing fun t => put [blank] ++ operand t (write t) Level.primary)
      fun c => id.elim [] fun t => [blank] ++ asOperand t (pieces t) Level.primary c :=
    .elim fun t ht => .append .put (hid t ht).operand
  have hextends : Writes
      (superClass.elim nothing fun t => put [blank, mark "extends", blank] ++ operand t (write t) Level.call)
      fun c => superClass.elim [] fun t => [blank, mark "extends", blank] ++ asOperand t (pieces t) Level.call c :=
    .elim fun t ht => .append .put (hsuper t ht).operand
  cases id <;> cases superClass <;>
    refine .of_eq (.append (.append (.append (.append .put hname) hextends) .put) hbody) fun c => ?_ <;>
    rw [List.append_assoc] <;> rfl

/-! ## Nodes -/

/-- All ways in which a tree is written, by itself and by its owner. -/
structure Written (t : Tree) : Prop where
  node : Writes (write t) (pieces t)
  head : Writes (writeHead t) (head t)
  declarator : Writes (writeDeclarator t) (declarator t)
  signature : Writes (writeSignatureAndBody t) (signatureAndBody t)
  handler : Writes (writeCatch t) (catchClause t)
  switchCase : Writes (writeCase t) (switchCase t)
  classBody : Writes (writeClassBody t) (classBody t)
  classMember : Writes (writeMember t) (classMember t)

section Nodes
variable {n : Node Tree} {u : Tree} (kids : ∀ u ∈ n.children, Written u)
include kids

theorem writes_operand {least : Nat} (h : u ∈ n.children) : WritesOperand u least :=
  (kids u h).node.operand

theorem writes_body (h : u ∈ n.children) : WritesStatement u := (kids u h).node.statement

theorem writes_loopHead {least : Nat} (h : u ∈ n.children) :
    Writes (operand u (loopHead u (writeHead u) (write u)) least) (asOperand u (asHead u (head u) (pieces u)) least) :=
  (Writes.loopHead (kids u h).head (kids u h).node).operand

theorem writes_func {f : Func Tree} (hf : n.func? = some f) :
    ∀ t ∈ f.id.toList ++ f.params ++ [f.body], Writes (write t) (pieces t) :=
  fun t ht => (kids t (by rwa [Node.children_of_func hf])).node

theorem writes_writeHead : Writes (writeHead (.mk n)) (head (.mk n)) := by
  cases n with
  | variableDeclaration kind declarations =>
    have hd (d : Tree) (h : d ∈ declarations) :
        Writes (declaration d (writeDeclarator d) (write d)) (asDeclarator d (declarator d) (pieces d)) :=
      have hkid := kids d (by simpa [Node.children, Node.fields] using h)
      .declaration hkid.declarator hkid.node
    exact .of_eq (.append .put (writes_declarators hd)) fun _ => rfl
  | _ => exact .nothing

theorem writes_writeDeclarator : Writes (writeDeclarator (.mk n)) (declarator (.mk n)) := by
  cases n with
  | variableDeclarator id init =>
    have hid : WritesOperand id Level.assign := writes_operand kids (by simp [Node.children, Node.fields])
    cases init with
    | none => exact .append hid .nothing
    | some e => exact .append hid (.append .put (writes_operand kids (by simp [Node.children, Node.fields])))
  | _ => exact .nothing

theorem writes_writeSignatureAndBody : Writes (writeSignatureAndBody (.mk n)) (signatureAndBody (.mk n)) := by
  cases n with
  | functionDeclaration f | functionExpression f | arrowFunctionExpression f =>
    exact writes_signature fun t ht => writes_func kids rfl t (by grind)
  | _ => exact .nothing

theorem writes_writeCatch : Writes (writeCatch (.mk n)) (catchClause (.mk n)) := by
  cases n with
  | catchClause param body =>
    have hbody : WritesStatement body := writes_body kids (by simp [Node.children, Node.fields])
    cases param with
    | none => exact .append (.append .put .nothing) hbody
    | some p =>
      have hp : WritesOperand p Level.assign := writes_operand kids (by simp [Node.children, Node.fields])
      exact .append (.append .put (.append (.append .put hp) .put)) hbody
  | _ => exact .nothing

theorem writes_writeCase : Writes (writeCase (.mk n)) (switchCase (.mk n)) := by
  cases n with
  | switchCase test consequent =>
    have hlines : Writes (writeLines consequent) (lines consequent) :=
      writes_lines fun t ht => (kids t (by simp [Node.children, Node.fields, ht])).node
    cases test with
    | none => exact .of_eq (.append (.append .newline .put) hlines.indented) fun _ => rfl
    | some t =>
      have ht : WritesOperand t Level.sequence := writes_operand kids (by simp [Node.children, Node.fields])
      exact .of_eq (.append (.append .newline (.append (.append .put ht) .put)) hlines.indented) fun _ => rfl
  | _ => exact .nothing

theorem writes_writeClassBody : Writes (writeClassBody (.mk n)) (classBody (.mk n)) := by
  cases n with
  | classBody members =>
    have hmembers : Writes (writeMembers members) (memberLines members) :=
      writes_memberLines fun m hm =>
        have hkid := kids m (by simpa [Node.children, Node.fields] using hm)
        .member hkid.classMember hkid.node
    refine .of_eq (.ite .put (.append (.append (.append .put hmembers.indented) .newline) .put)) fun c => ?_
    show _ = if members.isEmpty then [_, _] else _ :: memberLines members c.deeper ++ [_, _]
    simp
  | _ => exact .put

theorem writes_writeMember : Writes (writeMember (.mk n)) (classMember (.mk n)) := by
  cases n with
  | methodDefinition k value kind computed isStatic =>
    have hk : Writes (key computed k (write k)) (asKey computed k (pieces k)) :=
      (kids k (by simp [Node.children, Node.fields])).node.key
    have hvalue := kids value (by simp [Node.children, Node.fields])
    show Writes (put _ ++ (_ : Writing)) fun c => optionally isStatic [_, _] ++ (_ : Pieces)
    refine .append .put ?_
    cases value.node.func? with
    | none => exact .append (.append hk .put) hvalue.node.operand
    | some f =>
      refine .append (.append ?_ hk) hvalue.signature
      cases kind <;> exact .put
  | propertyDefinition k value computed isStatic =>
    have hk : Writes (key computed k (write k)) (asKey computed k (pieces k)) :=
      (kids k (by simp [Node.children, Node.fields])).node.key
    cases value with
    | none => exact .append (.append (.append .put hk) .nothing) .put
    | some e =>
      have he : WritesOperand e Level.assign := writes_operand kids (by simp [Node.children, Node.fields])
      exact .append (.append (.append .put hk) (.append .put he)) .put
  | _ => exact .nothing

theorem writes_property {k value : Tree} {kind : PropertyKind} {computed shorthand method : Bool}
    (hn : n = .property k value kind computed shorthand method) :
    Writes (write (.mk (.property k value kind computed shorthand method)))
      (pieces (.mk (.property k value kind computed shorthand method))) := by
  subst hn
  have hk : Writes (key computed k (write k)) (asKey computed k (pieces k)) := (kids k (by simp)).node.key
  have hvalue := kids value (by simp)
  have hoperand : WritesOperand value Level.assign := hvalue.node.operand
  show Writes (if shorthand && shorthandIntact k value then _ else if kind ≠ .init || method then (_ : Writing) else _)
    fun c => if shorthand && shorthandIntact k value then _ else if kind ≠ .init || method then (_ : Pieces) else _
  refine .ite hoperand (.ite ?_ (.append (.append hk .put) hoperand))
  cases value.node.func? with
  | none => exact .append (.append hk .put) hoperand
  | some f =>
    refine .append (.append ?_ hk) hvalue.signature
    cases kind <;> exact .put

theorem writes_classParts {k : ClassParts Tree} (hn : n.children = (Node.classDeclaration k).children) :
    Writes (writeClass k) (classPieces k) := by
  have hk (t : Tree) (h : t ∈ k.id.toList ++ k.superClass.toList ++ [k.body]) : Written t := by
    refine kids t ?_
    rw [hn]
    simpa [Node.children, Node.fields, ClassParts.fields] using h
  exact writes_class (fun t ht => (hk t (by simp [Option.mem_def.1 ht])).node)
    (fun t ht => (hk t (by simp [Option.mem_def.1 ht])).node) (hk k.body (by simp)).classBody

theorem writes_ifStatement {test consequent : Tree} {alternate : Option Tree} (hn : n = .ifStatement test consequent alternate) :
    Writes (write (.mk (.ifStatement test consequent alternate))) (pieces (.mk (.ifStatement test consequent alternate))) := by
  subst hn
  have htest : WritesOperand test Level.sequence := writes_operand kids (by simp [Node.children, Node.fields])
  have hs : WritesStatement consequent := writes_body kids (by simp [Node.children, Node.fields])
  have hblock : Writes (flagged false (put [mark "\x7b"] ++ indented (newline ++ statement consequent (write consequent)) ++
      newline ++ put [mark "\x7d"]))
      fun c => [mark "\x7b", line (c.depth + 1)] ++ asStatement consequent (pieces consequent) c.deeper.withIn ++
        [line c.depth, mark "\x7d"] := by
    have hline := Writes.newline.append hs
    refine .of_eq (.flagged false (.append (.append (.append .put hline.indented) .newline) .put)) fun c => ?_
    simp [PrintContext.deeper, PrintContext.withIn]
  have halternate : Writes (alternate.elim nothing fun s => put [blank, mark "else", blank] ++ statement s (write s))
      fun c => alternate.elim [] fun s => [blank, mark "else", blank] ++ asStatement s (pieces s) c :=
    .elim fun s hs => .append .put (writes_body kids (by simp [Node.children, Node.fields, Option.mem_def.1 hs]))
  cases alternate <;> exact .append (.append (.append (.append .put htest) .put) (.ite hblock hs)) halternate

theorem writes_forStatement {init test update : Option Tree} {body : Tree} (hn : n = .forStatement init test update body) :
    Writes (write (.mk (.forStatement init test update body))) (pieces (.mk (.forStatement init test update body))) := by
  subst hn
  have hinit : Writes (init.elim nothing fun t => loopInit t (writeHead t) (write t))
      fun c => init.elim [] fun t => asOperand t (asHead t (head t) (pieces t)) Level.sequence c.withoutIn :=
    .elim fun t ht => .flagged true (writes_loopHead kids (by simp [Node.children, Node.fields, Option.mem_def.1 ht]))
  have hlater (e : Option Tree) (h : ∀ t ∈ e, t ∈ (Node.forStatement init test update body).children) :
      Writes (e.elim nothing fun t => put [blank] ++ operand t (write t) Level.sequence)
        fun c => e.elim [] fun t => [blank] ++ asOperand t (pieces t) Level.sequence c :=
    .elim fun t ht => .append .put (writes_operand kids (h t ht))
  have htest := hlater test fun t ht => by simp [Node.children, Node.fields, Option.mem_def.1 ht]
  have hupdate := hlater update fun t ht => by simp [Node.children, Node.fields, Option.mem_def.1 ht]
  have hbody : WritesStatement body := writes_body kids (by simp [Node.children, Node.fields])
  cases init <;> cases test <;> cases update <;>
    exact .of_eq (.append (.append (.append (.append (.append (.append (.append .put hinit) .put) htest) .put) hupdate) .put)
      hbody) fun _ => rfl

theorem writes_statement (h : n.isStatement = true) : Writes (write (.mk n)) (pieces (.mk n)) := by
  cases n with
  | expressionStatement e =>
    have he : WritesOperand e Level.sequence := writes_operand kids (by simp [Node.children, Node.fields])
    exact .append (.ite (.append (.append .put he) .put) he) .put
  | blockStatement body => exact writes_block fun t ht => (kids t (by simpa [Node.children, Node.fields] using ht)).node
  | emptyStatement => exact .put
  | returnStatement argument =>
    cases argument with
    | none => exact .append (.append .put .nothing) .put
    | some e =>
      have he : WritesOperand e Level.sequence := writes_operand kids (by simp [Node.children, Node.fields])
      exact .of_eq (.append (.append .put (.append .put he)) .put) fun _ => rfl
  | throwStatement e =>
    have he : WritesOperand e Level.sequence := writes_operand kids (by simp [Node.children, Node.fields])
    exact .of_eq (.append (.append .put he) .put) fun _ => rfl
  | ifStatement => exact writes_ifStatement kids rfl
  | forStatement => exact writes_forStatement kids rfl
  | forInStatement left right body =>
    have hleft : Writes (operand left (loopHead left (writeHead left) (write left)) Level.call)
        (asOperand left (asHead left (head left) (pieces left)) Level.call) :=
      writes_loopHead kids (by simp [Node.children, Node.fields])
    have hright : WritesOperand right Level.sequence := writes_operand kids (by simp [Node.children, Node.fields])
    have hbody : WritesStatement body := writes_body kids (by simp [Node.children, Node.fields])
    exact .append (.append (.append (.append (.append .put hleft) .put) hright) .put) hbody
  | forOfStatement left right body isAwait =>
    have hleft : Writes (operand left (loopHead left (writeHead left) (write left)) Level.call)
        (asOperand left (asHead left (head left) (pieces left)) Level.call) :=
      writes_loopHead kids (by simp [Node.children, Node.fields])
    have hright : WritesOperand right Level.assign := writes_operand kids (by simp [Node.children, Node.fields])
    have hbody : WritesStatement body := writes_body kids (by simp [Node.children, Node.fields])
    exact .append (.append (.append (.append (.append (.append (.append .put .put) .put) hleft) .put) hright) .put) hbody
  | whileStatement test body =>
    have htest : WritesOperand test Level.sequence := writes_operand kids (by simp [Node.children, Node.fields])
    have hbody : WritesStatement body := writes_body kids (by simp [Node.children, Node.fields])
    exact .append (.append (.append .put htest) .put) hbody
  | doWhileStatement body test =>
    have htest : WritesOperand test Level.sequence := writes_operand kids (by simp [Node.children, Node.fields])
    have hbody : WritesStatement body := writes_body kids (by simp [Node.children, Node.fields])
    exact .append (.append (.append (.append .put hbody) .put) htest) .put
  | breakStatement label | continueStatement label =>
    cases label with
    | none => exact .append (.append .put .nothing) .put
    | some l =>
      have hl : WritesOperand l Level.primary := writes_operand kids (by simp [Node.children, Node.fields])
      exact .of_eq (.append (.append .put (.append .put hl)) .put) fun _ => rfl
  | tryStatement block handler finalizer =>
    have hblock : WritesStatement block := writes_body kids (by simp [Node.children, Node.fields])
    have hhandler : Writes (handler.elim nothing writeCatch) fun c => handler.elim [] fun h => catchClause h c :=
      .elim fun h hh => (kids h (by simp [Node.children, Node.fields, Option.mem_def.1 hh])).handler
    have hfinalizer : Writes (finalizer.elim nothing fun f => put [blank, mark "finally", blank] ++ statement f (write f))
        fun c => finalizer.elim [] fun f => [blank, mark "finally", blank] ++ asStatement f (pieces f) c :=
      .elim fun f hf => .append .put (writes_body kids (by simp [Node.children, Node.fields, Option.mem_def.1 hf]))
    cases handler <;> cases finalizer <;> exact .append (.append (.append .put hblock) hhandler) hfinalizer
  | switchStatement discriminant cases =>
    have hd : WritesOperand discriminant Level.sequence := writes_operand kids (by simp [Node.children, Node.fields])
    have hcases : Writes (writeCases cases) (switchCases cases) :=
      writes_switchCases fun s hs => (kids s (by simp [Node.children, Node.fields, hs])).switchCase
    refine .of_eq (.append (.append (.append (.append (.append .put hd) .put) hcases.indented) .newline) .put) fun c => ?_
    rw [List.append_assoc]
    rfl
  | labeledStatement label body =>
    have hl : WritesOperand label Level.primary := writes_operand kids (by simp [Node.children, Node.fields])
    have hbody : WritesStatement body := writes_body kids (by simp [Node.children, Node.fields])
    exact .append (.append hl .put) hbody
  | variableDeclaration kind declarations => exact .append (writes_writeHead kids) .put
  | functionDeclaration f => exact writes_function (writes_func kids rfl)
  | classDeclaration k => exact writes_classParts kids rfl
  | _ => cases h

theorem writes_expression (h : n.isStatement = false) : Writes (write (.mk n)) (pieces (.mk n)) := by
  cases n with
  | program body => exact writes_programLines fun t ht => (kids t (by simpa [Node.children, Node.fields] using ht)).node
  | identifier | privateIdentifier | literal | thisExpression | super | verbatim => exact .put
  | arrayExpression elements | arrayPattern elements =>
    have hs : Writes (writeSlots elements) (slots elements) :=
      writes_slots fun t ht => (kids t (by simpa [Node.children, Node.fields] using ht)).node
    exact .of_eq (.append (.append (.append .put hs) .put) .put) fun _ => rfl
  | objectExpression properties | objectPattern properties =>
    exact writes_braced fun t ht => (kids t (by simpa [Node.children, Node.fields] using ht)).node
  | property => exact writes_property kids rfl
  | functionExpression f => exact writes_function (writes_func kids rfl)
  | arrowFunctionExpression f => exact writes_arrow fun t ht => writes_func kids rfl t (by grind)
  | classExpression k => exact writes_classParts kids rfl
  | spreadElement e | restElement e =>
    have he : WritesOperand e Level.assign := writes_operand kids (by simp [Node.children, Node.fields])
    exact .of_eq (.append .put he) fun _ => rfl
  | unaryExpression operator e =>
    have he : WritesOperand e Level.unary := writes_operand kids (by simp [Node.children, Node.fields])
    exact .of_eq (.append (.append .put .put) he) fun _ => rfl
  | updateExpression operator isBefore e =>
    have he (least : Nat) : WritesOperand e least := writes_operand kids (by simp [Node.children, Node.fields])
    cases isBefore with
    | true => exact .of_eq (.append .put (he _)) fun _ => rfl
    | false => exact .append (he _) .put
  | binaryExpression operator l r | logicalExpression operator l r =>
    exact .binary (kids l (by simp [Node.children, Node.fields])).node (kids r (by simp [Node.children, Node.fields])).node
  | assignmentExpression operator l r | assignmentPattern l r =>
    have hl : WritesOperand l Level.call := writes_operand kids (by simp [Node.children, Node.fields])
    have hr : WritesOperand r Level.assign := writes_operand kids (by simp [Node.children, Node.fields])
    exact .append (.append hl .put) hr
  | conditionalExpression test yes no =>
    have ht : WritesOperand test Level.nullish := writes_operand kids (by simp [Node.children, Node.fields])
    have hy : WritesOperand yes Level.assign := writes_operand kids (by simp [Node.children, Node.fields])
    have hno : WritesOperand no Level.assign := writes_operand kids (by simp [Node.children, Node.fields])
    exact .append (.append (.append (.append ht .put) hy) .put) hno
  | callExpression callee arguments optional =>
    have hc : Writes (chainObject callee (write callee)) (asChainObject callee (pieces callee)) :=
      (kids callee (by simp [Node.children, Node.fields])).node.chainObject
    have ha : Writes (writeListed arguments) (listed arguments) :=
      writes_listed fun t ht => (kids t (by simp [Node.children, Node.fields, ht])).node
    exact .append (.append (.append (.append hc .put) .put) ha) .put
  | newExpression callee arguments =>
    have hc : Writes (newCallee callee (write callee)) (asNewCallee callee (pieces callee)) :=
      (kids callee (by simp [Node.children, Node.fields])).node.newCallee
    have ha : Writes (writeListed arguments) (listed arguments) :=
      writes_listed fun t ht => (kids t (by simp [Node.children, Node.fields, ht])).node
    exact .append (.append (.append (.append .put hc) .put) ha) .put
  | memberExpression object member computed optional =>
    have ho : Writes (memberObject object (write object)) (asMemberObject object (pieces object)) :=
      (kids object (by simp [Node.children, Node.fields])).node.memberObject
    have hm : Written member := kids member (by simp [Node.children, Node.fields])
    have hindex : WritesOperand member Level.sequence :=
      hm.node.operand
    cases computed with
    | true =>
      refine .of_eq (.append ho (.append (.append (.append .put .put) hindex) .put)) fun c => ?_
      show _ = asMemberObject object (pieces object) c ++
        (optionally optional [_] ++ _ :: asOperand member (pieces member) _ c ++ [_])
      simp
    | false => exact .of_eq (.append ho (.append .put hm.node)) fun _ => rfl
  | chainExpression e => exact (kids e (by simp [Node.children, Node.fields])).node
  | sequenceExpression es => exact writes_listed fun t ht => (kids t (by simpa [Node.children, Node.fields] using ht)).node
  | awaitExpression e =>
    have he : WritesOperand e Level.unary := writes_operand kids (by simp [Node.children, Node.fields])
    exact .append .put he
  | _ => first | exact .nothing | exact Bool.noConfusion h

end Nodes

theorem written (t : Tree) : Written t := by
  induction t using induct with
  | mk n ih =>
    refine ⟨?_, writes_writeHead ih, writes_writeDeclarator ih, writes_writeSignatureAndBody ih, writes_writeCatch ih,
      writes_writeCase ih, writes_writeClassBody ih, writes_writeMember ih⟩
    cases h : n.isStatement with
    | true => exact writes_statement ih h
    | false => exact writes_expression ih h

/-- A tree is written as it prints, and the writer has the depth and the flag that it had. -/
theorem write_eq (t : Tree) (w : Writer) : write t w = { w with out := w.out ++ pieces t ⟨w.depth, w.noIn⟩ } :=
  (written t).node w

/-- A writer prints what the printer does. -/
theorem print_eq_write (t : Tree) : t.print = Piece.join (write t {}).out := by
  rw [write_eq]
  rfl

end Tree
end Graft
