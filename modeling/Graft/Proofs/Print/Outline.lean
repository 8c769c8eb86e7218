import Graft.Proofs.Print.Extent
import Graft.Proofs.Print.Grammar
/-!
# The grammar of statements

How the statements of ECMAScript stand in one another, on token texts: `Statement ts o rest` reads a statement of outline `o` from the
front of `ts` and leaves `rest`. An outline holds the tokens of the expressions and declarations in it, wherever they end
(`Graft.Lexical.upTo`, `Graft.Lexical.group`). An `else` joins the `if` whose consequent ends in front of it, so the nearest one that
is still open, and the body of a `do` ends in front of its `while`.

A semicolon is written out after every statement that has one. Left out are `with`, `debugger`, imports and exports.
-/

namespace Graft.Grammar

open Lexical

inductive Outline where
  /-- A statement that ends in a semicolon: an expression, a declaration, a jump, or nothing. -/
  | line (tokens : List String)
  | block (body : List Outline)
  | branch (test : List String) (consequent : Outline) (alternate : Option Outline)
  /-- `for`, `for await` and `while`. -/
  | loop (words head : List String) (body : Outline)
  | doLoop (body : Outline) (test : List String)
  /-- A handler has what its parentheses hold, if it has some. -/
  | attempt (block : Outline) (handler : Option (Option (List String) × Outline)) (finalizer : Option Outline)
  /-- A case without a test is the default. -/
  | choice (discriminant : List String) (cases : List (Option (List String) × List Outline))
  | labeled (label : String) (body : Outline)
  | function (words params : List String) (body : Outline)
  | classed (tokens : List String)

def Outline.isBlock : Outline → Bool
  | .block _ => true
  | _ => false

/-- What the first tokens say about a statement, and what comes after them. -/
inductive Lead where
  | block (ts : List String)
  | branch (ts : List String)
  | loop (words ts : List String)
  | doLoop (ts : List String)
  | attempt (ts : List String)
  | choice (ts : List String)
  | labeled (label : String) (ts : List String)
  | function
  | classed
  | line
  | nothing

/-- The tokens that begin no statement but go on with one or end it. -/
def continuations : List String := ["\x7d", "else", "catch", "finally", "case", "default"]

/-- A word that is no keyword. -/
def isLabel (w : String) : Bool := w.toList.head?.all (fun c => !isMark c) && w ∉ reservedWords

def lead : List String → Lead
  | [] => .nothing
  | w :: ts =>
    if w = "\x7b" then .block ts
    else if w = "if" then .branch ts
    else if w = "for" then (if ts.head? = some "await" then .loop ["for", "await"] ts.tail else .loop ["for"] ts)
    else if w = "while" then .loop ["while"] ts
    else if w = "do" then .doLoop ts
    else if w = "try" then .attempt ts
    else if w = "switch" then .choice ts
    else if w = "function" || w = "async" && ts.head? = some "function" then .function
    else if w = "class" then .classed
    else if w ∈ continuations then .nothing
    else if isLabel w && ts.head? = some ":" then .labeled w ts.tail
    else .line

/-- What the parentheses behind `catch` hold, and what is behind them. -/
def parameter (ts : List String) : Option (List String) × List String :=
  match group ts with
  | some (us, rest) => (some us, rest)
  | none => (none, ts)

/-- What a case begins with. -/
def caseTest : List String → Option (Option (List String) × List String)
  | "case" :: ts => (upTo ":" ts).map fun (us, rest) => (some us, rest)
  | "default" :: ":" :: ts => some (none, ts)
  | _ => none

mutual

inductive Statement : List String → Outline → List String → Prop
  | line {ts us rest : List String} : lead ts = .line → upTo ";" ts = some (us, rest) → Statement ts (.line us) rest
  | block {ts ts₁ rest : List String} {body : List Outline} : lead ts = .block ts₁ → Statements ts₁ body ("\x7d" :: rest) →
    Statement ts (.block body) rest
  | branch {ts ts₁ ts₂ ts₃ test rest : List String} {yes : Outline} {no : Option Outline} : lead ts = .branch ts₁ →
    group ts₁ = some (test, ts₂) → Statement ts₂ yes ts₃ → Clause "else" ts₃ no rest →
    Statement ts (.branch test yes no) rest
  | loop {ts ts₁ ts₂ words head rest : List String} {body : Outline} : lead ts = .loop words ts₁ →
    group ts₁ = some (head, ts₂) → Statement ts₂ body rest → Statement ts (.loop words head body) rest
  | doLoop {ts ts₁ ts₂ test rest : List String} {body : Outline} : lead ts = .doLoop ts₁ →
    Statement ts₁ body ("while" :: ts₂) → group ts₂ = some (test, ";" :: rest) → Statement ts (.doLoop body test) rest
  | attempt {ts ts₁ ts₂ ts₃ rest : List String} {block : Outline} {handler : Option (Option (List String) × Outline)}
    {finalizer : Option Outline} : lead ts = .attempt ts₁ → Statement ts₁ block ts₂ → block.isBlock = true →
    Handler ts₂ handler ts₃ → Clause "finally" ts₃ finalizer rest → (∀ o ∈ finalizer, o.isBlock = true) →
    (handler.isSome || finalizer.isSome) = true → Statement ts (.attempt block handler finalizer) rest
  | choice {ts ts₁ ts₂ discriminant rest : List String} {cases : List (Option (List String) × List Outline)} :
    lead ts = .choice ts₁ → group ts₁ = some (discriminant, "\x7b" :: ts₂) → Cases ts₂ cases ("\x7d" :: rest) →
    Statement ts (.choice discriminant cases) rest
  | labeled {ts ts₁ rest : List String} {label : String} {body : Outline} : lead ts = .labeled label ts₁ →
    Statement ts₁ body rest → Statement ts (.labeled label body) rest
  | function {ts ts₁ params rest : List String} {body : Outline} : lead ts = .function →
    group (ts.dropWhile (· ≠ "(")) = some (params, ts₁) → Statement ts₁ body rest → body.isBlock = true →
    Statement ts (.function (ts.takeWhile (· ≠ "(")) params body) rest
  | classed {ts us rest : List String} : lead ts = .classed → classText ts = some (us, rest) → Statement ts (.classed us) rest

/-- The statements in front of the end of a block or of the next case. -/
inductive Statements : List String → List Outline → List String → Prop
  | done {w : String} {rest : List String} : w ∈ continuations → Statements (w :: rest) [] (w :: rest)
  | next {ts ts₁ rest : List String} {o : Outline} {os : List Outline} : Statement ts o ts₁ → Statements ts₁ os rest →
    Statements ts (o :: os) rest

/-- A statement behind this word, if the word is there. -/
inductive Clause : String → List String → Option Outline → List String → Prop
  | absent {w : String} {ts : List String} : ts.head? ≠ some w → Clause w ts none ts
  | present {w : String} {ts rest : List String} {o : Outline} : Statement ts o rest → Clause w (w :: ts) (some o) rest

inductive Handler : List String → Option (Option (List String) × Outline) → List String → Prop
  | absent {ts : List String} : ts.head? ≠ some "catch" → Handler ts none ts
  | present {ts rest : List String} {o : Outline} : Statement (parameter ts).2 o rest → o.isBlock = true →
    Handler ("catch" :: ts) (some ((parameter ts).1, o)) rest

inductive Cases : List String → List (Option (List String) × List Outline) → List String → Prop
  | done {rest : List String} : Cases ("\x7d" :: rest) [] ("\x7d" :: rest)
  | next {ts ts₁ ts₂ rest : List String} {test : Option (List String)} {os : List Outline}
    {cs : List (Option (List String) × List Outline)} : caseTest ts = some (test, ts₁) → Statements ts₁ os ts₂ →
    Cases ts₂ cs rest → Cases ts ((test, os) :: cs) rest

end

theorem Statement.congr {ts ts' rest : List String} {o o' : Outline} (h : Statement ts o rest) (hts : ts' = ts) (ho : o' = o) :
    Statement ts' o' rest := by
  rwa [hts, ho]

/-! ## First tokens -/

theorem Statement.lead_ne {ts rest : List String} {o : Outline} (h : Statement ts o rest) : lead ts ≠ .nothing := by
  cases h <;> simp [*]

theorem Statement.not_continuation {w : String} {ts rest : List String} {o : Outline} (h : Statement (w :: ts) o rest) :
    w ∉ continuations := by
  intro hw
  refine h.lead_ne ?_
  simp only [continuations, List.mem_cons, List.not_mem_nil, or_false] at hw
  rcases hw with rfl | rfl | rfl | rfl | rfl | rfl <;> rfl

/-! ## One reading -/

/-- What is read from a text is what any reading gives. -/
def Determined {α : Type} (reads : List String → α → List String → Prop) (ts : List String) (o : α) (rest : List String) : Prop :=
  ∀ o' rest', reads ts o' rest' → o = o' ∧ rest = rest'

theorem Statement.determined {ts rest : List String} {o : Outline} (h : Statement ts o rest) : Determined Statement ts o rest := by
  -- On the reading, all its parts determined. The first tokens say how the other reading begins, and from there both go on alike.
  refine @Statement.rec (fun ts o rest _ => Determined Statement ts o rest) (fun ts os rest _ => Determined Statements ts os rest)
    (fun w ts o rest _ => Determined (Clause w) ts o rest) (fun ts o rest _ => Determined Handler ts o rest)
    (fun ts cs rest _ => Determined Cases ts cs rest) ?line ?block ?branch ?loop ?doLoop ?attempt ?choice ?labeled ?function ?classed
    ?endOfStatements ?nextStatement ?noClause ?clause ?noHandler ?handler ?endOfCases ?nextCase ts o rest h
  case line =>
    intro ts us rest hl hus o' rest' h'
    cases h' with
    | line _ hus' =>
      cases hus.symm.trans hus'
      exact ⟨rfl, rfl⟩
    | _ hl' => cases hl.symm.trans hl'
  case block =>
    intro ts ts₁ rest body hl _ hbody o' rest' h'
    cases h' with
    | block hl' hbody' =>
      cases hl.symm.trans hl'
      obtain ⟨rfl, hrest⟩ := hbody _ _ hbody'
      exact ⟨rfl, List.tail_eq_of_cons_eq hrest⟩
    | _ hl' => cases hl.symm.trans hl'
  case branch =>
    intro ts ts₁ ts₂ ts₃ test rest yes no hl htest _ _ hyes hno o' rest' h'
    cases h' with
    | branch hl' htest' hyes' hno' =>
      cases hl.symm.trans hl'
      cases htest.symm.trans htest'
      obtain ⟨rfl, rfl⟩ := hyes _ _ hyes'
      obtain ⟨rfl, rfl⟩ := hno _ _ hno'
      exact ⟨rfl, rfl⟩
    | _ hl' => cases hl.symm.trans hl'
  case loop =>
    intro ts ts₁ ts₂ words head rest body hl hhead _ hbody o' rest' h'
    cases h' with
    | loop hl' hhead' hbody' =>
      cases hl.symm.trans hl'
      cases hhead.symm.trans hhead'
      obtain ⟨rfl, rfl⟩ := hbody _ _ hbody'
      exact ⟨rfl, rfl⟩
    | _ hl' => cases hl.symm.trans hl'
  case doLoop =>
    intro ts ts₁ ts₂ test rest body hl _ htest hbody o' rest' h'
    cases h' with
    | doLoop hl' hbody' htest' =>
      cases hl.symm.trans hl'
      obtain ⟨rfl, hts⟩ := hbody _ _ hbody'
      cases hts
      cases htest.symm.trans htest'
      exact ⟨rfl, rfl⟩
    | _ hl' => cases hl.symm.trans hl'
  case attempt =>
    intro ts ts₁ ts₂ ts₃ rest block handler finalizer hl _ _ _ _ _ _ hblock hhandler hfinalizer o' rest' h'
    cases h' with
    | attempt hl' hblock' _ hhandler' hfinalizer' _ _ =>
      cases hl.symm.trans hl'
      obtain ⟨rfl, rfl⟩ := hblock _ _ hblock'
      obtain ⟨rfl, rfl⟩ := hhandler _ _ hhandler'
      obtain ⟨rfl, rfl⟩ := hfinalizer _ _ hfinalizer'
      exact ⟨rfl, rfl⟩
    | _ hl' => cases hl.symm.trans hl'
  case choice =>
    intro ts ts₁ ts₂ discriminant rest cs hl hdiscriminant _ hcases o' rest' h'
    cases h' with
    | choice hl' hdiscriminant' hcases' =>
      cases hl.symm.trans hl'
      cases hdiscriminant.symm.trans hdiscriminant'
      obtain ⟨rfl, hrest⟩ := hcases _ _ hcases'
      exact ⟨rfl, List.tail_eq_of_cons_eq hrest⟩
    | _ hl' => cases hl.symm.trans hl'
  case labeled =>
    intro ts ts₁ rest label body hl _ hbody o' rest' h'
    cases h' with
    | labeled hl' hbody' =>
      cases hl.symm.trans hl'
      obtain ⟨rfl, rfl⟩ := hbody _ _ hbody'
      exact ⟨rfl, rfl⟩
    | _ hl' => cases hl.symm.trans hl'
  case function =>
    intro ts ts₁ params rest body hl hparams _ _ hbody o' rest' h'
    cases h' with
    | function _ hparams' hbody' _ =>
      cases hparams.symm.trans hparams'
      obtain ⟨rfl, rfl⟩ := hbody _ _ hbody'
      exact ⟨rfl, rfl⟩
    | _ hl' => cases hl.symm.trans hl'
  case classed =>
    intro ts us rest hl hus o' rest' h'
    cases h' with
    | classed _ hus' =>
      cases hus.symm.trans hus'
      exact ⟨rfl, rfl⟩
    | _ hl' => cases hl.symm.trans hl'
  case endOfStatements =>
    intro w rest hw os' rest' h'
    cases h' with
    | done => exact ⟨rfl, rfl⟩
    | next ho' => exact absurd hw ho'.not_continuation
  case nextStatement =>
    intro ts ts₁ rest o os ho _ hdetermined hos os' rest' h'
    cases h' with
    | done hw => exact absurd hw ho.not_continuation
    | next ho' hos' =>
      obtain ⟨rfl, rfl⟩ := hdetermined _ _ ho'
      obtain ⟨rfl, rfl⟩ := hos _ _ hos'
      exact ⟨rfl, rfl⟩
  case noClause =>
    intro w ts hw o' rest' h'
    cases h' with
    | absent => exact ⟨rfl, rfl⟩
    | present => exact absurd rfl hw
  case clause =>
    intro w ts rest o _ ho o' rest' h'
    cases h' with
    | absent hw => exact absurd rfl hw
    | present ho' =>
      obtain ⟨rfl, rfl⟩ := ho _ _ ho'
      exact ⟨rfl, rfl⟩
  case noHandler =>
    intro ts hw o' rest' h'
    cases h' with
    | absent => exact ⟨rfl, rfl⟩
    | present => exact absurd rfl hw
  case handler =>
    intro ts rest o _ _ ho o' rest' h'
    cases h' with
    | absent hw => exact absurd rfl hw
    | present ho' =>
      obtain ⟨rfl, rfl⟩ := ho _ _ ho'
      exact ⟨rfl, rfl⟩
  case endOfCases =>
    intro rest cs' rest' h'
    cases h' with
    | done => exact ⟨rfl, rfl⟩
    | next htest => cases htest
  case nextCase =>
    intro ts ts₁ ts₂ rest test os cs htest _ _ hos hcs cs' rest' h'
    cases h' with
    | done => cases htest
    | next htest' hos' hcs' =>
      cases htest.symm.trans htest'
      obtain ⟨rfl, rfl⟩ := hos _ _ hos'
      obtain ⟨rfl, rfl⟩ := hcs _ _ hcs'
      exact ⟨rfl, rfl⟩

end Graft.Grammar
