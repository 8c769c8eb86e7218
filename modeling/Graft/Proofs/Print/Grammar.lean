import Graft.Proofs.Print.Lexeme
import Graft.Print.Level
import Graft.Source.Literal
/-!
# The grammar of expressions

The expression grammar of ECMAScript with `in` allowed, on token texts: `Derives A g s ts t` says that the nonterminal `s`
derives the tokens `ts` by a derivation that stands for the tree `t`. Parentheses leave no trace in a tree; an optional
chain leaves its root.

Left out is what the trees here do not hold: `yield`, functions and classes, methods, accessors and shorthands, spreads,
holes and trailing commas, templates, regular expressions, `super`, and meta properties. An optional chain is read one
link after the other.
-/

namespace Graft.Grammar

open Lexical

/-- The parameters of a production: is `yield` an operator here, and is `await`? -/
structure Goal where
  yield : Bool
  await : Bool

inductive Symbol where
  | expression | assignment | conditional | shortCircuit | coalesce | coalesceHead | logicalOr | logicalAnd | bitOr | bitXor
  | bitAnd | equality | relational | shift | additive | multiplicative | exponentiation | unary | update | leftHandSide
  | optional | call | new | member | primary | property
  deriving DecidableEq

namespace Symbol

/-- What a nonterminal may stand for by itself. -/
def units : Symbol → List Symbol
  | expression => [assignment]
  | assignment => [conditional]
  | conditional => [shortCircuit]
  | shortCircuit => [logicalOr, coalesce]
  | coalesceHead => [coalesce, bitOr]
  | logicalOr => [logicalAnd]
  | logicalAnd => [bitOr]
  | bitOr => [bitXor]
  | bitXor => [bitAnd]
  | bitAnd => [equality]
  | equality => [relational]
  | relational => [shift]
  | shift => [additive]
  | additive => [multiplicative]
  | multiplicative => [exponentiation]
  | exponentiation => [unary]
  | unary => [update]
  | update => [leftHandSide]
  | leftHandSide => [new, call]
  | new => [member]
  | member => [primary]
  | _ => []

/-- The nonterminals that accesses and calls are appended to. -/
def isChain : Symbol → Bool
  | member | call | optional => true
  | _ => false

def accessed (s : Symbol) (opt : Bool) : Symbol := if opt then optional else s

def called (s : Symbol) (opt : Bool) : Symbol := if opt || s = optional then optional else call

/-- The nonterminal of a level. -/
def ofLevel : Nat → Symbol
  | 0 => expression
  | 1 => expression
  | 2 => assignment
  | 3 => conditional
  | 4 => shortCircuit
  | 5 => logicalOr
  | 6 => logicalAnd
  | 7 => bitOr
  | 8 => bitXor
  | 9 => bitAnd
  | 10 => equality
  | 11 => relational
  | 12 => shift
  | 13 => additive
  | 14 => multiplicative
  | 15 => exponentiation
  | 16 => unary
  | 17 => update
  | 18 => leftHandSide
  | _ => primary

end Symbol

/-- A production for an operator between two operands. -/
structure Operation where
  result : Symbol
  left : Symbol
  operators : List String
  right : Symbol

def binaries : List Operation :=
  [⟨.bitOr, .bitOr, ["|"], .bitXor⟩, ⟨.bitXor, .bitXor, ["^"], .bitAnd⟩, ⟨.bitAnd, .bitAnd, ["&"], .equality⟩,
   ⟨.equality, .equality, ["==", "!=", "===", "!=="], .relational⟩,
   ⟨.relational, .relational, ["<", ">", "<=", ">=", "instanceof", "in"], .shift⟩,
   ⟨.shift, .shift, ["<<", ">>", ">>>"], .additive⟩, ⟨.additive, .additive, ["+", "-"], .multiplicative⟩,
   ⟨.multiplicative, .multiplicative, ["*", "/", "%"], .exponentiation⟩,
   ⟨.exponentiation, .update, ["**"], .exponentiation⟩]

def logicals : List Operation :=
  [⟨.coalesce, .coalesceHead, ["??"], .bitOr⟩, ⟨.logicalOr, .logicalOr, ["||"], .logicalAnd⟩,
   ⟨.logicalAnd, .logicalAnd, ["&&"], .bitOr⟩]

def unaryOperators : List String := ["delete", "void", "typeof", "+", "-", "~", "!"]

def updateOperators : List String := ["++", "--"]

def assignmentOperators : List String :=
  ["=", "*=", "/=", "%=", "+=", "-=", "<<=", ">>=", ">>>=", "&=", "^=", "|=", "**=", "&&=", "||=", "??="]

/-! ## Leaves -/

def reservedWords : List String :=
  ["break", "case", "catch", "class", "const", "continue", "debugger", "default", "delete", "do", "else", "enum", "export",
   "extends", "false", "finally", "for", "function", "if", "import", "in", "instanceof", "new", "null", "return", "super",
   "switch", "this", "throw", "true", "try", "typeof", "var", "void", "while", "with"]

/-- A name, escapes resolved, that is no keyword under a goal. -/
def IsIdentifier (A : Alphabet) (g : Goal) (s : String) : Prop :=
  ∃ v, IsName A s.toList v ∧ String.ofList v ∉ reservedWords ∧ (g.yield = true → String.ofList v ≠ "yield") ∧
    (g.await = true → String.ofList v ≠ "await")

/-- The expressions of one token. -/
inductive Leaf (A : Alphabet) (g : Goal) : String → Tree → Prop
  | identifier {s : String} : IsIdentifier A g s → Leaf A g s (.mk (.identifier s))
  | this : Leaf A g "this" (.mk .thisExpression)
  | null : Leaf A g "null" (.mk (.literal .null "null"))
  | yes : Leaf A g "true" (.mk (.literal (.boolean true) "true"))
  | no : Leaf A g "false" (.mk (.literal (.boolean false) "false"))
  | number {s : String} {x : Double} : IsNumeral s.toList → Source.decodeNumber? s = some x →
    Leaf A g s (.mk (.literal (.number x) s))
  | string {s : String} : IsString s.toList → Leaf A g s (.mk (.literal (.string (Source.decodeString s)) s))

/-- The keys of one token. -/
inductive Key (A : Alphabet) : String → Tree → Prop
  | name {s : String} {v : List Char} : IsName A s.toList v → Key A s (.mk (.identifier s))
  | number {s : String} {x : Double} : IsNumeral s.toList → Source.decodeNumber? s = some x →
    Key A s (.mk (.literal (.number x) s))
  | string {s : String} : IsString s.toList → Key A s (.mk (.literal (.string (Source.decodeString s)) s))

/-- What can be assigned to. -/
def isTarget (t : Tree) : Bool :=
  match t.node with
  | .identifier _ => true
  | .memberExpression .. => true
  | _ => false

/-! ## Derivations -/

def commas (items : List (List String)) : List String := [","].intercalate items

def arguments (items : List (List String)) : List String := "(" :: commas items ++ [")"]

/-- An arrow between its parameters and an expression. -/
def arrowTree (isAsync : Bool) (params : List String) (body : Tree) : Tree :=
  .mk (.arrowFunctionExpression ⟨none, params.map fun p => .mk (.identifier p), body, isAsync, false⟩)

/-- The goal for the parameters of an arrow. -/
def Goal.params (g : Goal) (isAsync : Bool) : Goal := { g with await := g.await || isAsync }

inductive Derives (A : Alphabet) : Goal → Symbol → List String → Tree → Prop
  | unit {g : Goal} {s s' : Symbol} {ts : List String} {t : Tree} : s' ∈ s.units → Derives A g s' ts t → Derives A g s ts t
  | leaf {g : Goal} {s : String} {t : Tree} : Leaf A g s t → Derives A g .primary [s] t
  | parenthesis {g : Goal} {ts : List String} {t : Tree} : Derives A g .expression ts t →
    Derives A g .primary ("(" :: ts ++ [")"]) t
  | array {g : Goal} {items : List (List String × Tree)} : (∀ i ∈ items, Derives A g .assignment i.1 i.2) →
    Derives A g .primary ("[" :: commas (items.map (·.1)) ++ ["]"]) (.mk (.arrayExpression (items.map fun i => some i.2)))
  | object {g : Goal} {items : List (List String × Tree)} : (∀ i ∈ items, Derives A g .property i.1 i.2) →
    Derives A g .primary ("\x7b" :: commas (items.map (·.1)) ++ ["\x7d"]) (.mk (.objectExpression (items.map (·.2))))
  | property {g : Goal} {s : String} {ts : List String} {k t : Tree} : Key A s k → Derives A g .assignment ts t →
    Derives A g .property (s :: ":" :: ts) (.mk (.property k t .init false false false))
  | computedProperty {g : Goal} {ks ts : List String} {k t : Tree} : Derives A g .assignment ks k →
    Derives A g .assignment ts t →
    Derives A g .property ("[" :: ks ++ "]" :: ":" :: ts) (.mk (.property k t .init true false false))
  | member {g : Goal} {s : Symbol} {ts : List String} {t : Tree} (opt : Bool) {name : String} {v : List Char} :
    s.isChain = true → Derives A g s ts t → IsName A name.toList v →
    Derives A g (s.accessed opt) (ts ++ [if opt then "?." else ".", name])
      (.mk (.memberExpression t (.mk (.identifier name)) false opt))
  | index {g : Goal} {s : Symbol} {ts is : List String} {t i : Tree} (opt : Bool) :
    s.isChain = true → Derives A g s ts t → Derives A g .expression is i →
    Derives A g (s.accessed opt) (ts ++ (if opt then ["?."] else []) ++ "[" :: is ++ ["]"])
      (.mk (.memberExpression t i true opt))
  | call {g : Goal} {s : Symbol} {ts : List String} {t : Tree} (opt : Bool) {items : List (List String × Tree)} :
    s.isChain = true → Derives A g s ts t → (∀ i ∈ items, Derives A g .assignment i.1 i.2) →
    Derives A g (s.called opt) (ts ++ (if opt then ["?."] else []) ++ arguments (items.map (·.1)))
      (.mk (.callExpression t (items.map (·.2)) opt))
  | new {g : Goal} {ts : List String} {t : Tree} {items : List (List String × Tree)} :
    Derives A g .member ts t → (∀ i ∈ items, Derives A g .assignment i.1 i.2) →
    Derives A g .member ("new" :: ts ++ arguments (items.map (·.1))) (.mk (.newExpression t (items.map (·.2))))
  | bareNew {g : Goal} {ts : List String} {t : Tree} : Derives A g .new ts t →
    Derives A g .new ("new" :: ts) (.mk (.newExpression t []))
  | chain {g : Goal} {ts : List String} {t : Tree} : Derives A g .optional ts t →
    Derives A g .leftHandSide ts (.mk (.chainExpression t))
  | after {g : Goal} {op : String} {ts : List String} {t : Tree} : op ∈ updateOperators → isTarget t = true →
    Derives A g .leftHandSide ts t → Derives A g .update (ts ++ [op]) (.mk (.updateExpression op false t))
  | before {g : Goal} {op : String} {ts : List String} {t : Tree} : op ∈ updateOperators → isTarget t = true →
    Derives A g .unary ts t → Derives A g .update (op :: ts) (.mk (.updateExpression op true t))
  | unary {g : Goal} {op : String} {ts : List String} {t : Tree} : op ∈ unaryOperators → Derives A g .unary ts t →
    Derives A g .unary (op :: ts) (.mk (.unaryExpression op t))
  | await {g : Goal} {ts : List String} {t : Tree} : g.await = true → Derives A g .unary ts t →
    Derives A g .unary ("await" :: ts) (.mk (.awaitExpression t))
  | binary {g : Goal} {o : Operation} {op : String} {ls rs : List String} {l r : Tree} : o ∈ binaries → op ∈ o.operators →
    Derives A g o.left ls l → Derives A g o.right rs r →
    Derives A g o.result (ls ++ op :: rs) (.mk (.binaryExpression op l r))
  | logical {g : Goal} {o : Operation} {op : String} {ls rs : List String} {l r : Tree} : o ∈ logicals → op ∈ o.operators →
    Derives A g o.left ls l → Derives A g o.right rs r →
    Derives A g o.result (ls ++ op :: rs) (.mk (.logicalExpression op l r))
  | conditional {g : Goal} {ts ys ns : List String} {t y n : Tree} : Derives A g .shortCircuit ts t →
    Derives A g .assignment ys y → Derives A g .assignment ns n →
    Derives A g .conditional (ts ++ "?" :: ys ++ ":" :: ns) (.mk (.conditionalExpression t y n))
  | assignment {g : Goal} {op : String} {ls rs : List String} {l r : Tree} : op ∈ assignmentOperators → isTarget l = true →
    Derives A g .leftHandSide ls l → Derives A g .assignment rs r →
    Derives A g .assignment (ls ++ op :: rs) (.mk (.assignmentExpression op l r))
  | arrow {g : Goal} {isAsync : Bool} {params ts : List String} {t : Tree} :
    (∀ p ∈ params, IsIdentifier A (g.params isAsync) p) → ts.head? ≠ some "\x7b" →
    Derives A ⟨false, isAsync⟩ .assignment ts t →
    Derives A g .assignment ((if isAsync then ["async"] else []) ++ arguments (params.map fun p => [p]) ++ "=>" :: ts)
      (arrowTree isAsync params t)
  | sequence {g : Goal} {items : List (List String × Tree)} : 2 ≤ items.length →
    (∀ i ∈ items, Derives A g .assignment i.1 i.2) →
    Derives A g .expression (commas (items.map (·.1))) (.mk (.sequenceExpression (items.map (·.2))))

end Graft.Grammar
