import Graft.Source.Block
/-!
# Members of objects and classes

An object is read as a literal and as a pattern at once, as an array is.
-/

namespace Graft.Source

open Read

variable (read : Readers) (fuel : Nat)

/-! ## Names and modifiers -/

inductive Key where
  | named (name : String)
  | computed (t : Tree)
  | other (t : Tree)

namespace Key

def tree : Key → Tree
  | .named name => identifierTree name
  | .computed t => t
  | .other t => t

def isComputed : Key → Bool
  | .computed _ => true
  | _ => false

end Key

def numberTree (raw : String) : Tree :=
  match decodeNumber? raw with
  | some x => .mk (.literal (.number x) raw)
  | none => .mk (.verbatim raw)

def stringTree (raw : String) : Tree := .mk (.literal (.string (decodeString raw)) raw)

/-- The name of a property: any word, a string, a number, a private name or an expression in brackets. -/
def propertyName (mode : Mode) : Read Key := do
  match ← peek with
  | .word w => advance; return .named w
  | .string raw => advance; return .other (stringTree raw)
  | .number raw => advance; return .other (numberTree raw)
  | .privateName name => advance; return .other (.mk (.privateIdentifier name))
  | .punct "[" =>
    advance
    let t ← expressionTree read mode.key
    punct "]"
    return .computed t
  | _ => failure

/-- Does a token begin the name of a property? -/
def startsName : Token → Bool
  | .word _ | .string _ | .number _ | .privateName _ => true
  | .punct p => p = "["
  | _ => false

structure Modifiers where
  isStatic : Bool := false
  isAsync : Bool := false
  generator : Bool := false
  accessor : Option PropertyKind := none

/-- Takes a word if it is a modifier of the member that follows rather than its name. `mayBeField` says that a line break
could end the member here. -/
def modifier? (mayBeField : Bool) (w : String) (star : Bool) : Read Bool := do
  if ← isWord w then
    let next := State.ofText (!mayBeField) (← get).rest
    let follows := startsName next.token || (star && next.token = .punct "*")
    let taken := follows && !(mayBeField && mayEnd true next.previous)
    if taken then set next
    return taken
  else return false

/-- The text after `static`, blanks, `get`, blanks and a line break, which always begin a static getter. -/
def staticGetLine? (cs : List Char) : Option (List Char) :=
  if !"static".toList.isPrefixOf cs then none
  else
    let gap := (cs.drop 6).takeWhile isAsciiBlank
    let rest := (cs.drop 6).dropWhile isAsciiBlank
    if gap.isEmpty || !"get".toList.isPrefixOf rest then none
    else if ((rest.drop 3).takeWhile isAsciiBlank).contains '\n' then some (rest.drop 3) else none

def modifiers (inClass : Bool) : Read Modifiers := do
  let mut m : Modifiers := {}
  match staticGetLine? (← textAhead) with
  | some rest =>
    resume rest
    return { m with isStatic := true, accessor := some .get }
  | none => pure ()
  if ← modifier? inClass "static" true then m := { m with isStatic := true }
  if ← modifier? inClass "async" true then m := { m with isAsync := true }
  if ← punct? "*" then m := { m with generator := true }
  else if ← modifier? (inClass && !m.isAsync) "get" false then m := { m with accessor := some .get }
  else if ← modifier? (inClass && !m.isAsync) "set" false then m := { m with accessor := some .set }
  return m

/-- Parameters and body of a method, as a function expression. -/
def methodRest (m : Modifiers) : Read Tree := do
  let params ← parameters read fuel
  markupAhead
  let body ← block read fuel true
  return .mk (.functionExpression
    { id := none, params := params, body := body, isAsync := m.isAsync, generator := m.generator })

/-- A decorator: a name, perhaps with member names and arguments. It leaves nothing in the tree. -/
def decorator : Read Unit := do
  punct "@"
  let _ ← bindingName
  markupAhead
  let _ ← collect (do
    if ← punct? "." then
      let _ ← bindingName
      markupAhead
      return some ()
    else return none) fuel []
  if ← isPunct "(" then
    let _ ← arguments read fuel
    markupAhead

def decorators : Read Bool := do
  let ds ← collect (do
    if ← isPunct "@" then
      decorator read fuel
      return some ()
    else return none) fuel []
  return !ds.isEmpty

/-! ## Objects -/

/-- A member of an object, as a literal's and as a pattern's. -/
abbrev Member := Option Tree × Option Tree

def plainProperty (key : Key) (value : Tree) : Tree :=
  .mk (.property key.tree value .init key.isComputed false false)

def shorthandProperty (name : String) (value : Tree) : Tree :=
  .mk (.property (identifierTree name) value .init false true false)

def methodMember (m : Modifiers) (key : Key) : Read Member := do
  let value ← methodRest read fuel m
  return (some (.mk (.property key.tree value (m.accessor.getD .init) key.isComputed false m.accessor.isNone)), none)

def arrayElements (value : Item → Option Tree) (items : List (Option Item)) : Option (List (Option Tree)) :=
  items.mapM fun i => match i with
    | some i => (value i).map some
    | none => some none

/-- An object pattern with a default in place of a member, kept as source text as every pattern there is. -/
def patternMember : Read Member := do
  let start ← textAhead
  let r ← read (.unary .inner)
  match r.defaulted with
  | some (.mk (.assignmentPattern (.mk (.objectPattern _)) _)) => return (none, some (.mk (.verbatim (← sourceFrom start))))
  | _ => failure

/-- A member from behind its name on; a `plain` one has neither decorators nor modifiers. -/
def memberRest (mode : Mode) (plain : Bool) (m : Modifiers) (key : Key) : Read Member := do
  markupAhead
  match ← peek, key with
  | .punct "(", key => methodMember read fuel m key
  | .punct ":", key =>
    guardThat plain
    advance
    let i ← item read mode
    let value := if i.rest then none else i.reading.closed?
    return (value.map (plainProperty key), i.element?.map (plainProperty key))
  | .punct "=", .named name =>
    guardThat plain
    advance
    let value ← expressionTree read .inner
    return (none, some (shorthandProperty name (.mk (.assignmentPattern (identifierTree name) value))))
  | _, .named name =>
    guardThat plain
    let p := shorthandProperty name (identifierTree name)
    return (some p, some p)
  | _, _ => failure

/-- A member that begins with decorators, modifiers or its name. -/
def keyedMember (mode : Mode) : Read Member := do
  let decorated ← decorators read fuel
  let m ← modifiers false
  let key ← propertyName read mode
  memberRest read fuel mode (!decorated && !m.isStatic && !m.isAsync && !m.generator && m.accessor.isNone) m key

/-- A member that begins with a bracket: a name in brackets, or an array pattern with a default. -/
def bracketMember (mode : Mode) : Read Member := do
  let start ← textAhead
  punct "["
  let (items, trailing) ← itemsUntil read mode.key .inner "]" fuel false []
  if ← punct? "=" then
    guardThat (arrayElements Item.element? items).isSome
    let _ ← expressionTree read .inner
    return (none, some (.mk (.verbatim (← sourceFrom start))))
  else
    match items, trailing with
    | [some i], false => memberRest read fuel mode true {} (.computed (← require i.value?))
    | _, _ => failure

def objectMember (mode : Mode) : Read Member := do
  match ← peek with
  | .punct "..." =>
    advance
    let r ← read (.expression mode)
    return (r.closed?.map fun t => .mk (.spreadElement t), r.pattern.map fun t => .mk (.restElement t))
  | .punct "\x7b" => patternMember read
  | .punct "[" => bracketMember read fuel mode
  | _ => keyedMember read fuel mode

def isShorthand : Member → Bool
  | (some (.mk (.property _ _ _ _ shorthand _)), _) => shorthand
  | _ => false

/-- Members up to the closing brace, which is taken. Empty places vanish. One of them or a name alone may stand before the
first member. -/
def objectMembers (first later : Mode) : Nat → Nat → List Member → Read (List Member)
  | 0, _, _ => failure
  | n + 1, place, acc => do
    if ← punct? "\x7d" then return acc.reverse
    else if ← punct? "," then objectMembers first later n (place + 1) acc
    else
      let m ← objectMember read fuel (if place < 2 then first else later)
      if ← punct? "," then objectMembers first later n (if isShorthand m then place + 1 else 2) (m :: acc)
      else
        punct "\x7d"
        return (m :: acc).reverse

def object (first later : Mode) : Read Reading := do
  punct "\x7b"
  let ms ← objectMembers read fuel first later fuel 0 []
  return .ofBraces ((ms.mapM Prod.fst).map fun ps => .mk (.objectExpression ps))
    ((ms.mapM Prod.snd).map fun ps => .mk (.objectPattern ps))

def array (first later : Mode) : Read Reading := do
  punct "["
  let (items, _) ← itemsUntil read first later "]" fuel false []
  return .ofBraces ((arrayElements Item.argument? items).map fun es => .mk (.arrayExpression es))
    ((arrayElements Item.element? items).map fun es => .mk (.arrayPattern es))

/-! ## Classes -/

/-- A method that is the constructor: plainly named so, and neither static nor an accessor. -/
def methodKind (m : Modifiers) (key : Key) : MethodKind :=
  match m.accessor, key with
  | some .get, _ => .get
  | some .set, _ => .set
  | _, .named "constructor" => if m.isStatic then .method else .constructor
  | _, _ => .method

def classMember : Read (Option Tree) := do
  let start ← textAhead
  let next ← second
  if ← punct? ";" then return none
  else if (← isWord "static") && next.token = .punct "\x7b" && !(mayEnd true next.previous) then
    advance
    let _ ← block read fuel true
    return some (.mk (.verbatim (← sourceFrom start)))
  else
    let _ ← decorators read fuel
    let m ← modifiers true
    let key ← propertyName read .inner
    let mayBeField := !m.isAsync && !m.generator && m.accessor.isNone
    if !mayBeField then markupAhead
    let ends ← if mayBeField then mayEndHere true else pure false
    if !ends && (← isPunct "(") then
      let value ← methodRest read fuel m
      let _ ← punct? ";"
      return some (.mk (.methodDefinition key.tree value (methodKind m key) key.isComputed m.isStatic))
    else
      guardThat mayBeField
      let hasValue ← if ends then pure false else punct? "="
      let value ← if hasValue then some <$> expressionTree read .ending else pure none
      semicolon value.isNone
      return some (.mk (.propertyDefinition key.tree value key.isComputed m.isStatic))

def classBody : Read Tree := do
  punct "\x7b"
  let members ← collect (do
    if ← punct? "\x7d" then return none else some <$> classMember read fuel) fuel []
  return .mk (.classBody (members.filterMap id))

/-- A class from its keyword on. -/
def classRest (named : Bool) : Read (ClassParts Tree) := do
  word "class"
  let id ← match ← peek with
    | .word "extends" => if named then failure else pure none
    | .word _ => some <$> bindingName
    | _ => if named then failure else pure none
  markupAhead
  let parts (superClass : Option Tree) : Read (ClassParts Tree) := do
    return { id := id, superClass := superClass, body := ← classBody read fuel }
  if ← word? "extends" then
    let extended : Read (ClassParts Tree) := do parts (some (← expressionTree read .inner))
    let extendsName : Read (ClassParts Tree) := do
      word "await"
      parts (some (identifierTree "await"))
    if (← isWord "await") && (← second).token = .punct "\x7b" then extended <|> extendsName else extended
  else parts none

end Graft.Source
