import Graft.Source.Declaration
/-!
# Imports and exports

They are only checked: a statement keeps them as its source text, the semicolon included if it is written.
-/

namespace Graft.Source

open Read

variable (read : Readers) (fuel : Nat)

/-! ## Modules -/

def stringToken : Read Unit := do
  match ← peek with
  | .string _ => advance
  | _ => failure

/-- The name of an exported binding. -/
def moduleName : Read Unit := do
  match ← peek with
  | .string _ => advance
  | .word w =>
    guardThat (!(isReserved w) || w = "default")
    advance
  | _ => failure
  markupAhead

/-- The name that an import binds. -/
def importedName : Read Unit := do
  let _ ← bindingName
  markupAhead

/-- The word `as`, if it stands here. -/
def renames : Read Bool := do
  let found ← word? "as"
  if found then markupAhead
  return found

/-- One exported name, perhaps with a new name. -/
def exportSpecifier : Read Unit := do
  moduleName
  if ← renames then moduleName

/-- One imported name. The name it gets here is a binding. -/
def importSpecifier : Read Unit := do
  match ← peek with
  | .word "default" | .string _ =>
    moduleName
    guardThat (← renames)
    importedName
  | _ =>
    importedName
    if ← renames then importedName

/-- Specifiers up to the closing brace, which is taken. A comma may come last or stand alone. -/
def specifiers (one : Read Unit) : Read Unit := do
  if ← punct? "," then punct "\x7d"
  else go fuel
where
  /-- The rest of the specifiers. -/
  go : Nat → Read Unit
    | 0 => failure
    | n + 1 => do
      if ← punct? "\x7d" then return ()
      else
        one
        if ← punct? "," then go n else punct "\x7d"

def fromClause : Read Unit := do
  word "from"
  markupAhead
  stringToken

def attributes : Read Unit := do
  if ← word? "with" then
    let r ← object read fuel .element .inner
    guardThat r.expression.isSome

def namespaceImport : Read Unit := do
  punct "*"
  guardThat (← renames)
  importedName

def namedImports : Read Unit := do
  punct "\x7b"
  specifiers fuel importSpecifier
  markupAhead

def importDeclaration : Read Unit := do
  word "import"
  match ← peek with
  | .string _ => advance
  | .punct "*" => namespaceImport; fromClause
  | .punct "\x7b" => namedImports fuel; fromClause
  | _ =>
    importedName
    if ← punct? "," then
      if ← isPunct "\x7b" then namedImports fuel else namespaceImport
    fromClause
  if !(← mayEndHere true) then attributes read fuel
  semicolon true

/-- A declaration that may be exported. `bare` says that no value could stand here. -/
def exportable (bare : Bool) : Read Unit := do
  match ← namedDeclaration? read fuel bare with
  | some _ => return ()
  | none =>
    match ← peek with
    | .word w =>
      if w = "var" || w = "let" || w = "const" then
        guardThat (bare || w ≠ "let" || (← letDeclares))
        let _ ← declaration read fuel w
      else
        guardThat (← usingDeclares)
        usingDeclaration read fuel
    | .punct "@" =>
      let _ ← decorators read fuel
      let _ ← classDeclaration read fuel bare
    | _ => failure

/-- A declaration or a default value, the word `export` having been taken. -/
def exported : Read Unit := do
  if ← word? "default" then
    let asDeclaration : Read Unit := exportable read fuel false
    let asValue : Read Unit := do
      guardThat !(← isWord "using")
      let _ ← expressionTree read .statement
      semicolon false
    asDeclaration <|> asValue
  else exportable read fuel true

def exportDeclaration : Read Unit := do
  word "export"
  if ← punct? "*" then
    if ← renames then moduleName
    fromClause
    semicolon true
  else if ← punct? "\x7b" then
    specifiers fuel exportSpecifier
    if !(← mayEndHere true) && (← isWord "from") then fromClause
    semicolon true
  else exported read fuel

end Graft.Source
