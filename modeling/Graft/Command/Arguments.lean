import Graft.Command.Option
/-!
# Reading the command line

Arguments are read from left to right, and the first that is wrong, or that asks for help or the version, decides.
A value follows its option as the next argument, after an equals sign, or directly after a short option. Short
options without values may be written together.
-/

namespace Graft.Command

/-- What the program is asked to do. -/
inductive Task where
  | apply (bundle mods : String) (version out : Option String) (diff : Bool)
  | list (mods : String) (version : Option String)
  | check (bundle mods : String) (version : Option String)
  deriving DecidableEq, Inhabited

inductive UsageError where
  | noCommand
  | unknownCommand (word : String)
  | unexpected (argument : String)
  | valueMissing (option : Name)
  | valueUnwanted (option value : String)
  | repeated (option : Name)
  | missing (options : List Name)
  deriving DecidableEq, Inhabited

/-- What the arguments ask for. -/
inductive Request where
  | task (t : Task)
  /-- A text for the standard output. -/
  | text (text : String)
  | usageError (command : Option Kind) (cause : UsageError)
  deriving DecidableEq, Inhabited

namespace UsageError

def message : UsageError → String
  | .noCommand => "a subcommand is required"
  | .unknownCommand word => "unrecognized subcommand '" ++ word ++ "'"
  | .unexpected argument => "unexpected argument '" ++ argument ++ "' found"
  | .valueMissing option => "a value is required for '" ++ option.label ++ "' but none was supplied"
  | .valueUnwanted option value =>
    "unexpected value '" ++ value ++ "' for '" ++ option ++ "' found; no more were expected"
  | .repeated option => "the argument '" ++ option.label ++ "' cannot be used multiple times"
  | .missing options =>
    "the following required arguments were not provided:" ++ String.join (options.map fun n => "\n  " ++ n.label)

/-- The whole text for the standard error. -/
def text (command : Option Kind) (e : UsageError) : String :=
  match e with
  | .noCommand => help
  | e => "error: " ++ e.message ++ "\n\n" ++ command.elim usage Kind.usage ++ "\n\nFor more information, try '--help'.\n"

end UsageError

/-! ## Options of a command -/

/-- The options that were given, with their values; a flag has the empty value. -/
abbrev Given := List (Name × String)

/-- A text before the first equals sign, and the text after it. -/
def splitEquals (cs : List Char) : List Char × Option (List Char) :=
  match cs.dropWhile (· ≠ '=') with
  | _ :: value => (cs.takeWhile (· ≠ '='), some value)
  | [] => (cs, none)

/-- Notes an option. -/
def Given.add (given : Given) (n : Name) (value : String) : Except UsageError Given :=
  if (given.lookup n).isSome then .error (.repeated n)
  else if n.takesValue && value.isEmpty && !n.allowsEmpty then .error (.valueMissing n)
  else .ok (given ++ [(n, value)])

/-- How reading goes on: with options, one of which may still wait for its value, or with help. -/
inductive Progress where
  | given (g : Given)
  | waiting (g : Given) (n : Name)
  | help

/-- Reads a long option, after its hyphens. -/
def longOption (k : Kind) (g : Given) (cs : List Char) : Except UsageError Progress :=
  let (word, value) := splitEquals cs
  match k.options.find? fun n => n.long.toList = word with
  | none => .error (.unexpected ("--" ++ String.ofList word))
  | some n =>
    match n.takesValue, value with
    | true, some v => (g.add n (String.ofList v)).map .given
    | true, none => .ok (.waiting g n)
    | false, some v => .error (.valueUnwanted n.label (String.ofList v))
    | false, none => if n = .help then .ok .help else (g.add n "").map .given

/-- Reads short options, after their hyphen. -/
def shortOptions (k : Kind) (g : Given) : List Char → Except UsageError Progress
  | [] => .ok (.given g)
  | c :: rest =>
    match k.options.find? fun n => n.short? = some c with
    | none => .error (.unexpected ("-" ++ String.singleton c))
    | some n =>
      if n.takesValue then
        match rest with
        | [] => .ok (.waiting g n)
        | '=' :: value => (g.add n (String.ofList value)).map .given
        | value => (g.add n (String.ofList value)).map .given
      else if n = .help then .ok .help
      else do shortOptions k (← g.add n "") rest

/-- Reads an argument that no option waits for. -/
def argument (k : Kind) (g : Given) (arg : String) : Except UsageError Progress :=
  match arg.toList with
  | '-' :: '-' :: cs => longOption k g cs
  | '-' :: c :: cs => shortOptions k g (c :: cs)
  | _ => .error (.unexpected arg)

/-- Is an argument a value, as it stands? -/
def isValue (arg : String) : Bool :=
  match arg.toList with
  | '-' :: _ :: _ => false
  | _ => true

/-- Reads the arguments of a command. `none` is a request for help. -/
def readOptions (k : Kind) : Progress → List String → Except UsageError (Option Given)
  | .help, _ => .ok none
  | .waiting _ n, [] => .error (.valueMissing n)
  | .given g, [] => .ok (some g)
  | .waiting g n, arg :: rest =>
    if isValue arg then
      match g.add n arg with
      | .ok g => readOptions k (.given g) rest
      | .error e => .error e
    else .error (.valueMissing n)
  | .given g, arg :: rest =>
    if arg = "--" then
      match rest with
      | [] => .ok (some g)
      | extra :: _ => .error (.unexpected extra)
    else
      match argument k g arg with
      | .ok p => readOptions k p rest
      | .error e => .error e

/-! ## Requests -/

/-- The task that a command with its options sets. -/
def Kind.task? (k : Kind) (g : Given) : Option Task :=
  match k with
  | .apply => do
    return .apply (← g.lookup .bundle) (← g.lookup .mods) (g.lookup .version) (g.lookup .out) (g.lookup .diff).isSome
  | .list => do return .list (← g.lookup .mods) (g.lookup .version)
  | .check => do return .check (← g.lookup .bundle) (← g.lookup .mods) (g.lookup .version)

def Kind.request (k : Kind) (args : List String) : Request :=
  match readOptions k (.given []) args with
  | .error e => .usageError (some k) e
  | .ok none => .text k.help
  | .ok (some g) =>
    match k.task? g with
    | some t => .task t
    | none => .usageError (some k) (.missing (k.required.filter fun n => (g.lookup n).isNone))

/-- The help that is asked for by words. -/
def helpRequest : List String → Request
  | [] => .text help
  | word :: rest =>
    match Kind.ofWord? word, rest with
    | some k, [] => .text k.help
    | some k, extra :: _ => .usageError (some k) (.unknownCommand extra)
    | none, _ => if word = "help" && rest.isEmpty then .text helpOnHelp else .usageError none (.unknownCommand word)

/-- Flags in front of a command. -/
def flagRequest (flag : String) : Request :=
  match flag.toList with
  | '-' :: '-' :: cs =>
    match splitEquals cs with
    | (word, value) =>
      let text? := if word = "help".toList then some help else if word = "version".toList then some versionText else none
      match text?, value with
      | some text, none => .text text
      | some _, some v => .usageError none (.valueUnwanted ("--" ++ String.ofList word) (String.ofList v))
      | none, _ => .usageError none (.unexpected ("--" ++ String.ofList word))
  | '-' :: 'h' :: _ => .text help
  | '-' :: 'V' :: _ => .text versionText
  | _ => .usageError none (.unexpected flag)

/-- What the arguments of the program ask for. -/
def request : List String → Request
  | [] => .usageError none .noCommand
  | word :: rest =>
    match Kind.ofWord? word with
    | some k => k.request rest
    | none =>
      if word = "help" then helpRequest rest
      else if isValue word then .usageError none (.unknownCommand word)
      else if word = "--" then .usageError none (rest.head?.elim .noCommand .unexpected)
      else flagRequest word

end Graft.Command
