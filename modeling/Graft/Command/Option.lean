/-!
# Commands and their options

The commands of the program, the options of each, and the help texts made from them.
-/

namespace Graft.Command

/-- The options that commands have. -/
inductive Name where
  | bundle
  | mods
  | version
  | out
  | diff
  | help
  deriving DecidableEq, Inhabited

namespace Name

def long : Name → String
  | .bundle => "bundle"
  | .mods => "mods"
  | .version => "version"
  | .out => "out"
  | .diff => "diff"
  | .help => "help"

def short? : Name → Option Char
  | .bundle => some 'b'
  | .mods => some 'm'
  | .version => none
  | .out => some 'o'
  | .diff => some 'd'
  | .help => some 'h'

/-- Does the option come with a value? -/
def takesValue : Name → Bool
  | .diff | .help => false
  | _ => true

/-- May the value be empty? A path may not. -/
def allowsEmpty : Name → Bool
  | .version => true
  | _ => false

/-- The option as it is named in messages. -/
def label (n : Name) : String :=
  "--" ++ n.long ++ if n.takesValue then " <" ++ n.long.toUpper ++ ">" else ""

end Name

inductive Kind where
  | apply
  | list
  | check
  deriving DecidableEq, Inhabited

namespace Kind

def all : List Kind := [.apply, .list, .check]

def word : Kind → String
  | .apply => "apply"
  | .list => "list"
  | .check => "check"

def ofWord? (word : String) : Option Kind := all.find? fun k => k.word = word

def about : Kind → String
  | .apply => "Apply every mod to a bundle"
  | .list => "List discovered mods and their patches"
  | .check => "Run every mod against a bundle without writing anything"

def options : Kind → List Name
  | .apply => [.bundle, .mods, .version, .out, .diff, .help]
  | .list => [.mods, .version, .help]
  | .check => [.bundle, .mods, .version, .help]

def required : Kind → List Name
  | .apply => [.bundle, .mods]
  | .list => [.mods]
  | .check => [.bundle, .mods]

/-- What an option of a command is for. -/
def aboutOption (k : Kind) : Name → String
  | .bundle => "Bundle file to patch"
  | .mods => "Directory containing one subdirectory per mod"
  | .version =>
    if k = .list then "Bundle version to check mod ranges against"
    else "Bundle version for mod gating (read from the bundle header if omitted)"
  | .out => "Output file; `-` writes to stdout. Defaults to patching in place"
  | .diff => "Show unified diff of changes"
  | .help => "Print help"

end Kind

/-! ## Help -/

def programName : String := "bundle-patcher"

def programVersion : String := "0.1.0"

def versionText : String := programName ++ " " ++ programVersion ++ "\n"

/-- Rows of two columns, the first as wide as its longest text. -/
def columns (rows : List (String × String)) : String :=
  let width := rows.foldl (fun n row => max n row.1.length) 0
  String.join (rows.map fun row =>
    "  " ++ row.1 ++ String.ofList (List.replicate (width - row.1.length + 2) ' ') ++ row.2 ++ "\n")

/-- How a command is written. -/
def Kind.usage (k : Kind) : String :=
  "Usage: " ++ programName ++ " " ++ k.word ++ " [OPTIONS]" ++ String.join (k.required.map fun n => " " ++ n.label)

def optionColumn (n : Name) : String :=
  (match n.short? with
    | some c => "-" ++ String.singleton c ++ ", "
    | none => "    ") ++ n.label

def Kind.help (k : Kind) : String :=
  k.about ++ "\n\n" ++ k.usage ++ "\n\nOptions:\n" ++ columns (k.options.map fun n => (optionColumn n, k.aboutOption n))

def usage : String := "Usage: " ++ programName ++ " <COMMAND>"

def aboutHelp : String := "Print this message or the help of the given subcommand(s)"

def help : String :=
  "Inject mods into minified JavaScript game bundles\n\n" ++ usage ++ "\n\nCommands:\n"
    ++ columns (Kind.all.map (fun k => (k.word, k.about)) ++ [("help", aboutHelp)])
    ++ "\nOptions:\n" ++ columns [("-h, --help", "Print help"), ("-V, --version", "Print version")]

/-- The help on the command that gives help. -/
def helpOnHelp : String :=
  aboutHelp ++ "\n\nUsage: " ++ programName ++ " help [COMMAND]\n\nCommands:\n"
    ++ columns (Kind.all.map (fun k => (k.word, k.about)) ++ [("help", aboutHelp)])

end Graft.Command
