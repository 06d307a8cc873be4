import Stylesheet.Storage.Database

/-!
# The command line

One command compiles a file: the style sheet goes to standard output, diagnostics and the error of
a compilation that fails go to standard error.
-/

namespace Stylesheet.CommandLine

/-! ## Arguments -/

inductive Flag where
  | quiet
  | context
  | verbose
deriving DecidableEq, Repr

def shortFlag? : Char → Option Flag
  | 'q' => some .quiet
  | 'v' => some .verbose
  | _ => none

def longFlag? : String → Option Flag
  | "--quiet" => some .quiet
  | "--context" => some .context
  | "--verbose" => some .verbose
  | _ => none

/-- The flags that a text stands for. Short ones may share it; a hyphen by itself has none. -/
def flagsOfText? (text : String) : Option (List Flag) :=
  match text.toList with
  | '-' :: '-' :: _ => (longFlag? text).map ([·])
  | '-' :: letter :: letters => (letter :: letters).mapM shortFlag?
  | _ => none

/-- The flags of an argument, which may be any bytes. -/
def flags? (argument : List UInt8) : Option (List Flag) :=
  (Text.Utf8.decode? argument).bind flagsOfText?

/-- A hyphen by itself is the name of a file. -/
def isFlags (argument : List UInt8) : Bool :=
  argument != Text.Utf8.encode "-" && (Text.Utf8.encode "-").isPrefixOf argument

/-- What is asked of the command. -/
structure Invocation where
  /-- The path of the file, which need not be text. -/
  file : List UInt8
  flags : List Flag
deriving DecidableEq, Repr

/-- A file has to be named, once and not by nothing. -/
def invocation? (flags : List Flag) : List (List UInt8) → Option Invocation
  | [file] => if file = [] then none else some ⟨file, flags⟩
  | _ => none

/-- Adds flags, none of which may be given twice. -/
def addFlags? (flags more : List Flag) : Option (List Flag) :=
  if (flags ++ more).Nodup then some (flags ++ more) else none

/-- Reads the arguments of the command. Two hyphens end the flags. -/
def parseCommand (flags : List Flag) (files : List (List UInt8)) :
    List (List UInt8) → Option Invocation
  | [] => invocation? flags files
  | argument :: arguments =>
    if argument = Text.Utf8.encode "--" then invocation? flags (files ++ arguments)
    else if isFlags argument then do
      parseCommand (← addFlags? flags (← flags? argument)) files arguments
    else parseCommand flags (files ++ [argument]) arguments

/-- Reads all arguments. Only the flag for more output may stand in front of the command. -/
def parse (flags : List Flag) : List (List UInt8) → Option Invocation
  | [] => none
  | argument :: arguments =>
    if argument = Text.Utf8.encode "compile" then parseCommand [] [] arguments
    else do
      let flags ← addFlags? flags (← flags? argument)
      if flags.all (· = .verbose) then parse flags arguments else none

/-! ## Running -/

/-- What a run of the command leaves behind. -/
structure Outcome where
  code : Nat
  stdout : String
  stderr : String
deriving DecidableEq, Repr

/-- Diagnostics are written to the end of standard error. -/
def standardError : DefaultChannel String := fun diagnostic =>
  modify (· ++ diagnostic.render)

def options (flags : List Flag) : CompileOptions String where
  logger := if flags.contains .quiet then .silent else {}
  fallback := standardError
  includeContext := flags.contains .context

/-- Compiles the file of an invocation. -/
def compileFile (invocation : Invocation) (disk : Disk) : Outcome :=
  match (({} : Database).compilePath (options invocation.flags) disk invocation.file "").1 with
  | (.ok css, stderr) => ⟨0, css, stderr⟩
  | (.error error, stderr) => ⟨1, "", stderr ++ s!"Error: {error.message}\n"⟩

def usage : String := "Usage: compile <FILE> [-q|--quiet] [--context] [-v|--verbose]\n"

/-- Does what arguments ask for. -/
def execute (arguments : List (List UInt8)) (disk : Disk) : Outcome :=
  match parse [] arguments with
  | none => ⟨2, "", usage⟩
  | some invocation => compileFile invocation disk

/-- Runs the command with arguments that are text. -/
def run (arguments : List String) (disk : Disk) : Outcome :=
  execute (arguments.map Text.Utf8.encode) disk

end Stylesheet.CommandLine
