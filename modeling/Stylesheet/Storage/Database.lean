import Stylesheet.Compile
import Stylesheet.Storage.Disk

/-!
# The database of source files

A source file is known by a handle, and what is known of it can be changed through the handle. The
database also has a register in which a URL leads to the handle that was last entered under it.
-/

namespace Stylesheet

/-- What is known of a source file. -/
structure Source where
  url : Option Url
  text : String
deriving DecidableEq

/-- A handle of a source file. -/
structure SourceFile where
  number : Nat
deriving DecidableEq, Repr

structure Database where
  /-- The source files, each at the number of its handle. -/
  sources : Array Source := #[]
  register : Bindings SourceFile := {}

namespace Database

/-! ## Source files -/

def source? (db : Database) (file : SourceFile) : Option Source := db.sources[file.number]?

/-- A new source file. -/
def create (db : Database) (url : Option Url) (text : String) : SourceFile × Database :=
  (⟨db.sources.size⟩, { db with sources := db.sources.push ⟨url, text⟩ })

def setText (db : Database) (file : SourceFile) (text : String) : Database :=
  { db with sources := db.sources.modify file.number ({ · with text := text }) }

def setUrl (db : Database) (file : SourceFile) (url : Option Url) : Database :=
  { db with sources := db.sources.modify file.number ({ · with url := url }) }

/-! ## The register -/

/-- A new source file, registered under its URL in the place of an earlier one. -/
def openDocument (db : Database) (url : Url) (text : String) : SourceFile × Database :=
  let (file, db) := db.create (some url) text
  (file, { db with register := db.register.insert url.text file })

def closeDocument (db : Database) (url : Url) : Database :=
  { db with register := db.register.erase url.text }

/-- The source file that is registered under a URL. -/
def sourceFile? (db : Database) (url : Url) : Option SourceFile := db.register.get? url.text

/-- The text of a file that has to be UTF-8. -/
def readText (disk : Disk) (path : List UInt8) : Except IoError String := do
  match Text.Utf8.decode? (← disk.read path) with
  | some text => return text
  | none => throw .malformedText

/-- The canonical path of a path, and its URL. -/
def identify (disk : Disk) (path : List UInt8) : Except CompileError (List UInt8 × Url) := do
  let canonical ← (disk.canonicalize path).mapError .io
  let url ← (Url.ofPath canonical).mapError fun fault =>
    .location (.invalidUrl (Url.pathText canonical) fault)
  return (canonical, url)

/-- The source file of a path. It is read from disk unless its URL is registered already. -/
def input (db : Database) (disk : Disk) (path : List UInt8) :
    Except CompileError (SourceFile × Database) := do
  let (canonical, url) ← identify disk path
  match db.sourceFile? url with
  | some file => return (file, db)
  | none =>
    let text ← (readText disk canonical).mapError .io
    return db.openDocument url text

/-! ## Compiling -/

variable {σ : Type}

/-- Compiles what is known of a source file. -/
def compileSource (db : Database) (options : CompileOptions σ) (file : SourceFile) (host : σ) :
    Except CompileError String × σ :=
  let source := (db.source? file).getD ⟨none, ""⟩
  compile options source.url source.text host

/-- Compiles the source file of a path. -/
def compilePath (db : Database) (options : CompileOptions σ) (disk : Disk) (path : List UInt8)
    (host : σ) : (Except CompileError String × σ) × Database :=
  match db.input disk path with
  | .error error => ((.error error, host), db)
  | .ok (file, db) => (db.compileSource options file host, db)

end Database

end Stylesheet
