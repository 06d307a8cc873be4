import Stylesheet.Storage.Disk

/-!
# Trees of files

A tree of directories and files without links. A path is walked from name to name, and whatever it
passes through has to be a directory, also for the names that lead nowhere new.
-/

namespace Stylesheet

/-- The name of an entry in its directory. -/
abbrev FileName := List UInt8

inductive FileNode where
  | file (content : List UInt8)
  | directory
deriving DecidableEq, Repr

/-- The entries below the root, by the names that lead to them. -/
structure FileTree where
  entries : List (List FileName × FileNode) := []
deriving DecidableEq, Repr

namespace FileTree

def slash : UInt8 := 0x2F

def dot : UInt8 := 0x2E

/-- The names of a path; there is an empty one wherever a slash has nothing on one side. -/
def names (path : List UInt8) : List FileName :=
  path.foldr (fun b names => match names with
    | name :: names => if b = slash then [] :: name :: names else (b :: name) :: names
    | [] => []) [[]]

/-- The path of a place. -/
def path (place : List FileName) : List UInt8 :=
  if place.isEmpty then [slash] else place.flatMap (slash :: ·)

/-- What stands at a place. -/
def node? (tree : FileTree) (place : List FileName) : Option FileNode :=
  if place.isEmpty then some .directory else tree.entries.lookup place

/-- The longest name that a directory takes. -/
def maxNameLength : Nat := 255

/-- Goes from a place to the entry with a name. -/
def step (tree : FileTree) (place : List FileName) (name : FileName) :
    Except IoError (List FileName) :=
  if tree.node? place ≠ some .directory then .error .notADirectory
  else if name = [] ∨ name = [dot] then .ok place
  else if name = [dot, dot] then .ok place.dropLast
  else if maxNameLength < name.length then .error .nameTooLong
  else if (tree.node? (place ++ [name])).isNone then .error .notFound
  else .ok (place ++ [name])

/-- The place at which a path starts. -/
def start (working : List FileName) (path : List UInt8) : List FileName :=
  if path.head? = some slash then [] else working

/-- The place that a path leads to from a working directory. -/
def resolve (tree : FileTree) (working : List FileName) (path : List UInt8) :
    Except IoError (List FileName) :=
  if path.contains 0 then .error .nulInPath
  else if path.isEmpty then .error .notFound
  else (names path).foldlM (step tree) (start working path)

/-- The content of a file. -/
def read (tree : FileTree) (path : List UInt8) : Except IoError (List UInt8) := do
  match tree.node? (← tree.resolve [] path) with
  | some (.file content) => return content
  | some .directory => throw .isADirectory
  | none => throw .notFound

/-- The tree as a disk on which relative paths start at a working directory. -/
def disk (tree : FileTree) (working : List FileName) : Disk where
  canonicalize p := path <$> tree.resolve working p
  read := tree.read

/-! ## Changes

A change that cannot be made leaves the tree as it is. -/

/-- Leaves a place empty. -/
def erase (tree : FileTree) (place : List FileName) : FileTree :=
  ⟨tree.entries.filter (·.1 != place)⟩

/-- Puts a node at a place, in the stead of what is there. -/
def put (tree : FileTree) (place : List FileName) (node : FileNode) : FileTree :=
  ⟨(place, node) :: (tree.erase place).entries⟩

/-- Follows names from a place and makes a directory for each name that is missing. The place is
lost where a name cannot be followed; what was made before it stays. -/
def makeDirectories (tree : FileTree) (place : List FileName) :
    List FileName → FileTree × Option (List FileName)
  | [] => (tree, some place)
  | name :: names =>
    match tree.step place name with
    | .ok next => tree.makeDirectories next names
    | .error .notFound =>
      (tree.put (place ++ [name]) .directory).makeDirectories (place ++ [name]) names
    | .error _ => (tree, none)

/-- Writes the file that has a name in the directory at a place. -/
def writeAt (tree : FileTree) (place : List FileName) (name : FileName) (content : List UInt8) :
    FileTree :=
  match tree.step place name with
  | .ok target =>
    if tree.node? target = some .directory then tree else tree.put target (.file content)
  | .error .notFound => tree.put (place ++ [name]) (.file content)
  | .error _ => tree

/-- The names on a path before the last one that leads on. -/
def parents (path : List UInt8) : List FileName :=
  ((names path).reverse.dropWhile (fun name => name = [] ∨ name = [dot])).tail.reverse

/-- Writes a file, and makes the directories around it. -/
def write (tree : FileTree) (working : List FileName) (path content : List UInt8) : FileTree :=
  if path.contains 0 then tree
  else match tree.makeDirectories (start working path) (parents path) with
    | (tree, some place) => tree.writeAt place ((names path).getLastD []) content
    | (tree, none) => tree

/-- Removes the file that a path leads to. A directory stays. -/
def remove (tree : FileTree) (working : List FileName) (path : List UInt8) : FileTree :=
  match tree.resolve working path with
  | .ok place => if tree.node? place = some .directory then tree else tree.erase place
  | .error _ => tree

end FileTree

end Stylesheet
