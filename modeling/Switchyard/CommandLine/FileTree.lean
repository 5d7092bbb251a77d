import Switchyard.Text

/-!
# Files and directories

A tree of directories, with texts and the null device in it, and the directory in which relative
paths start. A path is walked step by step, and whatever a step starts from has to be a directory.
What can be neither read nor written is told in the words of the system.
-/

namespace Switchyard

/-- Why a path cannot be read or written. -/
inductive FileFault where
  | noSuchFile
  | notADirectory
  | isADirectory
  | nameTooLong
  deriving DecidableEq

/-- The words of the system. -/
def FileFault.message : FileFault → String
  | noSuchFile => "No such file or directory (os error 2)"
  | notADirectory => "Not a directory (os error 20)"
  | isADirectory => "Is a directory (os error 21)"
  | nameTooLong => "File name too long (os error 36)"

/-- A place in a tree: the names on the way to it, its own first. The root has none. -/
abbrev Place := List String

/-- What stands at a place. The null device is always empty and takes whatever is written to it. -/
inductive FileEntry where
  | directory
  | text (content : String)
  | null
  deriving DecidableEq

/-- What stands where, and the directory in which relative paths start. -/
structure FileTree where
  entries : List (Place × FileEntry)
  here : Place
  deriving DecidableEq

namespace FileTree

/-- The directories that stand at the root. -/
def topDirectories : List String :=
  ["bin", "dev", "etc", "home", "lib", "proc", "root", "sys", "tmp", "usr", "var"]

/-- A tree with the given texts in the directory in which relative paths start. The standard input
is as empty as the null device. -/
def ofTexts (texts : List (String × String)) : FileTree :=
  let here := ["work", "tmp"]
  { entries := (texts.map fun (name, content) => (name :: here, .text content)) ++
      [(here, .directory), (["null", "dev"], .null), (["stdin", "dev"], .null)] ++
      topDirectories.map fun name => ([name], .directory)
    here }

/-- What stands at a place. At the root there is always a directory. -/
def entry? (t : FileTree) : Place → Option FileEntry
  | [] => some .directory
  | place => t.entries.lookup place

/-- The most bytes of a name. -/
def maxNameBytes : Nat := 255

/-- The most bytes of a path. -/
def maxPathBytes : Nat := 4095

/-- The place that one step from a directory leads to. The root is above itself, and the empty step
stays where it is. -/
def step (place : Place) (name : String) : Except FileFault Place :=
  if name = "" ∨ name = "." then .ok place
  else if name = ".." then .ok place.tail
  else if maxNameBytes < name.utf8ByteSize then .error .nameTooLong
  else .ok (name :: place)

/-- Takes steps from a place. The place that they lead to may be empty, those before it may not. -/
def walk (t : FileTree) (place : Place) : List String → Except FileFault Place
  | [] => .ok place
  | name :: rest =>
    match t.entry? place with
    | none => .error .noSuchFile
    | some .directory => (step place name).bind fun next => t.walk next rest
    | some _ => .error .notADirectory

/-- The steps of a path: what stands between its slashes. -/
def steps (path : String) : List String := (Text.cut (· == '/') path.toList).map String.ofList

/-- Takes steps of a path from where the path starts. -/
def follow (t : FileTree) (path : String) (steps : List String) : Except FileFault Place :=
  if path.isEmpty then .error .noSuchFile
  else if maxPathBytes < path.utf8ByteSize then .error .nameTooLong
  else t.walk (if path.toList.head? = some '/' then [] else t.here) steps

/-- The text that a path leads to. -/
def read (t : FileTree) (path : String) : Except FileFault String := do
  match t.entry? (← t.follow path (steps path)) with
  | none => throw .noSuchFile
  | some .directory => throw .isADirectory
  | some (.text content) => return content
  | some .null => return ""

/-- The place that a path leads to for writing. Its directory has to be there, and a path that ends
in a slash can only be a directory. -/
def target (t : FileTree) (path : String) : Except FileFault Place := do
  let names := (steps path).filter (!·.isEmpty)
  let parent ← t.follow path (names.dropLast ++ ["."])
  if path.toList.getLast? = some '/' then throw .isADirectory
  step parent (names.getLastD ".")

/-- Puts a text where a path leads, in the place of another one if there is one. -/
def write (t : FileTree) (path text : String) : Except FileFault FileTree := do
  let place ← t.target path
  match t.entry? place with
  | some .directory => throw .isADirectory
  | some .null => return t
  | _ => return { t with entries := (place, .text text) :: t.entries.filter (·.1 != place) }

end FileTree

end Switchyard
