import HybridObjects.Files.Path

/-!
# HybridObjects.Files.Tree

A file system as a value: text files and directories below a root. Relative paths start at the
working directory.

* `FileTree.read`            — the content of a file.
* `FileTree.write`           — a file is created or replaced; its directory must exist.
* `FileTree.makeDirectories` — the directory of a file and all directories above it are created.
* `FileTree.listing`         — the files below the working directory.
* `FileTree.changes`         — the files that are new or have a new content.

Each operation says what a Unix file system would say when it fails.
-/

namespace HybridObjects

/-- Why a file operation fails. -/
inductive FileFault where
  | notFound
  | exists
  | notADirectory
  | isADirectory
  | nameTooLong
  | nullInName
  | permissionDenied
deriving DecidableEq

def FileFault.message : FileFault → String
  | .notFound => "No such file or directory (os error 2)"
  | .exists => "File exists (os error 17)"
  | .notADirectory => "Not a directory (os error 20)"
  | .isADirectory => "Is a directory (os error 21)"
  | .nameTooLong => "File name too long (os error 36)"
  | .nullInName => "file name contained an unexpected NUL byte"
  | .permissionDenied => "Permission denied (os error 13)"

/-- A place in the tree: the names on the way from the root. -/
abbrev Location := List String

structure FileTree where
  /-- The working directory. -/
  home : Location
  files : List (Location × String)
  directories : List Location

namespace FileTree

/-- The tree with nothing but an empty working directory and the directories above it. -/
def emptyAt (home : Location) : FileTree :=
  ⟨home, [], (List.range (home.length + 1)).map home.take⟩

/-- The tree with nothing but an empty working directory. -/
def empty : FileTree :=
  emptyAt ["tmp", "work"]

def isFile (t : FileTree) (loc : Location) : Bool :=
  t.files.any fun file => file.1 == loc

def isDirectory (t : FileTree) (loc : Location) : Bool :=
  t.directories.contains loc

/-- The longest name a directory can hold, in bytes. -/
def maxName : Nat := 255

/-- The longest path, in bytes. -/
def maxPath : Nat := 4095

/-- Where the names lead from a directory; all but the last must be directories. -/
def locateFrom (t : FileTree) (dir : Location) : List String → Except FileFault Location
  | [] => .ok dir
  | name :: names =>
    if !t.isDirectory dir then
      .error (if t.isFile dir then .notADirectory else .notFound)
    else if name == ".." then t.locateFrom dir.dropLast names
    else if maxName < name.utf8ByteSize then .error .nameTooLong
    else t.locateFrom (dir ++ [name]) names

/-- Where the names of a path start. -/
def start (t : FileTree) (p : Path) : Location :=
  if Path.isAbsolute p then [] else t.home

/-- What is wrong with the text of a path, wherever it leads. -/
def textFault? (p : Path) : Option FileFault :=
  if p.toList.contains (Char.ofNat 0) then some .nullInName
  else if maxPath < p.utf8ByteSize then some .nameTooLong
  else none

/-- Where a path leads. -/
def locate (t : FileTree) (p : Path) : Except FileFault Location :=
  match textFault? p with
  | some fault => .error fault
  | none => if p.isEmpty then .error .notFound else t.locateFrom (t.start p) (Path.names p)

/-- The content of a file. -/
def read (t : FileTree) (p : Path) : Except FileFault String := do
  let loc ← t.locate p
  if t.isDirectory loc then .error .isADirectory
  else
    match t.files.lookup loc with
    | none => .error .notFound
    | some content => if Path.wantsDirectory p then .error .notADirectory else .ok content

/-- The files with the content at one location replaced, or a new file at the end. -/
def putFile (loc : Location) (content : String) :
    List (Location × String) → List (Location × String)
  | [] => [(loc, content)]
  | file :: files =>
    if file.1 == loc then (loc, content) :: files else file :: putFile loc content files

/-- The tree in which a file has the given content. -/
def write (t : FileTree) (p : Path) (content : String) : Except FileFault FileTree := do
  let loc ← t.locate p
  if t.isDirectory loc || Path.wantsDirectory p then .error .isADirectory
  else .ok { t with files := putFile loc content t.files }

/-- The tree with a new directory where the names lead. -/
def makeDirectory (t : FileTree) (dir : Location) (names : List String) :
    Except FileFault FileTree := do
  let loc ← t.locateFrom dir names
  if t.isFile loc || t.isDirectory loc then .error .exists
  else .ok { t with directories := t.directories ++ [loc] }

/-- Whether the names lead to a directory. -/
def hasDirectory (t : FileTree) (dir : Location) (names : List String) : Bool :=
  match t.locateFrom dir names with
  | .ok loc => t.isDirectory loc
  | .error _ => false

/-- A change of a tree. One that fails keeps what it has changed up to there. -/
abbrev Change := EStateM FileFault FileTree Unit

/-- Creates the directory where the names lead, unless there is one. -/
def ensureDirectory (dir : Location) (names : List String) : Change := fun t =>
  match t.makeDirectory dir names with
  | .ok t => .ok () t
  | .error fault => if t.hasDirectory dir names then .ok () t else .error fault t

/-- Creates the directory where the names lead, given last name first. The directories above it are
created only if one of them turns out to be missing. -/
def ensureDirectories (dir : Location) : List String → Change
  | [] => pure ()
  | name :: above => fun t =>
    let names := (name :: above).reverse
    match t.makeDirectory dir names with
    | .error .notFound => (ensureDirectories dir above >>= fun _ => ensureDirectory dir names) t
    | _ => ensureDirectory dir names t

/-- Creates the directory of a file, and the directories above it, unless they exist. -/
def makeDirectories (p : Path) : Change := fun t =>
  match textFault? (Path.parent p) with
  | some fault => .error fault t
  | none => ensureDirectories (t.start p) (Path.names p).dropLast.reverse t

/-- The files below a location, under their paths from there. -/
def below (t : FileTree) (loc : Location) : List (Path × String) :=
  t.files.filterMap fun file =>
    if loc.isPrefixOf file.1 && loc != file.1 then
      some ("/".intercalate (file.1.drop loc.length), file.2)
    else none

/-- The files below the working directory. -/
def listing (t : FileTree) : List (Path × String) :=
  t.below t.home

/-- The tree with further files. A file that cannot be written is left out. -/
def addFiles (t : FileTree) (files : List (Path × String)) : FileTree :=
  files.foldl
    (fun t file =>
      match makeDirectories file.1 t with
      | .ok _ t => (t.write file.1 file.2).toOption.getD t
      | .error _ t => t)
    t

/-- The tree with just the given files in the working directory. -/
def ofFiles (files : List (Path × String)) : FileTree :=
  empty.addFiles files

/-- The files of the tree that another one does not have with the same content, under absolute
paths. -/
def changes (t before : FileTree) : List (Path × String) :=
  t.files.filterMap fun file =>
    if before.files.lookup file.1 == some file.2 then none
    else some ("/" ++ "/".intercalate file.1, file.2)

end FileTree
end HybridObjects
