import HybridObjects.Text.Lines

/-!
# HybridObjects.Files.Path

Paths of files, written with slashes. A path that starts with a slash is absolute; every other one
is relative to the working directory.
-/

namespace HybridObjects

abbrev Path := String

namespace Path

def isAbsolute (p : Path) : Bool :=
  p.toList.head? == some '/'

/-- The path `q` taken relative to `p`. An absolute path stays as it is. -/
def join (p q : Path) : Path :=
  if isAbsolute q then q
  else
    match p.toList.getLast? with
    | none => q
    | some '/' => p ++ q
    | some _ => p ++ "/" ++ q

/-- The names between the slashes of a path, without empty ones and without those for the directory
itself. -/
def names (p : Path) : List String :=
  ((Text.splitAt '/' p.toList).map String.ofList).filter fun name => name != "" && name != "."

/-- Whether a path asks for a directory by ending in a slash or in a dot as its last name. -/
def wantsDirectory (p : Path) : Bool :=
  let cs := p.toList
  let last := Text.afterLast '/' cs
  last == ['.'] || (last.isEmpty && !cs.isEmpty)

/-- The path, last character first, without the slashes at its end and the names there that stand
for the directory itself. The slash of the root and a dot at the very start are kept. -/
def trimEnd : List Char → List Char
  | ['/'] => ['/']
  | '/' :: cs => trimEnd cs
  | '.' :: '/' :: cs => trimEnd ('/' :: cs)
  | cs => cs

/-- The path of the directory that a path leads into: all but its last name. -/
def parent (p : Path) : Path :=
  let upToSlash := (trimEnd p.toList.reverse).dropWhile fun c => c != '/'
  String.ofList (trimEnd upToSlash).reverse

/-- The names of a path by which paths are compared. In front of the names of a path that is
absolute stands a slash, and a dot counts only as the very first name of a path. -/
def components (p : Path) : List String :=
  if isAbsolute p then "/" :: names p
  else if (Text.splitAt '/' p.toList).head? == some ['.'] then "." :: names p
  else names p

/-- Whether the last components of `p` are those of `q`. -/
def endsWith (p q : Path) : Bool :=
  (components q).isSuffixOf (components p)

end Path
end HybridObjects
