/-!
# HybridObjects.Logic.Writer

A writer for text with indentation. On several lines it puts two spaces per level in front of the
first character of a line, never on an empty line. On a single line every line break is one space
and levels are not counted.
-/

namespace HybridObjects

inductive Layout where
  | singleLine
  | manyLines
deriving DecidableEq

/-- What has been written and where the writer stands. -/
structure Writer where
  layout : Layout
  text : String
  level : Nat
  atLineStart : Bool

namespace Writer

/-- A writer that has written nothing. -/
def empty (layout : Layout) : Writer :=
  ⟨layout, "", 0, true⟩

def isSingleLine (w : Writer) : Bool :=
  w.layout == .singleLine

/-- The blanks in front of the first character of a line. -/
def margin (level : Nat) : String :=
  String.ofList (List.replicate (2 * level) ' ')

/-- Writes one character; a line feed breaks the line. -/
def put (w : Writer) (c : Char) : Writer :=
  match w.layout with
  | .singleLine =>
    { w with text := w.text.push (if c = '\n' then ' ' else c), atLineStart := false }
  | .manyLines =>
    if c = '\n' then
      { w with text := w.text.push '\n', atLineStart := true }
    else if w.atLineStart then
      { w with text := (w.text ++ margin w.level).push c, atLineStart := false }
    else
      { w with text := w.text.push c }

/-- Writes a text. -/
def write (w : Writer) (s : String) : Writer :=
  s.toList.foldl put w

def newline (w : Writer) : Writer :=
  w.write "\n"

/-- Writes a text and breaks the line. -/
def line (w : Writer) (s : String) : Writer :=
  (w.write s).newline

/-- Goes one level deeper, after a line break if one is asked for. -/
def indent (w : Writer) (breakLine : Bool) : Writer :=
  let w := if breakLine then w.newline else w
  match w.layout with
  | .singleLine => w
  | .manyLines => { w with level := w.level + 1 }

/-- Goes one level up, as far as there is one, before a line break if one is asked for. -/
def dedent (w : Writer) (breakLine : Bool) : Writer :=
  let w :=
    match w.layout with
    | .singleLine => w
    | .manyLines => { w with level := w.level - 1 }
  if breakLine then w.newline else w

/-- Writes further items, each after the separator. -/
def moreItems {α : Type} (w : Writer) (separator : String) (item : Writer → α → Writer) :
    List α → Writer
  | [] => w
  | a :: as => moreItems (item (w.write separator) a) separator item as

/-- Writes items with the separator between them. -/
def items {α : Type} (w : Writer) (separator : String) (item : Writer → α → Writer) :
    List α → Writer
  | [] => w
  | a :: as => moreItems (item w a) separator item as

end Writer
end HybridObjects
