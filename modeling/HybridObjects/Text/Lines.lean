/-!
# HybridObjects.Text.Lines

Texts cut into lines. A line ends at a line feed, which is not part of it, and neither is a
carriage return directly before the line feed. A final line feed opens no further line.
-/

namespace HybridObjects
namespace Text

/-- The line whose characters, last first, are `rev`, once its line feed has been met. -/
def closeLine (rev : List Char) : List Char :=
  match rev with
  | '\r' :: rest => rest.reverse
  | _ => rev.reverse

/-- The lines of a text of which `rev` has been read, last character first, since the last line
feed. -/
def linesFrom (rev : List Char) : List Char → List (List Char)
  | [] => if rev.isEmpty then [] else [rev.reverse]
  | c :: cs => if c = '\n' then closeLine rev :: linesFrom [] cs else linesFrom (c :: rev) cs

/-- The lines of a text. -/
def lines (cs : List Char) : List (List Char) :=
  linesFrom [] cs

/-- The pieces of a text between the occurrences of `sep`, one more than there are of these. -/
def splitAt (sep : Char) : List Char → List (List Char)
  | [] => [[]]
  | c :: cs =>
    if c = sep then
      [] :: splitAt sep cs
    else
      match splitAt sep cs with
      | [] => [[c]]
      | piece :: pieces => (c :: piece) :: pieces

/-- The text before the last `sep` and the text after it. -/
def splitLast? (sep : Char) : List Char → Option (List Char × List Char)
  | [] => none
  | c :: cs =>
    match splitLast? sep cs with
    | some (before, after) => some (c :: before, after)
    | none => if c = sep then some ([], cs) else none

/-- The text after the last `sep`, or the whole text if there is none. -/
def afterLast (sep : Char) (cs : List Char) : List Char :=
  match splitLast? sep cs with
  | some (_, after) => after
  | none => cs

end Text
end HybridObjects
