import HybridObjects.Text.Quoted

/-!
# HybridObjects.Text.Outline

Outlines of trees, the form in which messages show the parts of a model. A node is shown by its
name, followed by its parts: in parentheses if the parts have no names, in braces with their names
if they have.
-/

namespace HybridObjects

inductive Outline where
  | text (s : String)
  | node (name : String) (parts : List Outline)
  | record (name : String) (parts : List (String × Outline))
  | list (items : List Outline)

namespace Outline

mutual

/-- The text of an outline. -/
def spell : Outline → String
  | .text s => Text.quoted s
  | .node name [] => name
  | .node name (part :: parts) => name ++ "(" ++ part.spell ++ spellMore parts ++ ")"
  | .record name [] => name
  | .record name ((label, part) :: parts) =>
    name ++ " \x7b " ++ label ++ ": " ++ part.spell ++ spellLabelled parts ++ " \x7d"
  | .list [] => "[]"
  | .list (item :: items) => "[" ++ item.spell ++ spellMore items ++ "]"

/-- Further items, each after a comma. -/
def spellMore : List Outline → String
  | [] => ""
  | item :: items => ", " ++ item.spell ++ spellMore items

/-- Further labelled parts, each after a comma. -/
def spellLabelled : List (String × Outline) → String
  | [] => ""
  | (label, part) :: parts => ", " ++ label ++ ": " ++ part.spell ++ spellLabelled parts

end

/-- The outline of something that may be absent. -/
def option : Option Outline → Outline
  | none => .node "None" []
  | some part => .node "Some" [part]

end Outline
end HybridObjects
