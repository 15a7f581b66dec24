import HybridObjects.Json.Basic
import HybridObjects.Text.Quoted

/-!
# HybridObjects.Json.Printer

The text of JSON values, without white space between tokens.
-/

namespace HybridObjects
namespace Json

/-- A character between the quotes of a JSON string. -/
def printChar (c : Char) : List Char :=
  if c = '"' then ['\\', '"']
  else if c = '\\' then ['\\', '\\']
  else if c = '\n' then ['\\', 'n']
  else if c = '\r' then ['\\', 'r']
  else if c = '\t' then ['\\', 't']
  else if c.toNat < 32 then ['\\', 'u'] ++ Text.hexDigits 4 c.toNat
  else [c]

/-- A JSON string. -/
def printString (s : String) : String :=
  String.ofList ('"' :: s.toList.flatMap printChar ++ ['"'])

mutual

/-- The text of a value; an unreadable one is shown as null. -/
def print : Json → String
  | .null => "null"
  | .bool true => "true"
  | .bool false => "false"
  | .num text => text
  | .str s => printString s
  | .arr [] => "[]"
  | .arr (item :: items) => "[" ++ item.print ++ printItems items ++ "]"
  | .obj [] => "\x7b\x7d"
  | .obj ((key, value) :: members) =>
    "\x7b" ++ printString key ++ ":" ++ value.print ++ printMembers members ++ "\x7d"
  | .unreadable => "null"

/-- Further items, each after a comma. -/
def printItems : List Json → String
  | [] => ""
  | item :: items => "," ++ item.print ++ printItems items

/-- Further members, each after a comma. -/
def printMembers : List (String × Json) → String
  | [] => ""
  | (key, value) :: members =>
    "," ++ printString key ++ ":" ++ value.print ++ printMembers members

end

end Json
end HybridObjects
