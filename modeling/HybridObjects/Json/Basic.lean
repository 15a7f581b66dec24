/-!
# HybridObjects.Json.Basic

JSON values. Numbers keep their spelling, and an object keeps its members in order, repeated keys
included: what a repeated key means is for the reader of the object to say.
-/

namespace HybridObjects

/-- A JSON value. `unreadable` is a value with correct syntax whose content is lost: one nested
too deeply, or one with a string that is not a sequence of characters. It may stand where nobody
looks. -/
inductive Json where
  | null
  | bool (b : Bool)
  | num (text : String)
  | str (s : String)
  | arr (items : List Json)
  | obj (members : List (String × Json))
  | unreadable

namespace Json

mutual

/-- How deeply brackets are nested in a value. -/
def depth : Json → Nat
  | .arr items => depthAll items + 1
  | .obj members => depthMembers members + 1
  | .null | .bool _ | .num _ | .str _ | .unreadable => 0

/-- The greatest depth among the items. -/
def depthAll : List Json → Nat
  | [] => 0
  | item :: items => max item.depth (depthAll items)

/-- The greatest depth among the values of the members. -/
def depthMembers : List (String × Json) → Nat
  | [] => 0
  | (_, value) :: members => max value.depth (depthMembers members)

end

/-- The value of the first member with the given key. -/
def get? (j : Json) (key : String) : Option Json :=
  match j with
  | .obj members => members.lookup key
  | _ => none

end Json
end HybridObjects
