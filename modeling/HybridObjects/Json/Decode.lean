import HybridObjects.Json.Basic

/-!
# HybridObjects.Json.Decode

Reading structured data off JSON values.

* A record is an object, or an array of its fields in the order of their declaration. Members with
  other keys are ignored; a key of the record must not be repeated. Fields may be missing where
  there is a default, in an array only at its end.
* A variant is an object whose one member is named for the variant and holds its content. A
  variant without content may also be a string, and its content may be null.
-/

namespace HybridObjects
namespace Json

/-- Why a value is not the data it should be. -/
inductive Fault where
  | syntaxFault
  | expected (what : String)
  | missing (key : String)
  | repeated (key : String)
  | unknownKey (key : String)
  | unknownVariant (tag : String)

def Fault.message : Fault → String
  | .syntaxFault => "the text is not JSON"
  | .expected what => "expected " ++ what
  | .missing key => "missing field `" ++ key ++ "`"
  | .repeated key => "duplicate field `" ++ key ++ "`"
  | .unknownKey key => "unknown field `" ++ key ++ "`"
  | .unknownVariant tag => "unknown variant `" ++ tag ++ "`"

def asString : Json → Except Fault String
  | .str s => .ok s
  | _ => .error (.expected "a string")

def asBool : Json → Except Fault Bool
  | .bool b => .ok b
  | _ => .error (.expected "a boolean")

/-- A natural number below `2^64`, spelled with digits only. -/
def asWord : Json → Except Fault Nat
  | .num text =>
    if text.toList.all Char.isDigit then
      let n := text.toList.foldl (fun n c => n * 10 + (c.toNat - 48)) 0
      if n < 18446744073709551616 then .ok n else .error (.expected "a 64-bit number")
    else .error (.expected "a natural number")
  | _ => .error (.expected "a natural number")

/-- An array, its items read by `item`. -/
def asList {α : Type} (item : Json → Except Fault α) : Json → Except Fault (List α)
  | .arr items => items.mapM item
  | _ => .error (.expected "an array")

/-- Null is absence. -/
def asOption {α : Type} (value : Json → Except Fault α) : Json → Except Fault (Option α)
  | .null => .ok none
  | j => some <$> value j

/-- The fields of a record that are present. -/
abbrev Record := List (String × Json)

/-- The first key that occurs again after its first occurrence. -/
def repeatedKey? : Record → Option String
  | [] => none
  | (key, _) :: members =>
    if members.any fun member => member.1 == key then some key else repeatedKey? members

/-- The fields of a record with the given keys. -/
def asRecord (keys : List String) : Json → Except Fault Record
  | .obj members =>
    let known := members.filter fun member => keys.contains member.1
    match repeatedKey? known with
    | some key => .error (.repeated key)
    | none => .ok known
  | .arr items =>
    if items.length ≤ keys.length then .ok (keys.zip items)
    else .error (.expected "no further fields")
  | _ => .error (.expected "a record")

/-- The fields of a record that has no other members than those with the given keys. -/
def asExactRecord (keys : List String) (j : Json) : Except Fault Record :=
  match j with
  | .obj members =>
    match members.find? fun member => !keys.contains member.1 with
    | some member => .error (.unknownKey member.1)
    | none => asRecord keys j
  | _ => asRecord keys j

namespace Record

/-- A field that must be present. -/
def require {α : Type} (r : Record) (key : String) (value : Json → Except Fault α) :
    Except Fault α :=
  match r.lookup key with
  | some j => value j
  | none => .error (.missing key)

/-- A field with a default. -/
def withDefault {α : Type} (r : Record) (key : String) (default : α)
    (value : Json → Except Fault α) : Except Fault α :=
  match r.lookup key with
  | some j => value j
  | none => .ok default

/-- A field that may be absent or null. -/
def optional {α : Type} (r : Record) (key : String) (value : Json → Except Fault α) :
    Except Fault (Option α) :=
  r.withDefault key none (asOption value)

end Record

/-- A variant: its name and its content, if it is given any. -/
def asVariant : Json → Except Fault (String × Option Json)
  | .str tag => .ok (tag, none)
  | .obj [(tag, content)] => .ok (tag, some content)
  | _ => .error (.expected "a variant")

/-- The content of a variant without fields. -/
def noContent {α : Type} (value : α) : Option Json → Except Fault α
  | none => .ok value
  | some .null => .ok value
  | some _ => .error (.expected "no content")

/-- The content of a variant with fields. -/
def content {α : Type} (value : Json → Except Fault α) : Option Json → Except Fault α
  | some j => value j
  | none => .error (.expected "content")

/-- The content of a variant with two fields without names. -/
def pairContent {α : Type} (value : Json → Except Fault α) :
    Option Json → Except Fault (α × α)
  | some (.arr [a, b]) => do
    let a ← value a
    let b ← value b
    return (a, b)
  | _ => .error (.expected "a pair")

end Json
end HybridObjects
