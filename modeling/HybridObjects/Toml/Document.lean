import HybridObjects.Toml.Scalar

/-!
# HybridObjects.Toml.Document

TOML documents. Lines with keys and values fill the table of the header above them. A table is
defined once: by a header, or by dotted keys, or inline; a header may still add tables below one
that another header or dotted keys have opened. Inside an inline table, dotted keys may add to the
tables among its values.

* `Toml.Node`   — a table under construction, which remembers how it was opened.
* `Toml.read?`  — the table that a text describes.
-/

namespace HybridObjects
namespace Toml

/-- How a table was opened: as a step on the way of a header, by its own header, or by dotted
keys. -/
inductive Opening where
  | implicit
  | header
  | dotted
deriving DecidableEq

/-- A part of a document under construction. -/
inductive Node where
  | value (v : Toml)
  | table (opening : Opening) (entries : List (String × Node))
  | tables (items : List (List (String × Node)))

abbrev Entries := List (String × Node)

/-- The entries with one of them replaced or added. -/
def putEntry (key : String) (node : Node) : Entries → Entries
  | [] => [(key, node)]
  | entry :: entries =>
    if entry.1 == key then (key, node) :: entries else entry :: putEntry key node entries

/-- The entries after a value has been put under a dotted key. Steps of the key lead only through
tables that dotted keys have opened. -/
def putDotted (value : Toml) : List String → Entries → Option Entries
  | [], _ => none
  | [key], entries =>
    match entries.lookup key with
    | some _ => none
    | none => some (putEntry key (.value value) entries)
  | key :: path, entries =>
    match entries.lookup key with
    | none => (putDotted value path []).map fun inner => putEntry key (.table .dotted inner) entries
    | some (.table .dotted inner) =>
      (putDotted value path inner).map fun inner => putEntry key (.table .dotted inner) entries
    | some _ => none

/-- The entries after `change` has been made in the table that the steps of a header lead to. An
array of tables stands for its last table. -/
def changeAt (change : Entries → Option Entries) : List String → Entries → Option Entries
  | [], entries => change entries
  | key :: path, entries =>
    match entries.lookup key with
    | none =>
      (changeAt change path []).map fun inner => putEntry key (.table .implicit inner) entries
    | some (.table opening inner) =>
      (changeAt change path inner).map fun inner => putEntry key (.table opening inner) entries
    | some (.tables items) =>
      match items.getLast? with
      | none => none
      | some last =>
        (changeAt change path last).map fun last =>
          putEntry key (.tables (items.dropLast ++ [last])) entries
    | some (.value _) => none

/-- Opens a table by its header. -/
def openTable (key : String) (entries : Entries) : Option Entries :=
  match entries.lookup key with
  | none => some (putEntry key (.table .header []) entries)
  | some (.table .implicit inner) => some (putEntry key (.table .header inner) entries)
  | some _ => none

/-- Opens a further table of an array of tables. -/
def openItem (key : String) (entries : Entries) : Option Entries :=
  match entries.lookup key with
  | none => some (putEntry key (.tables [[]]) entries)
  | some (.tables items) => some (putEntry key (.tables (items ++ [[]])) entries)
  | some _ => none

mutual

/-- The value that a part of a document has in the end. -/
def Node.toToml : Node → Toml
  | .value v => v
  | .table _ entries => .table (entriesToToml entries)
  | .tables items => .arr (itemsToToml items)

def entriesToToml : List (String × Node) → List (String × Toml)
  | [] => []
  | (key, node) :: entries => (key, node.toToml) :: entriesToToml entries

def itemsToToml : List (List (String × Node)) → List Toml
  | [] => []
  | entries :: items => .table (entriesToToml entries) :: itemsToToml items

end

/-- Characters of a key without quotes. -/
def isBareChar (c : Char) : Bool :=
  c.isAlphanum || c == '_' || c == '-'

/-- Reads one step of a key. -/
def readStep (cs : List Char) : Option (String × List Char) :=
  match cs with
  | '"' :: rest => (readBasic (rest.length + 1) rest).map fun (s, rest) => (String.ofList s, rest)
  | '\'' :: rest => (readLiteral rest).map fun (s, rest) => (String.ofList s, rest)
  | _ =>
    match cs.span isBareChar with
    | ([], _) => none
    | (s, rest) => some (String.ofList s, rest)

/-- The number of brackets and braces that may be open at a time, and of steps that a key may
have. -/
def maxDepth : Nat := 127

/-- Reads a key, its steps set off by points; the first argument bounds their number. -/
def readKey : Nat → List Char → Option (List String × List Char)
  | 0, _ => none
  | n + 1, cs => do
    let (step, rest) ← readStep (skipBlank cs)
    match skipBlank rest with
    | '.' :: rest =>
      let (steps, rest) ← readKey n rest
      return (step :: steps, rest)
    | rest => return ([step], rest)

/-- The rest after an equals sign. -/
def equals? : List Char → Option (List Char)
  | '=' :: rest => some (skipBlank rest)
  | _ => none

/-- The entries of an inline table with one of them replaced or added. -/
def putInline (key : String) (value : Toml) : List (String × Toml) → List (String × Toml)
  | [] => [(key, value)]
  | entry :: entries =>
    if entry.1 == key then (key, value) :: entries else entry :: putInline key value entries

/-- The entries of an inline table after a value has been put under a dotted key. Steps of the key
lead through tables, whether other keys or a value have opened them. -/
def putPair (value : Toml) : List String → List (String × Toml) → Option (List (String × Toml))
  | [], _ => none
  | [key], entries =>
    match entries.lookup key with
    | some _ => none
    | none => some (putInline key value entries)
  | key :: path, entries =>
    match entries.lookup key with
    | none => (putPair value path []).map fun inner => putInline key (.table inner) entries
    | some (.table inner) =>
      (putPair value path inner).map fun inner => putInline key (.table inner) entries
    | some _ => none

mutual

/-- Reads a value in which the given number of brackets and braces may be open at a time. -/
def readValue (room : Nat) : Nat → List Char → Option (Toml × List Char)
  | 0, _ => none
  | n + 1, cs =>
    match cs with
    | '"' :: _ => (readString cs).map fun (s, rest) => (.str (String.ofList s), rest)
    | '\'' :: _ => (readString cs).map fun (s, rest) => (.str (String.ofList s), rest)
    | '[' :: rest =>
      if room = 0 then none
      else (readItems (room - 1) n rest).map fun (items, rest) => (.arr items, rest)
    | '{' :: rest =>
      if room = 0 then none
      else
        match skipBlank rest with
        | '}' :: rest => some (.table [], rest)
        | rest =>
          (readPairs (room - 1) n rest []).map fun (entries, rest) => (.table entries, rest)
    | _ => readWord cs

/-- Reads the items of an array up to its closing bracket, over several lines if need be. -/
def readItems (room : Nat) : Nat → List Char → Option (List Toml × List Char)
  | 0, _ => none
  | n + 1, cs =>
    match skipLines (cs.length + 1) cs with
    | ']' :: rest => some ([], rest)
    | cs =>
      match readValue room n cs with
      | none => none
      | some (item, rest) =>
        match skipLines (rest.length + 1) rest with
        | ']' :: rest => some ([item], rest)
        | ',' :: rest => (readItems room n rest).map fun (items, rest) => (item :: items, rest)
        | _ => none

/-- Reads the pairs of an inline table up to its closing brace, all on one line. -/
def readPairs (room : Nat) :
    Nat → List Char → List (String × Toml) → Option (List (String × Toml) × List Char)
  | 0, _, _ => none
  | n + 1, cs, entries =>
    match readKey maxDepth cs with
    | none => none
    | some (key, rest) =>
      match (equals? rest).bind (readValue room n) with
      | none => none
      | some (value, rest) =>
        match putPair value key entries with
        | none => none
        | some entries =>
          match skipBlank rest with
          | '}' :: rest => some (entries, rest)
          | ',' :: rest => readPairs room n rest entries
          | _ => none

end

/-- A line of a document. -/
inductive Line where
  | pair (key : List String) (value : Toml)
  | header (key : List String)
  | item (key : List String)

/-- Reads a line that is not empty, up to its end. -/
def readLine (cs : List Char) : Option (Line × List Char) :=
  match cs with
  | '[' :: '[' :: rest =>
    match readKey maxDepth rest with
    | some (key, ']' :: ']' :: rest) => (endLine? rest).map (.item key, ·)
    | _ => none
  | '[' :: rest =>
    match readKey maxDepth rest with
    | some (key, ']' :: rest) => (endLine? rest).map (.header key, ·)
    | _ => none
  | _ =>
    match readKey maxDepth cs with
    | none => none
    | some (key, rest) =>
      match (equals? rest).bind fun rest => readValue maxDepth (2 * rest.length + 2) rest with
      | none => none
      | some (value, rest) => (endLine? rest).map (.pair key value, ·)

/-- The document after a line, and the header under which the next lines stand. -/
def applyLine (header : List String) (entries : Entries) :
    Line → Option (List String × Entries)
  | .pair key value => (changeAt (putDotted value key) header entries).map (header, ·)
  | .header key =>
    match key.getLast? with
    | none => none
    | some last => (changeAt (openTable last) key.dropLast entries).map (key, ·)
  | .item key =>
    match key.getLast? with
    | none => none
    | some last => (changeAt (openItem last) key.dropLast entries).map (key, ·)

/-- Reads the remaining lines of a document. -/
def readLines : Nat → List String → Entries → List Char → Option Entries
  | 0, _, _, _ => none
  | n + 1, header, entries, cs =>
    match skipLines (cs.length + 1) cs with
    | [] => some entries
    | cs =>
      match readLine cs with
      | none => none
      | some (line, rest) =>
        match applyLine header entries line with
        | none => none
        | some (header, entries) => readLines n header entries rest

/-- The table that a text describes. A byte order mark in front is ignored. -/
def read? (text : String) : Option (List (String × Toml)) :=
  let cs :=
    match text.toList with
    | c :: rest => if c.toNat = 0xFEFF then rest else c :: rest
    | [] => []
  (readLines (cs.length + 1) [] [] cs).map entriesToToml

end Toml
end HybridObjects
