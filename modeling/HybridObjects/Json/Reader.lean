import HybridObjects.Json.Basic

/-!
# HybridObjects.Json.Reader

Reading JSON text. The grammar is the strict one: no comments, no trailing commas, no leading
zeros, no raw control characters in strings. A value below more than `Json.maxDepth` brackets is
checked for syntax only and becomes `Json.unreadable`, and so does a string with a surrogate that
has no partner, and an object with such a key.

Every reader takes the rest of the text and returns what it read with the new rest.
-/

namespace HybridObjects
namespace Json

/-- How many nested brackets are followed. -/
def maxDepth : Nat := 127

/-- The white space between JSON tokens. -/
def isSpace (c : Char) : Bool :=
  c == ' ' || c == '\t' || c == '\n' || c == '\r'

def skipSpace (cs : List Char) : List Char :=
  cs.dropWhile isSpace

/-- The value of a hexadecimal digit. -/
def hexValue? (c : Char) : Option Nat :=
  let n := c.toNat
  if 48 ≤ n && n ≤ 57 then some (n - 48)
  else if 97 ≤ n && n ≤ 102 then some (n - 87)
  else if 65 ≤ n && n ≤ 70 then some (n - 55)
  else none

/-- The code unit of four hexadecimal digits. -/
def unit? (a b c d : Char) : Option Nat :=
  match hexValue? a, hexValue? b, hexValue? c, hexValue? d with
  | some a, some b, some c, some d => some (((a * 16 + b) * 16 + c) * 16 + d)
  | _, _, _, _ => none

/-- The character of an escape by a single letter. -/
def escaped? (c : Char) : Option Char :=
  match c with
  | '"' => some '"'
  | '\\' => some '\\'
  | '/' => some '/'
  | 'b' => some (Char.ofNat 8)
  | 'f' => some (Char.ofNat 12)
  | 'n' => some '\n'
  | 'r' => some '\r'
  | 't' => some '\t'
  | _ => none

/-- Reads the rest of a string up to its closing quote, as code points and escaped code units. -/
def readUnits : List Char → Option (List Nat × List Char)
  | [] => none
  | '"' :: rest => some ([], rest)
  | '\\' :: 'u' :: a :: b :: c :: d :: rest =>
    match unit? a b c d, readUnits rest with
    | some unit, some (units, rest) => some (unit :: units, rest)
    | _, _ => none
  | '\\' :: c :: rest =>
    match escaped? c, readUnits rest with
    | some c, some (units, rest) => some (c.toNat :: units, rest)
    | _, _ => none
  | c :: rest =>
    if c.toNat < 32 || c == '\\' then none
    else
      match readUnits rest with
      | some (units, rest) => some (c.toNat :: units, rest)
      | none => none

def isHighSurrogate (n : Nat) : Bool :=
  0xD800 ≤ n && n ≤ 0xDBFF

def isLowSurrogate (n : Nat) : Bool :=
  0xDC00 ≤ n && n ≤ 0xDFFF

/-- The characters of a list of code points and code units; a surrogate needs its partner. -/
def ofUnits : List Nat → Option (List Char)
  | [] => some []
  | high :: low :: units =>
    if isHighSurrogate high then
      if isLowSurrogate low then
        (ofUnits units).map
          (Char.ofNat (0x10000 + (high - 0xD800) * 0x400 + (low - 0xDC00)) :: ·)
      else none
    else if isLowSurrogate high then none
    else (ofUnits (low :: units)).map (Char.ofNat high :: ·)
  | [unit] =>
    if isHighSurrogate unit || isLowSurrogate unit then none else some [Char.ofNat unit]

/-- Reads a string after its opening quote; `none` for one that is not text. -/
def readString (cs : List Char) : Option (Option String × List Char) :=
  match readUnits cs with
  | some (units, rest) => some ((ofUnits units).map String.ofList, rest)
  | none => none

/-- Reads at least one digit. -/
def readDigits (cs : List Char) : Option (List Char × List Char) :=
  match cs.span Char.isDigit with
  | ([], _) => none
  | (digits, rest) => some (digits, rest)

/-- Reads the whole part of a number: zero, or digits of which the first is not zero. -/
def readWhole (cs : List Char) : Option (List Char × List Char) :=
  match cs with
  | '0' :: rest => some (['0'], rest)
  | _ => readDigits cs

/-- Reads the fraction of a number, if there is one. -/
def readFraction (cs : List Char) : Option (List Char × List Char) :=
  match cs with
  | '.' :: rest =>
    match readDigits rest with
    | some (digits, rest) => some ('.' :: digits, rest)
    | none => none
  | _ => some ([], cs)

/-- Reads the exponent of a number, if there is one. -/
def readExponent (cs : List Char) : Option (List Char × List Char) :=
  match cs with
  | c :: rest =>
    if c == 'e' || c == 'E' then
      let (sign, rest) :=
        match rest with
        | '+' :: rest => (['+'], rest)
        | '-' :: rest => (['-'], rest)
        | _ => ([], rest)
      match readDigits rest with
      | some (digits, rest) => some (c :: sign ++ digits, rest)
      | none => none
    else some ([], cs)
  | [] => some ([], [])

/-- Reads a number. -/
def readNumber (cs : List Char) : Option (Json × List Char) := do
  let (sign, cs) :=
    match cs with
    | '-' :: rest => (['-'], rest)
    | _ => ([], cs)
  let (whole, cs) ← readWhole cs
  match whole, cs with
  | ['0'], c :: _ => if c.isDigit then none else pure ()
  | _, _ => pure ()
  let (fraction, cs) ← readFraction cs
  let (exponent, cs) ← readExponent cs
  return (.num (String.ofList (sign ++ whole ++ fraction ++ exponent)), cs)

/-- The rest of a text after a word it starts with. -/
def dropWord : List Char → List Char → Option (List Char)
  | [], cs => some cs
  | w :: ws, c :: cs => if w = c then dropWord ws cs else none
  | _ :: _, [] => none

/-- The object of the members read; without content if a key is not text. -/
def ofMembers (members : List (Option String × Json)) : Json :=
  match members.mapM fun member => member.1.map fun key => (key, member.2) with
  | some members => .obj members
  | none => .unreadable

/-- A value below `level` brackets, its own included. -/
def limited (level : Nat) (j : Json) : Json :=
  if level ≤ maxDepth then j else .unreadable

mutual

/-- Reads a value that stands below `level` brackets. -/
def readValue : Nat → Nat → List Char → Option (Json × List Char)
  | 0, _, _ => none
  | fuel + 1, level, cs =>
    match skipSpace cs with
    | 'n' :: rest => (dropWord "ull".toList rest).map (.null, ·)
    | 't' :: rest => (dropWord "rue".toList rest).map (.bool true, ·)
    | 'f' :: rest => (dropWord "alse".toList rest).map (.bool false, ·)
    | '"' :: rest =>
      match readString rest with
      | some (some s, rest) => some (.str s, rest)
      | some (none, rest) => some (.unreadable, rest)
      | none => none
    | '[' :: rest =>
      match skipSpace rest with
      | ']' :: rest => some (limited (level + 1) (.arr []), rest)
      | rest =>
        match readItems fuel (level + 1) rest with
        | some (items, rest) => some (limited (level + 1) (.arr items), rest)
        | none => none
    | '{' :: rest =>
      match skipSpace rest with
      | '}' :: rest => some (limited (level + 1) (.obj []), rest)
      | rest =>
        match readMembers fuel (level + 1) rest with
        | some (members, rest) => some (limited (level + 1) (ofMembers members), rest)
        | none => none
    | rest => readNumber rest

/-- Reads items up to the closing bracket. -/
def readItems : Nat → Nat → List Char → Option (List Json × List Char)
  | 0, _, _ => none
  | fuel + 1, level, cs =>
    match readValue fuel level cs with
    | none => none
    | some (item, rest) =>
      match skipSpace rest with
      | ']' :: rest => some ([item], rest)
      | ',' :: rest =>
        match readItems fuel level rest with
        | some (items, rest) => some (item :: items, rest)
        | none => none
      | _ => none

/-- Reads members up to the closing brace. -/
def readMembers : Nat → Nat → List Char → Option (List (Option String × Json) × List Char)
  | 0, _, _ => none
  | fuel + 1, level, cs =>
    match skipSpace cs with
    | '"' :: rest =>
      match readString rest with
      | none => none
      | some (key, rest) =>
        match skipSpace rest with
        | ':' :: rest =>
          match readValue fuel level rest with
          | none => none
          | some (value, rest) =>
            match skipSpace rest with
            | '}' :: rest => some ([(key, value)], rest)
            | ',' :: rest =>
              match readMembers fuel level rest with
              | some (members, rest) => some ((key, value) :: members, rest)
              | none => none
            | _ => none
        | _ => none
    | _ => none

end

/-- The value that a text spells, white space around it allowed. -/
def read? (text : String) : Option Json :=
  let cs := text.toList
  match readValue (2 * cs.length + 2) 0 cs with
  | some (j, rest) => if (skipSpace rest).isEmpty then some j else none
  | none => none

end Json
end HybridObjects
