import HybridObjects.Json.Reader
import HybridObjects.Toml.Basic
import HybridObjects.Toml.Decimal

/-!
# HybridObjects.Toml.Scalar

The lexical level of TOML: white space, comments, strings, numbers, booleans and dates. Every
reader takes the rest of the text and returns what it read with the new rest.
-/

namespace HybridObjects
namespace Toml

/-- White space inside a line. -/
def isBlank (c : Char) : Bool :=
  c == ' ' || c == '\t'

def skipBlank (cs : List Char) : List Char :=
  cs.dropWhile isBlank

/-- The rest after a line break. -/
def newline? : List Char → Option (List Char)
  | '\n' :: rest => some rest
  | '\r' :: '\n' :: rest => some rest
  | _ => none

/-- Characters of a comment: all but the control characters other than the tab. -/
def isCommentChar (c : Char) : Bool :=
  c == '\t' || (32 ≤ c.toNat && c.toNat != 127)

/-- The rest after a comment, if there is one. -/
def skipComment : List Char → List Char
  | '#' :: rest => rest.dropWhile isCommentChar
  | cs => cs

/-- The rest after the end of a line: white space, perhaps a comment, then a line break or the end
of the text. -/
def endLine? (cs : List Char) : Option (List Char) :=
  match skipComment (skipBlank cs) with
  | [] => some []
  | rest => newline? rest

/-- The rest after white space, comments and line breaks, at most the given number of lines. -/
def skipLines : Nat → List Char → List Char
  | 0, cs => cs
  | n + 1, cs =>
    let rest := skipComment (skipBlank cs)
    match newline? rest with
    | some rest => skipLines n rest
    | none => rest

/-- Characters that stand for themselves in a basic string. -/
def isBasicChar (c : Char) : Bool :=
  c == '\t' || (32 ≤ c.toNat && c != '"' && c != '\\' && c.toNat != 127)

/-- Characters of a literal string. -/
def isLiteralChar (c : Char) : Bool :=
  c == '\t' || (32 ≤ c.toNat && c != '\'' && c.toNat != 127)

/-- The number of some hexadecimal digits. -/
def hexNumber? (digits : List Char) : Option Nat :=
  digits.foldl (fun n c => do return (← n) * 16 + (← Json.hexValue? c)) (some 0)

/-- The character with a code point. -/
def char? (n : Nat) : Option Char :=
  if n < 0xD800 || (0xDFFF < n && n < 0x110000) then some (Char.ofNat n) else none

/-- Reads the rest of an escape after its backslash. -/
def readEscape : List Char → Option (Char × List Char)
  | 'b' :: rest => some (Char.ofNat 8, rest)
  | 't' :: rest => some ('\t', rest)
  | 'n' :: rest => some ('\n', rest)
  | 'f' :: rest => some (Char.ofNat 12, rest)
  | 'r' :: rest => some ('\r', rest)
  | '"' :: rest => some ('"', rest)
  | '\\' :: rest => some ('\\', rest)
  | 'u' :: rest =>
    if rest.length < 4 then none
    else ((hexNumber? (rest.take 4)).bind char?).map (·, rest.drop 4)
  | 'U' :: rest =>
    if rest.length < 8 then none
    else ((hexNumber? (rest.take 8)).bind char?).map (·, rest.drop 8)
  | _ => none

/-- Reads a basic string after its opening quote. -/
def readBasic : Nat → List Char → Option (List Char × List Char)
  | 0, _ => none
  | n + 1, cs =>
    match cs with
    | '"' :: rest => some ([], rest)
    | '\\' :: rest => do
      let (c, rest) ← readEscape rest
      let (s, rest) ← readBasic n rest
      return (c :: s, rest)
    | c :: rest =>
      if isBasicChar c then (readBasic n rest).map fun (s, rest) => (c :: s, rest) else none
    | [] => none

/-- Reads a literal string after its opening quote. -/
def readLiteral (cs : List Char) : Option (List Char × List Char) :=
  match cs.span isLiteralChar with
  | (s, '\'' :: rest) => some (s, rest)
  | _ => none

/-- The text without a line break at its start. -/
def dropNewline (cs : List Char) : List Char :=
  (newline? cs).getD cs

/-- The end of a string on several lines: three closing quotes, and up to two more before them that
belong to the string. -/
def closing? (quote : Char) (cs : List Char) : Option (List Char × List Char) :=
  match cs.span (· == quote) with
  | (quotes, rest) =>
    if quotes.length < 3 then none
    else if quotes.length ≤ 5 then some (quotes.drop 3, rest)
    else none

/-- The rest after white space and line breaks. -/
def skipEmpty : List Char → List Char
  | '\r' :: '\n' :: rest => skipEmpty rest
  | c :: rest => if isBlank c || c == '\n' then skipEmpty rest else c :: rest
  | [] => []

/-- The rest after a backslash that ends a line: the next visible character. -/
def lineContinuation? (cs : List Char) : Option (List Char) :=
  (newline? (skipBlank cs)).map skipEmpty

/-- Reads a basic string on several lines after its opening quotes. -/
def readLongBasic : Nat → List Char → Option (List Char × List Char)
  | 0, _ => none
  | n + 1, cs =>
    match closing? '"' cs with
    | some (quotes, rest) => some (quotes, rest)
    | none =>
      match cs with
      | '\\' :: rest =>
        match lineContinuation? rest with
        | some rest => readLongBasic n rest
        | none => do
          let (c, rest) ← readEscape rest
          let (s, rest) ← readLongBasic n rest
          return (c :: s, rest)
      | '"' :: rest => do
        if (cs.takeWhile (· == '"')).length ≤ 2 then
          let (s, rest) ← readLongBasic n rest
          return ('"' :: s, rest)
        else none
      | '\r' :: '\n' :: rest =>
        (readLongBasic n rest).map fun (s, rest) => ('\n' :: s, rest)
      | c :: rest =>
        if c == '\n' || isBasicChar c then
          (readLongBasic n rest).map fun (s, rest) => (c :: s, rest)
        else none
      | [] => none

/-- Reads a literal string on several lines after its opening quotes. -/
def readLongLiteral : Nat → List Char → Option (List Char × List Char)
  | 0, _ => none
  | n + 1, cs =>
    match closing? '\'' cs with
    | some (quotes, rest) => some (quotes, rest)
    | none =>
      match cs with
      | '\'' :: rest => do
        if (cs.takeWhile (· == '\'')).length ≤ 2 then
          let (s, rest) ← readLongLiteral n rest
          return ('\'' :: s, rest)
        else none
      | '\r' :: '\n' :: rest =>
        (readLongLiteral n rest).map fun (s, rest) => ('\n' :: s, rest)
      | c :: rest =>
        if c == '\n' || isLiteralChar c then
          (readLongLiteral n rest).map fun (s, rest) => (c :: s, rest)
        else none
      | [] => none

/-- Reads a string of any kind. -/
def readString (cs : List Char) : Option (List Char × List Char) :=
  match cs with
  | '"' :: '"' :: '"' :: rest => readLongBasic (rest.length + 1) (dropNewline rest)
  | '\'' :: '\'' :: '\'' :: rest => readLongLiteral (rest.length + 1) (dropNewline rest)
  | '"' :: rest => readBasic (rest.length + 1) rest
  | '\'' :: rest => readLiteral rest
  | _ => none

/-- Digits with single underscores between them, without the underscores. -/
def digits? (isDigit : Char → Bool) : List Char → Option (List Char)
  | [] => none
  | [c] => if isDigit c then some [c] else none
  | c :: '_' :: rest => if isDigit c then (digits? isDigit rest).map (c :: ·) else none
  | c :: rest => if isDigit c then (digits? isDigit rest).map (c :: ·) else none

/-- The number of digits in a base. -/
def number (base : Nat) (digits : List Char) : Nat :=
  digits.foldl (fun n c => n * base + (Json.hexValue? c).getD 0) 0

/-- An integer of 64 bits. -/
def integer? (n : Int) : Option Toml :=
  if -9223372036854775808 ≤ n && n < 9223372036854775808 then some (.int n) else none

/-- An integer in a base. -/
def inBase? (base : Nat) (isDigit : Char → Bool) (cs : List Char) : Option Toml :=
  (digits? isDigit cs).bind fun digits => integer? (number base digits)

/-- The sign of a number and the rest of its text. -/
def splitSign : List Char → Bool × List Char
  | '-' :: rest => (true, rest)
  | '+' :: rest => (false, rest)
  | cs => (false, cs)

/-- The digits of the whole part of a number: no zero in front of others. -/
def whole? (cs : List Char) : Option (List Char) :=
  match digits? Char.isDigit cs with
  | some ('0' :: _ :: _) => none
  | digits => digits

def isOctal (c : Char) : Bool :=
  '0' ≤ c && c ≤ '7'

def isBinary (c : Char) : Bool :=
  c == '0' || c == '1'

def isHex (c : Char) : Bool :=
  (Json.hexValue? c).isSome

/-- The exponent that a text without its letter writes. -/
def exponent? (cs : List Char) : Option Int :=
  let (negative, body) := splitSign cs
  (digits? Char.isDigit body).map fun digits =>
    let n : Int := Decimal.value digits
    if negative then -n else n

/-- The number with a fraction or an exponent that a text without sign writes. -/
def decimal? (cs : List Char) : Option Decimal :=
  let (mantissa, exponent) := cs.span fun c => c != 'e' && c != 'E'
  let (whole, fraction) := mantissa.span (· != '.')
  match whole? whole, fraction, exponent with
  | none, _, _ => none
  | some _, [], [] => none
  | some whole, [], _ :: exponent => (exponent? exponent).map (⟨whole, ·⟩)
  | some whole, _ :: fraction, exponent => do
    let fraction ← digits? Char.isDigit fraction
    let shift ←
      match exponent with
      | [] => some 0
      | _ :: exponent => exponent? exponent
    return ⟨whole ++ fraction, shift - fraction.length⟩

/-- The number of exactly two digits between two bounds. -/
def isTwoDigits (low high : Nat) : List Char → Bool
  | [a, b] =>
    a.isDigit && b.isDigit &&
      (let n := (a.toNat - 48) * 10 + (b.toNat - 48)
       low ≤ n && n ≤ high)
  | _ => false

/-- Whether a text is a date. -/
def isDate (cs : List Char) : Bool :=
  cs.length == 10 && (cs.take 4).all Char.isDigit && (cs.drop 4).head? == some '-' &&
    isTwoDigits 1 12 ((cs.drop 5).take 2) && (cs.drop 7).head? == some '-' &&
    isTwoDigits 1 31 (cs.drop 8)

/-- Whether a text is a time of day. -/
def isTime (cs : List Char) : Bool :=
  isTwoDigits 0 23 (cs.take 2) && (cs.drop 2).head? == some ':' &&
    isTwoDigits 0 59 ((cs.drop 3).take 2) && (cs.drop 5).head? == some ':' &&
    isTwoDigits 0 60 ((cs.drop 6).take 2) &&
    (match cs.drop 8 with
      | [] => true
      | '.' :: digits => !digits.isEmpty && digits.all Char.isDigit
      | _ => false)

/-- Whether a text is a time of day with or without an offset. -/
def isOffsetTime (cs : List Char) : Bool :=
  isTime cs ||
    (match cs.reverse with
      | 'Z' :: rev => isTime rev.reverse
      | 'z' :: rev => isTime rev.reverse
      | d :: c :: ':' :: b :: a :: sign :: rev =>
        (sign == '+' || sign == '-') && isTwoDigits 0 23 [a, b] && isTwoDigits 0 59 [c, d] &&
          isTime rev.reverse
      | _ => false)

/-- Whether a text is a date, a time, or both. -/
def isDateTime (cs : List Char) : Bool :=
  isDate cs || isTime cs ||
    (isDate (cs.take 10) &&
      (match cs.drop 10 with
        | c :: time => (c == 'T' || c == 't' || c == ' ') && isOffsetTime time
        | [] => false))

/-- The value of a word that is a number in decimal notation or a date. A floating-point number
above the largest double is an error; one below the least is not. -/
def ofDigits? (cs : List Char) : Option Toml :=
  let (negative, body) := splitSign cs
  match decimal? body with
  | some d => if d.isInfinite && !negative then none else some .float
  | none =>
    if isDateTime cs then some .date
    else
      (whole? body).bind fun digits =>
        let n : Int := number 10 digits
        integer? (if negative then -n else n)

/-- The value of a word: a boolean, a number or a date. -/
def ofWord? (cs : List Char) : Option Toml :=
  match cs with
  | '0' :: 'x' :: rest => inBase? 16 isHex rest
  | '0' :: 'o' :: rest => inBase? 8 isOctal rest
  | '0' :: 'b' :: rest => inBase? 2 isBinary rest
  | _ =>
    let body := (splitSign cs).2
    if cs == "true".toList then some (.bool true)
    else if cs == "false".toList then some (.bool false)
    else if body == "inf".toList || body == "nan".toList then some .float
    else ofDigits? cs

/-- Characters of numbers, booleans and dates. -/
def isWordChar (c : Char) : Bool :=
  c.isAlphanum || c == '_' || c == '+' || c == '-' || c == '.' || c == ':'

/-- Reads a boolean, a number or a date; a date may be set off from its time by a space. -/
def readWord (cs : List Char) : Option (Toml × List Char) :=
  let (word, rest) := cs.span isWordChar
  let long : Option (Toml × List Char) :=
    match rest with
    | ' ' :: rest =>
      let (time, rest) := rest.span isWordChar
      if isDate word && isOffsetTime time then some (.date, rest) else none
    | _ => none
  match long with
  | some read => some read
  | none => (ofWord? word).map (·, rest)

end Toml
end HybridObjects
