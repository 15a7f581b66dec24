import HybridObjects.Text.WordChar

/-!
# HybridObjects.Text.Ident

Identifiers inside clause text. A clause is dynamic-logic source text; parameters are instantiated
and derivatives renamed in it identifier by identifier, so `xs` is left alone when `x` is
replaced.

* `pieces`          — a text cut into its identifiers and the characters between them.
* `Piece.text`      — the characters of a piece; the pieces of a text give the text back.
* `substitute`      — every identifier with a replacement is replaced.
* `mentions`        — whether a name is one of the identifiers of a text.
* `renamePrimes`    — `x'` becomes `xder` for the variables listed.

An identifier starts with an ASCII letter or an underscore that no word character precedes, goes
on as long as ASCII letters, digits and underscores follow, and takes one prime if there is one.
-/

namespace HybridObjects
namespace Text

/-- ASCII letters and the underscore open an identifier. -/
def isIdentStart (c : Char) : Bool :=
  c.isAlpha || c == '_'

/-- ASCII letters, digits and the underscore continue an identifier. -/
def isIdentChar (c : Char) : Bool :=
  c.isAlphanum || c == '_'

/-- A part of a text: an identifier, with or without a prime, or a character outside of all
identifiers. -/
inductive Piece where
  | ident (name : List Char) (primed : Bool)
  | other (c : Char)
deriving DecidableEq

/-- The characters of a piece. -/
def Piece.text : Piece → List Char
  | .ident name true => name ++ ['\'']
  | .ident name false => name
  | .other c => [c]

/-- Where the scanner stands: inside an identifier whose characters, last first, are known, or
outside of all identifiers, after a word character or not. -/
inductive ScanState where
  | inside (rev : List Char)
  | outside (afterWord : Bool)

/-- The pieces of the rest of a text, by the state reached before it. -/
def scan : ScanState → List Char → List Piece
  | .inside rev, [] => [.ident rev.reverse false]
  | .outside _, [] => []
  | .inside rev, c :: cs =>
    if isIdentChar c then
      scan (.inside (c :: rev)) cs
    else if c = '\'' then
      .ident rev.reverse true :: scan (.outside false) cs
    else
      .ident rev.reverse false :: .other c :: scan (.outside (isWordChar c)) cs
  | .outside afterWord, c :: cs =>
    if isIdentStart c && !afterWord then
      scan (.inside [c]) cs
    else
      .other c :: scan (.outside (isWordChar c)) cs

/-- The pieces of a text. -/
def pieces (cs : List Char) : List Piece :=
  scan (.outside false) cs

/-- The text that a list of pieces makes up. -/
def unpieces (ps : List Piece) : List Char :=
  ps.flatMap Piece.text

/-- A text with each of its identifiers, prime included, replaced by what `f` says. -/
def mapIdents (f : List Char → List Char) (cs : List Char) : List Char :=
  (pieces cs).flatMap fun p =>
    match p with
    | .ident _ _ => f p.text
    | .other c => [c]

/-- An atomic text needs no parentheses when it stands for an identifier: it is not empty and has
only ASCII letters, digits, underscores, points and primes. -/
def isAtomic (cs : List Char) : Bool :=
  !cs.isEmpty && cs.all fun c => isIdentChar c || c == '.' || c == '\''

/-- A text as it stands in the place of an identifier. -/
def asOperand (cs : List Char) : List Char :=
  if isAtomic cs then cs else '(' :: cs ++ [')']

end Text

/-- Replacements for identifiers; the first entry of a name counts. -/
abbrev Substitution := List (String × String)

namespace Substitution

/-- The substitution that also replaces `name`, by `text` and no longer by anything else. -/
def insert (sub : Substitution) (name text : String) : Substitution :=
  (name, text) :: sub.filter fun entry => entry.1 != name

/-- The replacement of an identifier, or the identifier itself. -/
def apply (sub : Substitution) (token : List Char) : List Char :=
  match sub.lookup (String.ofList token) with
  | some text => Text.asOperand text.toList
  | none => token

end Substitution

/-- The text with every identifier that has a replacement replaced by it, in parentheses unless
the replacement is atomic. All identifiers are replaced at once. -/
def substitute (sub : Substitution) (text : String) : String :=
  String.ofList (Text.mapIdents sub.apply text.toList)

/-- Whether `name` is one of the identifiers of a text, prime included. -/
def mentions (text name : String) : Bool :=
  (Text.pieces text.toList).any fun p =>
    match p with
    | .ident _ _ => p.text == name.toList
    | .other _ => false

/-- The name that stands for `x'` in predicate definitions. -/
def derivativeName (var : String) : String :=
  var ++ "der"

/-- The text with `x'` spelled `xder` for every `x` of `vars`. -/
def renamePrimes (vars : List String) (text : String) : String :=
  String.ofList <| (Text.pieces text.toList).flatMap fun p =>
    match p with
    | .ident name true =>
      if vars.contains (String.ofList name) then (derivativeName (String.ofList name)).toList
      else p.text
    | _ => p.text

end HybridObjects
