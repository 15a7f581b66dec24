import HybridObjects.Logic.Printer
import Mathlib.Tactic.Tauto

/-!
# HybridObjects.Proofs.Tokens

The tokens of dynamic-logic text. A text is cut from left to right, and each token is as long as it
can be: a word is a longest run of identifier characters, a number one of digits and points, and a
symbol of two characters is never read as two. Blanks only separate.

* `Token.first?`, `Lexes` — the token at the head of a text, and the tokens of a text.
* `Lexes.unique`          — a text has at most one list of tokens.
* `Spaced`                — lists of tokens and blanks that do not run together when written out.
* `Spaced.lexes`          — the tokens of such a list are the tokens of its text.
-/

namespace HybridObjects

open Text (isIdentStart isIdentChar)

/-! ## Symbols, words and numbers -/

inductive Symbol where
  | verum
  | falsum
  | skip
  | lparen
  | rparen
  | lbracket
  | rbracket
  | lbrace
  | rbrace
  | comma
  | semicolon
  | prime
  | not
  | and
  | or
  | implies
  | exist
  | becomes
  | test
  | choice
  | arith (op : ArithOp)
  | cmp (op : CmpOp)
deriving DecidableEq

namespace Symbol

def spelling : Symbol → List Char
  | .verum => ['t', 'r', 'u', 'e']
  | .falsum => ['f', 'a', 'l', 's', 'e']
  | .skip => ['s', 'k', 'i', 'p']
  | .lparen => ['(']
  | .rparen => [')']
  | .lbracket => ['[']
  | .rbracket => [']']
  | .lbrace => ['\x7b']
  | .rbrace => ['\x7d']
  | .comma => [',']
  | .semicolon => [';']
  | .prime => ['\'']
  | .not => ['!']
  | .and => ['&']
  | .or => ['|']
  | .implies => ['-', '>']
  | .exist => ['\\', 'e', 'x', 'i', 's', 't', 's']
  | .becomes => [':', '=']
  | .test => ['?']
  | .choice => ['+', '+']
  | .arith .add => ['+']
  | .arith .sub => ['-']
  | .arith .mul => ['*']
  | .arith .div => ['/']
  | .cmp .lt => ['<']
  | .cmp .le => ['<', '=']
  | .cmp .gt => ['>']
  | .cmp .ge => ['>', '=']
  | .cmp .eq => ['=']
  | .cmp .ne => ['!', '=']

def isKeyword : Symbol → Bool
  | .verum | .falsum | .skip => true
  | _ => false

/-- Symbols that another symbol may be the beginning of when they stand right after it. -/
def isTail : Symbol → Bool
  | .choice | .arith .add | .cmp .gt | .cmp .ge | .cmp .eq => true
  | _ => false

end Symbol

inductive Token where
  | word (name : String)
  | number (text : String)
  | symbol (s : Symbol)
deriving DecidableEq

/-- A name: an identifier that is no keyword. -/
def isName (name : String) : Bool :=
  match name.toList with
  | [] => false
  | c :: cs => isIdentStart c && cs.all isIdentChar && !(["true", "false", "skip"].contains name)

def isNumberChar (c : Char) : Bool :=
  c.isDigit || c == '.'

/-- An unsigned decimal number: digits, and possibly a point and more digits. -/
def isDecimal (text : String) : Bool :=
  !(text.toList.takeWhile Char.isDigit).isEmpty &&
    match text.toList.dropWhile Char.isDigit with
    | [] => true
    | c :: fraction => c == '.' && !fraction.isEmpty && fraction.all Char.isDigit

namespace Token

def spelling : Token → List Char
  | .word name => name.toList
  | .number text => text.toList
  | .symbol s => s.spelling

def IsValid : Token → Prop
  | .word name => isName name = true
  | .number text => isDecimal text = true
  | .symbol _ => True

/-- A run of identifier characters as a token. -/
def ofRun (cs : List Char) : Token :=
  match String.ofList cs with
  | "true" => .symbol .verum
  | "false" => .symbol .falsum
  | "skip" => .symbol .skip
  | name => .word name

/-- The longer one of two symbols if the text goes on with the given character, else the shorter. -/
def longer (c : Char) (long short : Symbol) : List Char → Symbol × List Char
  | [] => (short, [])
  | d :: cs => if d = c then (long, cs) else (short, d :: cs)

/-- The symbol at the head of a text that starts with neither a word nor a number. -/
def symbol? : List Char → Option (Symbol × List Char)
  | '(' :: cs => some (.lparen, cs)
  | ')' :: cs => some (.rparen, cs)
  | '[' :: cs => some (.lbracket, cs)
  | ']' :: cs => some (.rbracket, cs)
  | '\x7b' :: cs => some (.lbrace, cs)
  | '\x7d' :: cs => some (.rbrace, cs)
  | ',' :: cs => some (.comma, cs)
  | ';' :: cs => some (.semicolon, cs)
  | '\'' :: cs => some (.prime, cs)
  | '&' :: cs => some (.and, cs)
  | '|' :: cs => some (.or, cs)
  | '?' :: cs => some (.test, cs)
  | '*' :: cs => some (.arith .mul, cs)
  | '/' :: cs => some (.arith .div, cs)
  | '=' :: cs => some (.cmp .eq, cs)
  | '!' :: cs => some (longer '=' (.cmp .ne) .not cs)
  | '-' :: cs => some (longer '>' .implies (.arith .sub) cs)
  | '+' :: cs => some (longer '+' .choice (.arith .add) cs)
  | '<' :: cs => some (longer '=' (.cmp .le) (.cmp .lt) cs)
  | '>' :: cs => some (longer '=' (.cmp .ge) (.cmp .gt) cs)
  | ':' :: '=' :: cs => some (.becomes, cs)
  | '\\' :: 'e' :: 'x' :: 'i' :: 's' :: 't' :: 's' :: cs => some (.exist, cs)
  | _ => none

/-- The token at the head of a text, and the rest of the text. -/
def first? : List Char → Option (Token × List Char)
  | [] => none
  | c :: cs =>
    if isIdentStart c then
      some (ofRun ((c :: cs).takeWhile isIdentChar), (c :: cs).dropWhile isIdentChar)
    else if c.isDigit then
      some (.number (.ofList ((c :: cs).takeWhile isNumberChar)), (c :: cs).dropWhile isNumberChar)
    else
      (symbol? (c :: cs)).map fun (s, rest) => (.symbol s, rest)

end Token

inductive Lexes : List Char → List Token → Prop where
  | nil : Lexes [] []
  | blank {cs : List Char} {ts : List Token} : Lexes cs ts → Lexes (' ' :: cs) ts
  | token {cs rest : List Char} {t : Token} {ts : List Token} :
      Token.first? cs = some (t, rest) → Lexes rest ts → Lexes cs (t :: ts)

theorem Token.first?_blank (cs : List Char) : Token.first? (' ' :: cs) = none := rfl

theorem Lexes.unique {cs : List Char} {ts us : List Token} (h : Lexes cs ts) (h' : Lexes cs us) :
    ts = us := by
  induction h generalizing us with
  | nil =>
    cases h' with
    | nil => rfl
    | token hfirst => cases hfirst
  | blank _ ih =>
    cases h' with
    | blank h' => exact ih h'
    | token hfirst =>
      -- a blank starts no token
      rw [Token.first?_blank] at hfirst
      cases hfirst
  | token hfirst _ ih =>
    cases h' with
    | nil => cases hfirst
    | blank =>
      rw [Token.first?_blank] at hfirst
      cases hfirst
    | token hfirst' h' =>
      rw [hfirst] at hfirst'
      cases hfirst'
      rw [ih h']

/-! ## Text made of tokens and blanks -/

/-- What a text is made of. -/
inductive Lexeme where
  | blank
  | token (t : Token)

/-- Tokens that consist of identifier characters or of digits and points. -/
def Token.isRun : Token → Bool
  | .word _ | .number _ => true
  | .symbol s => s.isKeyword

namespace Lexeme

def spelling : Lexeme → List Char
  | .blank => [' ']
  | .token t => t.spelling

def token? : Lexeme → Option Token
  | .blank => none
  | .token t => some t

def isRun : Lexeme → Bool
  | .blank => false
  | .token t => t.isRun

def isTail : Lexeme → Bool
  | .token (.symbol s) => s.isTail
  | _ => false

def render (l : List Lexeme) : List Char :=
  l.flatMap spelling

def tokens (l : List Lexeme) : List Token :=
  l.filterMap token?

/-- Any symbol may stand right before these lexemes. -/
def opens : List Lexeme → Bool
  | [] => true
  | u :: _ => !u.isTail

/-- Any token may stand right before these lexemes. -/
def breaks : List Lexeme → Bool
  | [] => true
  | u :: _ => !u.isTail && !u.isRun

end Lexeme

/-- Tokens and blanks of which no two tokens run together. -/
inductive Spaced : List Lexeme → Prop where
  | nil : Spaced []
  | blank {l : List Lexeme} : Spaced l → Spaced (.blank :: l)
  | run {t : Token} {l : List Lexeme} : t.IsValid → t.isRun = true → Lexeme.breaks l = true →
      Spaced l → Spaced (.token t :: l)
  | symbol {s : Symbol} {l : List Lexeme} : s.isKeyword = false → Lexeme.opens l = true →
      Spaced l → Spaced (.token (.symbol s) :: l)

theorem Lexeme.opens_of_breaks {l : List Lexeme} (h : breaks l = true) : opens l = true := by
  cases l with
  | nil => rfl
  | cons u l =>
    simp only [breaks, Bool.and_eq_true] at h
    exact h.1

/-! ### Where runs end -/

theorem isIdentChar_of_isIdentStart {c : Char} (h : isIdentStart c = true) :
    isIdentChar c = true := by
  simp only [isIdentStart, isIdentChar, Bool.or_eq_true, Char.isAlphanum] at h ⊢
  tauto

theorem isIdentStart_eq_false {c : Char} (h : isIdentChar c = false) : isIdentStart c = false := by
  rw [Bool.eq_false_iff]
  intro hstart
  rw [isIdentChar_of_isIdentStart hstart] at h
  cases h

theorem isIdentChar_of_isDigit {c : Char} (h : c.isDigit = true) : isIdentChar c = true := by
  rw [isIdentChar, Char.isAlphanum, h, Bool.or_true, Bool.true_or]

theorem isIdentStart_of_isDigit {c : Char} (h : c.isDigit = true) : isIdentStart c = false := by
  have hle : c.toNat ≤ 57 := (Char.isDigit_iff_toNat.mp h).2
  have hne : c ≠ '_' := by
    rintro rfl
    cases h
  have halpha : c.isAlpha = false := by
    rw [Bool.eq_false_iff]
    intro halpha
    rcases (Bool.or_eq_true _ _).mp halpha with hupper | hlower
    · have hge : 65 ≤ c.toNat := (of_decide_eq_true hupper).1
      omega
    · have hge : 97 ≤ c.toNat := of_decide_eq_true ((Bool.and_eq_true _ _).mp hlower).1
      omega
  simp [isIdentStart, halpha, hne]

/-- The head of a text has the property, if there is one. -/
def HeadIs (P : Char → Prop) (cs : List Char) : Prop :=
  ∀ c ∈ cs.head?, P c

theorem takeWhile_run {p : Char → Bool} {run rest : List Char} (hrun : run.all p = true)
    (hrest : HeadIs (p · = false) rest) :
    (run ++ rest).takeWhile p = run ∧ (run ++ rest).dropWhile p = rest := by
  rw [List.all_eq_true] at hrun
  rw [List.takeWhile_append_of_pos hrun, List.dropWhile_append_of_pos hrun]
  cases rest with
  | nil => simp
  | cons c rest =>
    have hc := hrest c rfl
    simp [hc]

theorem Symbol.head_spelling {s : Symbol} (h : s.isKeyword = false) :
    ∃ c cs, s.spelling = c :: cs ∧ isIdentStart c = false ∧ isIdentChar c = false ∧
      isNumberChar c = false ∧ (s.isTail = false → c ∉ ['>', '=', '+']) := by
  cases s with
  | verum | falsum | skip => cases h
  | arith op => cases op <;> exact ⟨_, _, rfl, by decide, by decide, by decide, by decide⟩
  | cmp op => cases op <;> exact ⟨_, _, rfl, by decide, by decide, by decide, by decide⟩
  | _ => exact ⟨_, _, rfl, by decide, by decide, by decide, by decide⟩

theorem exists_of_isName {name : String} (h : isName name = true) :
    ∃ c cs, name.toList = c :: cs ∧ isIdentStart c = true ∧ (c :: cs).all isIdentChar = true ∧
      name ∉ ["true", "false", "skip"] := by
  unfold isName at h
  split at h
  · cases h
  · next c cs hname =>
    simp only [Bool.and_eq_true, Bool.not_eq_true'] at h
    refine ⟨c, cs, hname, h.1.1, ?_, by simpa using h.2⟩
    rw [List.all_cons, isIdentChar_of_isIdentStart h.1.1, h.1.2, Bool.and_self]

theorem exists_of_isDecimal {text : String} (h : isDecimal text = true) :
    ∃ c cs, text.toList = c :: cs ∧ c.isDigit = true ∧ (c :: cs).all isNumberChar = true := by
  have hdigits : ∀ ds : List Char, ds.all Char.isDigit = true → ds.all isNumberChar = true := by
    intro ds hds
    simp only [List.all_eq_true] at hds ⊢
    intro d hd
    rw [isNumberChar, hds d hd, Bool.true_or]
  simp only [isDecimal, Bool.and_eq_true] at h
  obtain ⟨hwhole, hrest⟩ := h
  have hrest : (text.toList.dropWhile Char.isDigit).all isNumberChar = true := by
    -- nothing is left after the first digits, or a point and more digits
    split at hrest
    · next hnil =>
      rw [hnil]
      rfl
    · next c fraction hcons =>
      simp only [Bool.and_eq_true, beq_iff_eq] at hrest
      rw [hcons, hrest.1.1, List.all_cons, hdigits fraction hrest.2]
      rfl
  have hall : text.toList.all isNumberChar = true := by
    rw [← List.takeWhile_append_dropWhile (p := Char.isDigit) (l := text.toList), List.all_append,
      hrest, hdigits _ List.all_takeWhile, Bool.and_self]
  cases htext : text.toList with
  | nil =>
    rw [htext] at hwhole
    cases hwhole
  | cons c cs =>
    rw [htext] at hall hwhole
    refine ⟨c, cs, rfl, ?_, hall⟩
    cases hc : c.isDigit with
    | true => rfl
    | false => simp [hc] at hwhole

/-- What may follow a run: no character that would prolong it. -/
theorem Lexeme.headIs_of_breaks {l : List Lexeme} (h : breaks l = true) :
    HeadIs (fun c => isIdentChar c = false ∧ isNumberChar c = false) (render l) := by
  intro c hc
  cases l with
  | nil => cases hc
  | cons u l =>
    simp only [breaks, Bool.and_eq_true, Bool.not_eq_true'] at h
    cases u with
    | blank =>
      cases hc
      decide
    | token t =>
      cases t with
      | word | number => cases h.2
      | symbol s =>
        obtain ⟨d, ds, hspelling, -, hident, hnumber, -⟩ := Symbol.head_spelling h.2
        simp only [render, List.flatMap_cons, spelling, Token.spelling, hspelling, List.cons_append,
          List.head?_cons, Option.mem_def, Option.some.injEq] at hc
        rw [← hc]
        exact ⟨hident, hnumber⟩

theorem Token.head_spelling {t : Token} (hvalid : t.IsValid) (h : t.isRun = true) :
    ∃ c cs, t.spelling = c :: cs ∧ isIdentChar c = true := by
  cases t with
  | word name =>
    obtain ⟨c, cs, hname, hstart, -⟩ := exists_of_isName hvalid
    exact ⟨c, cs, hname, isIdentChar_of_isIdentStart hstart⟩
  | number text =>
    obtain ⟨c, cs, htext, hdigit, -⟩ := exists_of_isDecimal hvalid
    exact ⟨c, cs, htext, isIdentChar_of_isDigit hdigit⟩
  | symbol s =>
    cases s with
    | verum | falsum | skip => exact ⟨_, _, rfl, by decide⟩
    | _ => cases h

/-- What may follow a symbol: no character that would prolong it. -/
theorem Spaced.headIs_of_opens {l : List Lexeme} (hl : Spaced l) (h : Lexeme.opens l = true) :
    HeadIs (· ∉ ['>', '=', '+']) (Lexeme.render l) := by
  intro c hc
  cases hl with
  | nil => cases hc
  | blank =>
    cases hc
    decide
  | @run t l hvalid hrun =>
    obtain ⟨d, ds, hspelling, hident⟩ := Token.head_spelling hvalid hrun
    simp only [Lexeme.render, List.flatMap_cons, Lexeme.spelling, hspelling, List.cons_append,
      List.head?_cons, Option.mem_def, Option.some.injEq] at hc
    rw [← hc]
    intro hmem
    simp only [List.mem_cons, List.not_mem_nil, or_false] at hmem
    rcases hmem with rfl | rfl | rfl <;> cases hident
  | @symbol s l hs =>
    obtain ⟨d, ds, hspelling, -, -, -, htail⟩ := Symbol.head_spelling hs
    simp only [Lexeme.render, List.flatMap_cons, Lexeme.spelling, Token.spelling, hspelling,
      List.cons_append, List.head?_cons, Option.mem_def, Option.some.injEq] at hc
    rw [← hc]
    exact htail (by simpa [Lexeme.opens, Lexeme.isTail] using h)

/-! ### The token at the head -/

namespace Token

theorem ofRun_of_isName {name : String} (h : isName name = true) :
    ofRun name.toList = .word name := by
  obtain ⟨c, cs, -, -, -, hkeyword⟩ := exists_of_isName h
  simp only [List.mem_cons, List.not_mem_nil, or_false, not_or] at hkeyword
  rw [ofRun, String.ofList_toList]
  split <;> simp_all

theorem first?_ident {d : Char} {ds cs : List Char} (hstart : isIdentStart d = true)
    (hall : (d :: ds).all isIdentChar = true) (hcs : HeadIs (isIdentChar · = false) cs) :
    first? (d :: ds ++ cs) = some (ofRun (d :: ds), cs) := by
  obtain ⟨htake, hdrop⟩ := takeWhile_run hall hcs
  rw [List.cons_append, first?, if_pos hstart, ← List.cons_append, htake, hdrop]

theorem first?_run {t : Token} (hvalid : t.IsValid) (h : t.isRun = true) {cs : List Char}
    (hcs : HeadIs (fun c => isIdentChar c = false ∧ isNumberChar c = false) cs) :
    first? (t.spelling ++ cs) = some (t, cs) := by
  have hident : HeadIs (isIdentChar · = false) cs := fun c hc => (hcs c hc).1
  have hnumber : HeadIs (isNumberChar · = false) cs := fun c hc => (hcs c hc).2
  cases t with
  | word name =>
    obtain ⟨d, ds, hname, hstart, hall, -⟩ := exists_of_isName hvalid
    rw [spelling, hname, first?_ident hstart hall hident, ← hname, ofRun_of_isName hvalid]
  | number text =>
    obtain ⟨d, ds, htext, hdigit, hall⟩ := exists_of_isDecimal hvalid
    obtain ⟨htake, hdrop⟩ := takeWhile_run hall hnumber
    rw [spelling, htext, List.cons_append, first?, if_neg (by simp [isIdentStart_of_isDigit hdigit]),
      if_pos hdigit, ← List.cons_append, htake, hdrop, ← htext, String.ofList_toList]
  | symbol s =>
    cases s with
    | verum | falsum | skip => exact first?_ident (by decide) (by decide) hident
    | _ => cases h

theorem longer_eq {c : Char} {long short : Symbol} {cs : List Char} (h : HeadIs (· ≠ c) cs) :
    longer c long short cs = (short, cs) := by
  cases cs with
  | nil => rfl
  | cons d cs => rw [longer, if_neg (h d rfl)]

theorem symbol?_spelling {s : Symbol} (h : s.isKeyword = false) {cs : List Char}
    (hcs : HeadIs (· ∉ ['>', '=', '+']) cs) : symbol? (s.spelling ++ cs) = some (s, cs) := by
  have hgt : HeadIs (· ≠ '>') cs := fun c hc heq => hcs c hc (by simp [heq])
  have heq : HeadIs (· ≠ '=') cs := fun c hc heq => hcs c hc (by simp [heq])
  have hplus : HeadIs (· ≠ '+') cs := fun c hc heq => hcs c hc (by simp [heq])
  cases s with
  | verum | falsum | skip => cases h
  | not => exact congrArg some (longer_eq heq)
  | arith op =>
    cases op with
    | add => exact congrArg some (longer_eq hplus)
    | sub => exact congrArg some (longer_eq hgt)
    | mul | div => rfl
  | cmp op =>
    cases op with
    | lt | gt => exact congrArg some (longer_eq heq)
    | _ => rfl
  | _ => rfl

theorem first?_symbol {s : Symbol} (h : s.isKeyword = false) {cs : List Char}
    (hcs : HeadIs (· ∉ ['>', '=', '+']) cs) :
    first? (s.spelling ++ cs) = some (.symbol s, cs) := by
  obtain ⟨c, ds, hspelling, hstart, hident, hnumber, -⟩ := Symbol.head_spelling h
  have hdigit : c.isDigit = false := by
    rw [isNumberChar, Bool.or_eq_false_iff] at hnumber
    exact hnumber.1
  have hsymbol := symbol?_spelling h hcs
  rw [hspelling, List.cons_append] at hsymbol ⊢
  rw [first?, if_neg (by simp [hstart]), if_neg (by simp [hdigit]), hsymbol]
  rfl

end Token

theorem Spaced.lexes {l : List Lexeme} (h : Spaced l) :
    Lexes (Lexeme.render l) (Lexeme.tokens l) := by
  induction h with
  | nil => exact .nil
  | blank _ ih => exact .blank ih
  | run hvalid hrun hbreaks _ ih =>
    exact .token (Token.first?_run hvalid hrun (Lexeme.headIs_of_breaks hbreaks)) ih
  | symbol hs hopens hl ih =>
    exact .token (Token.first?_symbol hs (hl.headIs_of_opens hopens)) ih

end HybridObjects
