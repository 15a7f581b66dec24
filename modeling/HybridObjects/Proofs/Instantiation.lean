import HybridObjects.Proofs.ReadingBack
import HybridObjects.Proofs.Unfolding

/-!
# HybridObjects.Proofs.Instantiation

Instantiation of clause text is substitution of terms. `substitute_text_reads_replace`: to replace
identifiers in the text of a propositional formula by the texts of terms gives a text with exactly
one reading, and this is the formula with the terms in the place of its variables, but for the
association of conjunctions and disjunctions.

The text of such a formula is a list of chunks: identifiers, and the lexemes between them. What the
replacement does to the characters is read off the pieces of the chunks, and what the result says is
read off their tokens.

* `Formula.isPlain`          — propositional formulas over comparisons.
* `Chunk`, `Phrase`          — texts with their identifiers marked, and how they are put together.
* `Phrase.mapIdents_spelled` — replacing identifiers acts chunk by chunk.
* `Formula.isRead_spelled`   — with terms for identifiers the chunks are read as the formula with
  terms for variables.
-/

namespace HybridObjects

open Lexeme (sym infixed render tokens)
open Text (Piece isIdent isIdentStart isIdentChar isWordChar pieces unpieces mapIdents Cut Stops)

/-! ## Propositional formulas -/

/-- A variable of a clause: an identifier that is no truth value. -/
def isVariable (name : String) : Bool :=
  isIdent name.toList && name != "true" && name != "false"

def Term.isPlain : Term → Bool
  | .var name | .primed name => isVariable name
  | .num text => isDecimal text
  | .bin _ lhs rhs => lhs.isPlain && rhs.isPlain
  | .neg arg => arg.isPlain

/-- Comparisons and truth values under negations, conjunctions, disjunctions and implications. -/
def Formula.isPlain : Formula → Bool
  | .verum | .falsum => true
  | .cmp _ lhs rhs => lhs.isPlain && rhs.isPlain
  | .not arg => arg.isPlain
  | .and lhs rhs | .or lhs rhs | .implies lhs rhs => lhs.isPlain && rhs.isPlain
  | _ => false

def Actuals.isPlain (sub : Actuals) : Bool :=
  sub.all fun entry => isVariable entry.1 && entry.2.isPlain

theorem isIdent_of_isVariable {x : String} (h : isVariable x = true) : isIdent x.toList = true := by
  simp only [isVariable, Bool.and_eq_true] at h
  exact h.1.1

theorem Actuals.isPlain_iff {sub : Actuals} :
    sub.isPlain = true ↔ ∀ entry ∈ sub, isVariable entry.1 = true ∧ entry.2.isPlain = true := by
  simp [isPlain]

theorem Actuals.isPlain_of_lookup {sub : Actuals} (h : sub.isPlain = true) {x : String} {t : Term}
    (hlookup : sub.lookup x = some t) : isVariable x = true ∧ t.isPlain = true :=
  isPlain_iff.mp h (x, t) (mem_of_lookup hlookup)

/-! ## Tokens of clauses -/

/-- No programs occur in a clause, and `skip` is a name like any other. -/
def Token.inClause : Token → Token
  | .symbol .skip => .word "skip"
  | t => t

def Lexeme.inClause : Lexeme → Lexeme
  | .blank => .blank
  | .token t => .token t.inClause

/-- An identifier as it is found in a text. -/
abbrev Lexeme.run (x : String) : Lexeme := .token (.ofRun x.toList)

theorem Lexeme.tokens_map_inClause (l : List Lexeme) :
    tokens (l.map inClause) = (tokens l).map Token.inClause := by
  induction l with
  | nil => rfl
  | cons u l ih => cases u <;> simp [inClause, ih]

namespace Token

theorem spelling_ofRun (cs : List Char) : (ofRun cs).spelling = cs := by
  rw [ofRun]
  split
  case h_4 => rw [spelling, String.toList_ofList]
  all_goals
    next h =>
    rw [← String.toList_ofList (l := cs), h]
    rfl

theorem isValid_ofRun {x : String} (h : isIdent x.toList = true) :
    (ofRun x.toList).IsValid ∧ (ofRun x.toList).isRun = true := by
  rw [ofRun, String.ofList_toList]
  split
  case h_4 htrue hfalse hskip =>
    obtain ⟨c, cs, hx, hstart, hall⟩ := Text.exists_of_isIdent h
    refine ⟨?_, rfl⟩
    rw [IsValid, isName, hx]
    simp only [hstart, hall, List.contains_eq_mem, List.mem_cons, List.not_mem_nil, or_false,
      Bool.true_and, Bool.not_eq_true', decide_eq_false_iff_not, not_or]
    exact ⟨htrue, hfalse, hskip⟩
  all_goals exact ⟨trivial, rfl⟩

theorem inClause_ofRun {x : String} (h : isVariable x = true) :
    (ofRun x.toList).inClause = .word x := by
  simp only [isVariable, Bool.and_eq_true, bne_iff_ne, ne_eq] at h
  rw [ofRun, String.ofList_toList]
  split
  · exact absurd rfl h.1.2
  · exact absurd rfl h.2
  · rfl
  · rfl

end Token

/-! ## Chunks of text -/

/-- A part of a clause text: an identifier, with or without a prime, or lexemes outside of all
identifiers. -/
inductive Chunk where
  | ident (name : String) (primed : Bool)
  | text (l : List Lexeme)

namespace Chunk

/-- The lexemes of a chunk, given what stands for the identifiers without a prime. -/
def lexemes (leaf : String → List Lexeme) : Chunk → List Lexeme
  | .ident name false => leaf name
  | .ident name true => [Lexeme.run name, sym .prime]
  | .text l => l

def pieces : Chunk → List Piece
  | .ident name primed => [.ident name.toList primed]
  | .text l => (render l).map .other

/-- The lexemes of chunks one after the other. -/
def spelled (leaf : String → List Lexeme) (cs : List Chunk) : List Lexeme :=
  cs.flatMap (lexemes leaf)

/-- Every identifier stands for itself. -/
def bare (name : String) : List Lexeme := [Lexeme.run name]

def operand (isBare : Bool) (cs : List Chunk) : List Chunk :=
  if isBare then cs else .text [sym .lparen] :: (cs ++ [.text [sym .rparen]])

variable (leaf : String → List Lexeme)

@[simp] theorem spelled_nil : spelled leaf [] = [] := rfl

@[simp] theorem spelled_cons (c : Chunk) (cs : List Chunk) :
    spelled leaf (c :: cs) = c.lexemes leaf ++ spelled leaf cs := rfl

@[simp] theorem spelled_append (cs ds : List Chunk) :
    spelled leaf (cs ++ ds) = spelled leaf cs ++ spelled leaf ds :=
  List.flatMap_append

@[simp] theorem spelled_operand (isBare : Bool) (cs : List Chunk) :
    spelled leaf (operand isBare cs) = Lexeme.operand isBare (spelled leaf cs) := by
  cases isBare <;> simp [operand, Lexeme.operand, lexemes]

end Chunk

open Chunk (spelled bare)

def Term.chunks : Term → List Chunk
  | .var name => [.ident name false]
  | .num text => [.text [.token (.number text)]]
  | .primed name => [.ident name true]
  | .bin op lhs rhs =>
    Chunk.operand false (lhs.chunks ++ .text (infixed (.arith op)) :: rhs.chunks)
  | .neg arg => .text [sym (.arith .sub)] :: Chunk.operand arg.isAtomic arg.chunks

/-- The chunks of a plain formula. The truth values are identifiers as far as texts go. -/
def Formula.chunks : Formula → List Chunk
  | .verum => [.ident "true" false]
  | .falsum => [.ident "false" false]
  | .cmp op lhs rhs => lhs.chunks ++ .text (infixed (.cmp op)) :: rhs.chunks
  | .not arg => .text [sym .not] :: Chunk.operand arg.isTight arg.chunks
  | .and lhs rhs =>
    Chunk.operand lhs.fitsAnd lhs.chunks ++
      .text (infixed .and) :: Chunk.operand rhs.fitsAnd rhs.chunks
  | .or lhs rhs =>
    Chunk.operand lhs.fitsOr lhs.chunks ++
      .text (infixed .or) :: Chunk.operand rhs.fitsOr rhs.chunks
  | .implies lhs rhs =>
    Chunk.operand lhs.fitsImplies lhs.chunks ++
      .text (infixed .implies) :: Chunk.operand rhs.fitsImplies rhs.chunks
  | _ => []

/-! ### Writing chunks -/

theorem Writes.ident {x : String} (h : isIdent x.toList = true) : Writes (·.write x) (bare x) :=
  .run rfl (Token.spelling_ofRun _) (Text.all_isIdentChar_of_isIdent h)

theorem Term.writes_chunks {t : Term} (h : t.isPlain = true) :
    Writes (Term.write · t) (spelled bare t.chunks) := by
  induction t with
  | var name => exact .ident (isIdent_of_isVariable h)
  | num text => exact .number h
  | primed name =>
    have hprime : Writes (·.write "'") [sym .prime] := .literal rfl (by decide)
    exact (Writes.ident (isIdent_of_isVariable h)).comp hprime
  | bin op lhs rhs ihl ihr =>
    rw [Term.isPlain, Bool.and_eq_true] at h
    have hop : Writes (·.write (" " ++ op.symbol ++ " ")) (infixed (.arith op)) := by
      cases op <;> exact .literal rfl (by decide)
    rw [Term.chunks, Chunk.spelled_operand, Chunk.spelled_append]
    exact ((ihl h.1).comp (hop.comp (ihr h.2))).operand false
  | neg arg ih =>
    rw [Term.chunks, Chunk.spelled_cons, Chunk.spelled_operand]
    exact (ih h).prefixed arg.isAtomic (.literal rfl (by decide)) (.literal rfl (by decide))

theorem Formula.writes_chunks : ∀ {f : Formula}, f.isPlain = true →
    Writes (Formula.write · f) (spelled bare f.chunks)
  | .verum, _ | .falsum, _ => by
    simp only [Formula.write]
    exact .literal rfl (by decide)
  | .cmp op lhs rhs, h => by
    simp only [Formula.write, Formula.chunks, Formula.isPlain, Bool.and_eq_true,
      Chunk.spelled_append] at h ⊢
    have hop : Writes (·.write (" " ++ op.symbol ++ " ")) (infixed (.cmp op)) := by
      cases op <;> exact .literal rfl (by decide)
    exact (Term.writes_chunks h.1).comp (hop.comp (Term.writes_chunks h.2))
  | .not arg, h => by
    simp only [Formula.write, Formula.chunks, Formula.isPlain, Chunk.spelled_cons,
      Chunk.spelled_operand] at h ⊢
    exact (Formula.writes_chunks h).prefixed arg.isTight (.literal rfl (by decide))
      (.literal rfl (by decide))
  | .and lhs rhs, h => by
    simp only [Formula.write, Formula.chunks, Formula.isPlain, Bool.and_eq_true,
      Chunk.spelled_append, Chunk.spelled_cons, Chunk.spelled_operand] at h ⊢
    have hop : Writes (·.write " & ") (infixed .and) := .literal rfl (by decide)
    exact ((Formula.writes_chunks h.1).operand _).comp
      (hop.comp ((Formula.writes_chunks h.2).operand _))
  | .or lhs rhs, h => by
    simp only [Formula.write, Formula.chunks, Formula.isPlain, Bool.and_eq_true,
      Chunk.spelled_append, Chunk.spelled_cons, Chunk.spelled_operand] at h ⊢
    have hop : Writes (·.write " | ") (infixed .or) := .literal rfl (by decide)
    exact ((Formula.writes_chunks h.1).operand _).comp
      (hop.comp ((Formula.writes_chunks h.2).operand _))
  | .implies lhs rhs, h => by
    simp only [Formula.write, Formula.chunks, Formula.isPlain, Bool.and_eq_true,
      Chunk.spelled_append, Chunk.spelled_cons, Chunk.spelled_operand] at h ⊢
    have hop : Writes (·.write " -> ") (infixed .implies) := .literal rfl (by decide)
    exact ((Formula.writes_chunks h.1).operand _).comp
      ((hop.singleLine fun w => w.newline.line "->").comp
        ((Formula.writes_chunks h.2).operand _))

theorem Term.toList_text {t : Term} (h : t.isPlain = true) :
    t.text.toList = render (spelled bare t.chunks) :=
  (Term.writes_chunks h _ _ .empty).text

theorem Formula.toList_text {f : Formula} (h : f.isPlain = true) :
    f.text.toList = render (spelled bare f.chunks) :=
  (Formula.writes_chunks h _ _ .empty).text

/-! ## Phrases -/

/-- Operators, connectives and parentheses: symbols without a character of an identifier. -/
def Symbol.isSign : Symbol → Bool
  | .lparen | .rparen | .not | .and | .or | .implies | .arith _ | .cmp _ => true
  | _ => false

/-- How the chunks of terms and formulas are put together. -/
inductive Phrase : List Chunk → Prop where
  | ident {x : String} (primed : Bool) : isIdent x.toList = true → Phrase [.ident x primed]
  | number {n : String} : isDecimal n = true → Phrase [.text [.token (.number n)]]
  | infixed {cs ds : List Chunk} {s : Symbol} : s.isSign = true → Phrase cs → Phrase ds →
      Phrase (cs ++ .text (infixed s) :: ds)
  | signed {cs : List Chunk} {s : Symbol} : s.isSign = true → s.isTail = false → Phrase cs →
      Phrase (.text [sym s] :: cs)
  | operand {cs : List Chunk} (isBare : Bool) : Phrase cs → Phrase (Chunk.operand isBare cs)

theorem Term.phrase {t : Term} (h : t.isPlain = true) : Phrase t.chunks := by
  induction t with
  | var name => exact .ident false (isIdent_of_isVariable h)
  | num text => exact .number h
  | primed name => exact .ident true (isIdent_of_isVariable h)
  | bin op lhs rhs ihl ihr =>
    rw [Term.isPlain, Bool.and_eq_true] at h
    exact .operand false (.infixed rfl (ihl h.1) (ihr h.2))
  | neg arg ih => exact .signed rfl rfl (.operand _ (ih h))

theorem Formula.phrase : ∀ {f : Formula}, f.isPlain = true → Phrase f.chunks
  | .verum, _ | .falsum, _ => .ident false (by decide)
  | .cmp op lhs rhs, h => by
    rw [Formula.isPlain, Bool.and_eq_true] at h
    exact .infixed rfl (Term.phrase h.1) (Term.phrase h.2)
  | .not arg, h => .signed rfl rfl (.operand _ (Formula.phrase h))
  | .and lhs rhs, h | .or lhs rhs, h | .implies lhs rhs, h => by
    rw [Formula.isPlain, Bool.and_eq_true] at h
    exact .infixed rfl (.operand _ (Formula.phrase h.1)) (.operand _ (Formula.phrase h.2))

theorem Symbol.isKeyword_of_isSign {s : Symbol} (h : s.isSign = true) : s.isKeyword = false := by
  cases s with
  | verum | falsum | skip => cases h
  | _ => rfl

/-- The lexemes of a phrase keep apart, whatever stands for its identifiers. -/
theorem Phrase.stands {leaf : String → List Lexeme}
    (hleaf : ∀ x, isIdent x.toList = true → Stands (leaf x)) {cs : List Chunk} (h : Phrase cs) :
    Stands (spelled leaf cs) := by
  induction h with
  | @ident x primed hx =>
    cases primed with
    | false => simpa [Chunk.lexemes] using hleaf x hx
    | true =>
      obtain ⟨hvalid, hrun⟩ := Token.isValid_ofRun hx
      exact (Stands.run hvalid hrun).joined .nil rfl rfl
  | number hn => exact .run hn rfl
  | infixed hs _ _ ihl ihr =>
    simpa [Chunk.lexemes] using ihl.infixed ihr (Symbol.isKeyword_of_isSign hs)
  | signed hs htail _ ih => exact Stands.nil.joined ih (Symbol.isKeyword_of_isSign hs) htail
  | operand isBare _ ih =>
    rw [Chunk.spelled_operand]
    exact ih.operand isBare

/-! ### The pieces of a phrase -/

open Text (Sits)

theorem Symbol.separates_spelling {s : Symbol} (h : s.isSign = true) :
    ∃ c cs, s.spelling = c :: cs ∧ (c :: cs).all Text.separates = true := by
  cases s with
  | lparen | rparen | not | and | or | implies => exact ⟨_, _, rfl, by decide⟩
  | arith op => cases op <;> exact ⟨_, _, rfl, by decide⟩
  | cmp op => cases op <;> exact ⟨_, _, rfl, by decide⟩
  | _ => cases h

theorem isIdentStart_of_isNumberChar {c : Char} (h : isNumberChar c = true) :
    isIdentStart c = false := by
  rcases (Bool.or_eq_true _ _).mp h with hdigit | hpoint
  · exact isIdentStart_of_isDigit hdigit
  · obtain rfl := eq_of_beq hpoint
    rfl

theorem Phrase.sits {cs : List Chunk} (h : Phrase cs) : Sits (cs.flatMap Chunk.pieces) := by
  induction h with
  | ident primed hx => exact .ident hx primed
  | @number n hn =>
    obtain ⟨c, cs, htext, -, hall⟩ := exists_of_isDecimal hn
    have hpieces : [Chunk.text [.token (.number n)]].flatMap Chunk.pieces =
        n.toList.map Piece.other := by
      simp [Chunk.pieces, render, Lexeme.spelling, Token.spelling]
    rw [hpieces, htext]
    exact .others fun d hd => isIdentStart_of_isNumberChar (List.all_eq_true.mp hall d hd)
  | @infixed _ _ s hs _ _ ihl ihr =>
    obtain ⟨c, cs, hspelling, hseparates⟩ := Symbol.separates_spelling hs
    have hblank : Text.separates ' ' = true := by decide
    have hall : (' ' :: (s.spelling ++ [' '])).all Text.separates = true := by
      rw [hspelling, List.all_cons, List.all_append, hseparates, hblank]
      rfl
    simpa [Chunk.pieces, render, Lexeme.infixed, Lexeme.spelling, Token.spelling] using
      ihl.separated ihr hall
  | @signed _ s hs _ _ ih =>
    obtain ⟨c, cs, hspelling, hseparates⟩ := Symbol.separates_spelling hs
    simpa [Chunk.pieces, render, Lexeme.spelling, Token.spelling, hspelling] using
      Sits.nil.separated ih hseparates
  | operand isBare _ ih =>
    cases isBare with
    | true => exact ih
    | false =>
      have hopen : ['('].all Text.separates = true := by decide
      have hclose : [')'].all Text.separates = true := by decide
      simpa [Chunk.operand, Chunk.pieces, render, Lexeme.spelling, Token.spelling,
        Symbol.spelling] using Sits.nil.separated (ih.separated .nil hclose) hopen

/-! ### Replacing identifiers -/

theorem render_bare (x : String) : render (bare x) = x.toList := by
  simp [render, bare, Lexeme.spelling, Token.spelling_ofRun]

theorem Lexeme.render_append (l m : List Lexeme) : render (l ++ m) = render l ++ render m :=
  List.flatMap_append

theorem Chunk.render_prime (x : String) :
    render [Lexeme.run x, sym .prime] = (Piece.ident x.toList true).text := by
  have happend : [Lexeme.run x, sym .prime] = bare x ++ [sym .prime] := rfl
  rw [happend, Lexeme.render_append, render_bare]
  rfl

theorem Chunk.render_spelled (leaf : String → List Lexeme) (cs : List Chunk) :
    render (spelled leaf cs) = cs.flatMap fun c => render (c.lexemes leaf) := by
  simp [render, spelled, List.flatMap_assoc]

theorem Phrase.pieces_eq {cs : List Chunk} (h : Phrase cs) :
    pieces (render (spelled bare cs)) = cs.flatMap Chunk.pieces := by
  rw [Text.pieces_eq_iff]
  constructor
  · have hcut := h.sits [] (by simp [Stops, HeadIs]) fun _ => trivial
    rwa [List.append_nil] at hcut
  · rw [Chunk.render_spelled, unpieces, List.flatMap_assoc]
    refine List.flatMap_congr fun c _ => ?_
    cases c with
    | ident x primed =>
      cases primed with
      | false => simp [Chunk.pieces, Chunk.lexemes, render_bare, Piece.text]
      | true => simp [Chunk.pieces, Chunk.lexemes, Chunk.render_prime]
    | text l => simp [Chunk.pieces, Chunk.lexemes, List.flatMap_map, Piece.text]

/-- Replacing identifiers acts chunk by chunk. -/
theorem Phrase.mapIdents_spelled {leaf : String → List Lexeme} {f : List Char → List Char}
    (hleaf : ∀ x : String, f x.toList = render (leaf x))
    (hprimed : ∀ name, f (Piece.ident name true).text = (Piece.ident name true).text)
    {cs : List Chunk} (h : Phrase cs) :
    mapIdents f (render (spelled bare cs)) = render (spelled leaf cs) := by
  rw [mapIdents, h.pieces_eq, Chunk.render_spelled, List.flatMap_assoc]
  refine List.flatMap_congr fun c _ => ?_
  cases c with
  | ident x primed =>
    cases primed with
    | false => simpa [Chunk.pieces, Chunk.lexemes, Piece.text] using hleaf x
    | true => simpa [Chunk.pieces, Chunk.lexemes, Chunk.render_prime] using hprimed x.toList
  | text l => simp [Chunk.pieces, Chunk.lexemes, List.flatMap_map]

/-- The lexemes that stand for a variable: those of its term, in parentheses unless it is atomic. -/
def Actuals.leaf (sub : Actuals) (x : String) : List Lexeme :=
  match sub.lookup x with
  | some t => Lexeme.operand t.isAtomic (spelled bare t.chunks)
  | none => bare x

theorem Actuals.leaf_of_lookup {sub : Actuals} {x : String} {t : Term}
    (h : sub.lookup x = some t) :
    sub.leaf x = Lexeme.operand t.isAtomic (spelled bare t.chunks) := by
  rw [leaf, h]

theorem Actuals.leaf_of_lookup_none {sub : Actuals} {x : String} (h : sub.lookup x = none) :
    sub.leaf x = bare x := by
  rw [leaf, h]

theorem Text.isAtomic_of_isDecimal {n : String} (h : isDecimal n = true) :
    Text.isAtomic n.toList = true := by
  obtain ⟨c, cs, hn, -, hall⟩ := exists_of_isDecimal h
  have hchars : ∀ d ∈ c :: cs, (isIdentChar d || d == '.' || d == '\'') = true := by
    intro d hd
    have hd := List.all_eq_true.mp hall d hd
    rcases (Bool.or_eq_true _ _).mp hd with hdigit | hpoint
    · rw [isIdentChar_of_isDigit hdigit, Bool.true_or, Bool.true_or]
    · rw [hpoint, Bool.or_true, Bool.true_or]
  rw [hn, Text.isAtomic, List.all_eq_true.mpr hchars]
  rfl

/-- The text of a term is atomic if and only if the term is: others start with a parenthesis or a
minus sign. -/
theorem Term.isAtomic_text {t : Term} (h : t.isPlain = true) :
    Text.isAtomic t.text.toList = t.isAtomic := by
  cases t with
  | var name =>
    have hname := isIdent_of_isVariable h
    rw [Term.text_var hname]
    exact Text.isAtomic_ident hname false
  | num text =>
    have htext : (Term.num text).text.toList = text.toList := by
      simp [Term.toList_text h, Term.chunks, Chunk.lexemes, render, Lexeme.spelling, Token.spelling]
    rw [htext]
    exact Text.isAtomic_of_isDecimal h
  | primed name =>
    have hname := isIdent_of_isVariable h
    rw [Term.toList_text_primed hname]
    exact Text.isAtomic_ident hname true
  | bin op lhs rhs =>
    rw [Term.toList_text h]
    rfl
  | neg arg =>
    rw [Term.toList_text h]
    rfl

theorem Term.asOperand_text {t : Term} (h : t.isPlain = true) :
    Text.asOperand t.text.toList = render (Lexeme.operand t.isAtomic (spelled bare t.chunks)) := by
  rw [Text.asOperand, Term.isAtomic_text h, Term.toList_text h]
  cases t.isAtomic with
  | true => rfl
  | false => simp [Lexeme.operand, render, Lexeme.spelling, Token.spelling, Symbol.spelling]

theorem Actuals.apply_texts {sub : Actuals} (h : sub.isPlain = true) (x : String) :
    sub.texts.apply x.toList = render (sub.leaf x) := by
  have htexts := sub.lookup_texts x
  cases hlookup : sub.lookup x with
  | none =>
    rw [hlookup, Option.map_none] at htexts
    rw [Substitution.apply_of_lookup_none (by rwa [String.ofList_toList]),
      leaf_of_lookup_none hlookup, render_bare]
  | some t =>
    rw [hlookup, Option.map_some] at htexts
    rw [Substitution.apply_of_lookup (by rwa [String.ofList_toList]), leaf_of_lookup hlookup,
      Term.asOperand_text (isPlain_of_lookup h hlookup).2]

/-- The text of a formula with its identifiers replaced. -/
theorem Formula.substitute_text {f : Formula} (h : f.isPlain = true) {sub : Actuals}
    (hsub : sub.isPlain = true) :
    (substitute sub.texts f.text).toList = render (spelled sub.leaf f.chunks) := by
  have hprimed : ∀ name, sub.texts.apply (Piece.ident name true).text =
      (Piece.ident name true).text := by
    intro name
    refine Substitution.apply_of_lookup_none (Substitution.lookup_primed ?_ name)
    intro entry hentry
    obtain ⟨actual, hactual, rfl⟩ := List.mem_map.mp hentry
    exact isIdent_of_isVariable (Actuals.isPlain_iff.mp hsub actual hactual).1
  rw [substitute, String.toList_ofList, Formula.toList_text h]
  exact (Formula.phrase h).mapIdents_spelled (Actuals.apply_texts hsub) hprimed

/-! ## Reading chunks -/

section

variable {leaf : String → List Lexeme} {sub : Actuals}

/-- The lexemes are read as the terms that the replacements have for variables. -/
structure Fills (leaf : String → List Lexeme) (sub : Actuals) : Prop where
  reads : ∀ x, isVariable x = true →
    ReadsTerm (tokens ((leaf x).map Lexeme.inClause)) 2 none ((sub.lookup x).getD (.var x))
  keyword : ∀ x ∈ ["true", "false"], leaf x = bare x
  stands : ∀ x, isIdent x.toList = true → Stands (leaf x)

@[simp] theorem Lexeme.inClause_sym {s : Symbol} (h : s ≠ .skip) : (sym s).inClause = sym s := by
  cases s with
  | skip => exact absurd rfl h
  | _ => rfl

@[simp] theorem Lexeme.map_inClause_operand (isBare : Bool) (l : List Lexeme) :
    (Lexeme.operand isBare l).map inClause = Lexeme.operand isBare (l.map inClause) := by
  cases isBare <;> simp [operand]

@[simp] theorem Lexeme.map_inClause_infixed {s : Symbol} (h : s ≠ .skip) :
    (infixed s).map inClause = infixed s := by
  simp only [infixed, List.map_cons, List.map_nil, inClause_sym h]
  rfl

theorem Term.reads_spelled (hleaf : Fills leaf sub) {t : Term} (h : t.isPlain = true) :
    ReadsTerm (tokens ((spelled leaf t.chunks).map Lexeme.inClause)) 2 none (t.replace sub) := by
  induction t with
  | var name => simpa [Term.chunks, Chunk.lexemes, Term.replace] using hleaf.reads name h
  | num text => exact .num h
  | primed name =>
    have hprimed : ReadsTerm [.word name, .symbol .prime] 2 none (.primed name) := .primed name
    rw [← Token.inClause_ofRun h] at hprimed
    exact hprimed
  | bin op lhs rhs ihl ihr =>
    rw [Term.isPlain, Bool.and_eq_true] at h
    have hinner := ((ihl h.1).lower op.level_lt).bin ((ihr h.2).lower op.level_lt)
    simpa [Term.chunks, Chunk.lexemes, Lexeme.operand, Term.replace] using
      (hinner.lower (Nat.zero_le _)).paren
  | neg arg ih =>
    have harg := ih h
    cases hatomic : arg.isAtomic with
    | true =>
      simpa [Term.chunks, Chunk.lexemes, Lexeme.operand, Term.replace, hatomic] using
        harg.neg
    | false =>
      simpa [Term.chunks, Chunk.lexemes, Lexeme.operand, Term.replace, hatomic] using
        (harg.lower (Nat.zero_le 2)).paren.neg

namespace Formula

/-! Replacing variables changes no connective, so operands that need no parentheses stay so. -/

theorem isTight_replace (f : Formula) : (f.replace sub).isTight = f.isTight := by
  cases f <;> rfl

theorem admits_replace_of_fitsAnd {f : Formula} (h : f.fitsAnd = true) :
    Connective.and.Admits (f.replace sub) := by
  apply Connective.admits_of_fitsAnd
  cases f <;> exact h

theorem admits_replace_of_fitsOr {f : Formula} (h : f.fitsOr = true) :
    Connective.or.Admits (f.replace sub) := by
  apply Connective.admits_of_fitsOr
  cases f <;> exact h

theorem admits_replace_of_fitsImplies {f : Formula} (h : f.fitsImplies = true) :
    Connective.implies.Admits (f.replace sub) := by
  apply Connective.admits_of_fitsImplies
  cases f <;> exact h

theorem IsRead.joinChunks (c : Connective) {f g : Formula} {cs ds : List Chunk} {a b : Bool}
    (hf : f.IsRead (tokens ((spelled leaf cs).map Lexeme.inClause)))
    (hg : g.IsRead (tokens ((spelled leaf ds).map Lexeme.inClause)))
    (ha : a = true → c.Admits f) (hb : b = true → c.Admits g) :
    (c.join f g).IsRead (tokens ((spelled leaf (Chunk.operand a cs ++
      .text (infixed c.symbol) :: Chunk.operand b ds)).map Lexeme.inClause)) := by
  have hsymbol : c.symbol ≠ .skip := by cases c <;> nofun
  simpa [Chunk.lexemes, hsymbol] using IsRead.join c hf hg ha hb

theorem isRead_spelled (hleaf : Fills leaf sub) : ∀ {f : Formula}, f.isPlain = true →
    (f.replace sub).IsRead (tokens ((spelled leaf f.chunks).map Lexeme.inClause))
  | .verum, _ => by
    have hread : Reads [.symbol .verum] 3 (.formula .verum) := .verum
    rw [chunks, Chunk.spelled_cons, Chunk.lexemes, hleaf.keyword _ (by simp)]
    exact .of_top rfl ⟨_, hread, .refl _⟩
  | .falsum, _ => by
    have hread : Reads [.symbol .falsum] 3 (.formula .falsum) := .falsum
    rw [chunks, Chunk.spelled_cons, Chunk.lexemes, hleaf.keyword _ (by simp)]
    exact .of_top rfl ⟨_, hread, .refl _⟩
  | .cmp op lhs rhs, h => by
    rw [isPlain, Bool.and_eq_true] at h
    have hread : Reads _ 3 (.formula (.cmp op (lhs.replace sub) (rhs.replace sub))) :=
      .cmp ((Term.reads_spelled hleaf h.1).lower (Nat.zero_le 2))
        ((Term.reads_spelled hleaf h.2).lower (Nat.zero_le 2))
    refine .of_top rfl ⟨.cmp op (lhs.replace sub) (rhs.replace sub), ?_, .refl _⟩
    simpa [chunks, Chunk.lexemes] using hread
  | .not arg, h => by
    obtain ⟨g, hread, hsame⟩ := (isRead_spelled hleaf (f := arg) h).tightOperand
    rw [isTight_replace] at hread
    refine .of_top rfl ⟨_, ?_, hsame.not⟩
    simpa [chunks, Chunk.lexemes] using hread.not
  | .and lhs rhs, h => by
    rw [isPlain, Bool.and_eq_true] at h
    exact .joinChunks .and (isRead_spelled hleaf h.1) (isRead_spelled hleaf h.2)
      admits_replace_of_fitsAnd admits_replace_of_fitsAnd
  | .or lhs rhs, h => by
    rw [isPlain, Bool.and_eq_true] at h
    exact .joinChunks .or (isRead_spelled hleaf h.1) (isRead_spelled hleaf h.2)
      admits_replace_of_fitsOr admits_replace_of_fitsOr
  | .implies lhs rhs, h => by
    rw [isPlain, Bool.and_eq_true] at h
    exact .joinChunks .implies (isRead_spelled hleaf h.1) (isRead_spelled hleaf h.2)
      admits_replace_of_fitsImplies admits_replace_of_fitsImplies

end Formula

end

/-! ### Identifiers and terms for them -/

theorem Term.replace_nil (t : Term) : t.replace [] = t := by
  induction t with
  | var | num | primed => rfl
  | bin op lhs rhs ihl ihr => rw [Term.replace, ihl, ihr]
  | neg arg ih => rw [Term.replace, ih]

theorem fills_bare : Fills bare [] where
  reads x hx := by
    have hvar : ReadsTerm [.word x] 2 none (.var x) := .var x
    rw [← Token.inClause_ofRun hx] at hvar
    exact hvar
  keyword _ _ := rfl
  stands x hx := by
    obtain ⟨hvalid, hrun⟩ := Token.isValid_ofRun hx
    exact .run hvalid hrun

theorem Actuals.fills_leaf {sub : Actuals} (h : sub.isPlain = true) : Fills sub.leaf sub where
  reads x hx := by
    cases hlookup : sub.lookup x with
    | none =>
      rw [leaf_of_lookup_none hlookup]
      exact fills_bare.reads x hx
    | some t =>
      have hread := Term.reads_spelled fills_bare (isPlain_of_lookup h hlookup).2
      rw [Term.replace_nil] at hread
      rw [leaf_of_lookup hlookup, Lexeme.map_inClause_operand, Option.getD_some]
      cases t.isAtomic with
      | true => exact hread
      | false => simpa [Lexeme.operand] using (hread.lower (Nat.zero_le 2)).paren
  keyword x hx := by
    cases hlookup : sub.lookup x with
    | none => exact leaf_of_lookup_none hlookup
    | some t =>
      -- the truth values have no terms
      have hvariable := (isPlain_of_lookup h hlookup).1
      simp only [List.mem_cons, List.not_mem_nil, or_false] at hx
      rcases hx with rfl | rfl <;> cases hvariable
  stands x hx := by
    cases hlookup : sub.lookup x with
    | none =>
      rw [leaf_of_lookup_none hlookup]
      exact fills_bare.stands x hx
    | some t =>
      rw [leaf_of_lookup hlookup]
      have hstands := (Term.phrase (isPlain_of_lookup h hlookup).2).stands fills_bare.stands
      exact hstands.operand t.isAtomic

/-! ## Instantiated clauses -/

/-- The store in which the variables have the values of the terms for them. -/
def Store.rebind (s : Store) (I : Interp) (sub : Actuals) : Store :=
  { s with value := fun x => ((sub.lookup x).getD (.var x)).value I s }

theorem Term.value_replace (I : Interp) (s : Store) (sub : Actuals) (t : Term) :
    (t.replace sub).value I s = t.value I (s.rebind I sub) := by
  induction t with
  | var | num | primed => rfl
  | bin op lhs rhs ihl ihr => rw [Term.replace, Term.value, Term.value, ihl, ihr]
  | neg arg ih => rw [Term.replace, Term.value, Term.value, ih]

theorem Formula.holds_replace (I : Interp) (s : Store) (sub : Actuals) :
    ∀ {f : Formula}, f.isPlain = true →
      ((f.replace sub).Holds I s ↔ f.Holds I (s.rebind I sub))
  | .verum, _ | .falsum, _ => by simp [Formula.replace, Formula.Holds]
  | .cmp op lhs rhs, _ => by simp [Formula.replace, Formula.Holds, Term.value_replace]
  | .not arg, h => by
    have harg := Formula.holds_replace I s sub (f := arg) h
    simp [Formula.replace, Formula.Holds, harg]
  | .and lhs rhs, h | .or lhs rhs, h | .implies lhs rhs, h => by
    rw [Formula.isPlain, Bool.and_eq_true] at h
    simp [Formula.replace, Formula.Holds, Formula.holds_replace I s sub h.1,
      Formula.holds_replace I s sub h.2]

/-- The text can be read as the formula, `skip` being a name. -/
def Formula.IsClauseReadingOf (f : Formula) (text : String) : Prop :=
  ∃ ts, Lexes text.toList ts ∧ Reads (ts.map Token.inClause) 0 (.formula f)

theorem Formula.lexes_substitute {f : Formula} (h : f.isPlain = true) {sub : Actuals}
    (hsub : sub.isPlain = true) :
    Lexes (substitute sub.texts f.text).toList (tokens (spelled sub.leaf f.chunks)) := by
  have hstands := (Formula.phrase h).stands (Actuals.fills_leaf hsub).stands
  have hspaced := (hstands [] .nil rfl).1
  rw [List.append_nil] at hspaced
  rw [Formula.substitute_text h hsub]
  exact hspaced.lexes

/-- In the text of a plain formula, identifiers are replaced by the texts of plain terms. The text
that results has exactly one reading, which differs at most in brackets from the formula with the
terms in the place of its variables. So it says what this formula says, and this is what the formula
says of the store in which the variables have the values of the terms. -/
theorem substitute_text_reads_replace (f : Formula) (sub : Actuals) (hf : f.isPlain = true)
    (hsub : sub.isPlain = true) :
    ∃ g, Same (.formula g) (.formula (f.replace sub)) ∧
      (∀ I s, g.Holds I s ↔ (f.replace sub).Holds I s) ∧
      (∀ I s, g.Holds I s ↔ f.Holds I (s.rebind I sub)) ∧
      ∀ g', g'.IsClauseReadingOf (substitute sub.texts f.text) ↔ g' = g := by
  have hlexes := Formula.lexes_substitute hf hsub
  obtain ⟨g, hread, hsame⟩ :=
    (Formula.isRead_spelled (Actuals.fills_leaf hsub) hf).alone.lower (Nat.zero_le _)
  rw [Lexeme.tokens_map_inClause] at hread
  have hmeaning : ∀ I s, g.Holds I s ↔ (f.replace sub).Holds I s :=
    fun I s => hsame.meaning_iff I s s
  refine ⟨g, hsame, hmeaning, ?_, ?_⟩
  · exact fun I s => (hmeaning I s).trans (Formula.holds_replace I s sub hf)
  intro g'
  constructor
  · rintro ⟨ts, hts, hg'⟩
    obtain rfl := hts.unique hlexes
    exact Reads.unique.1 hg' hread
  · rintro rfl
    exact ⟨_, hlexes, hread⟩

/-- Names that begin with one another, a differential symbol and a sign in front of a variable. -/
def Formula.convoy : Formula :=
  .implies
    (.and (.not (.cmp .lt (.var "a") (.num "1.5")))
      (.or (.cmp .eq (.var "ab") (.neg (.var "a")))
        (.cmp .ge (.primed "a") (.bin .sub (.var "b") (.var "a")))))
    (.cmp .ne (.var "skip") (.var "b"))

/-- Two variables change places, one of them with a sign. -/
def Actuals.exchange : Actuals :=
  [("a", .neg (.var "b")), ("b", .var "a")]

theorem substitute_text_reads_replace_exchange :
    Formula.convoy.isPlain = true ∧ Actuals.exchange.isPlain = true ∧
      substitute Actuals.exchange.texts Formula.convoy.text =
        "(!((-b) < 1.5) & (ab = -(-b) | a' >= (a - (-b)))) -> skip != a" ∧
      ∃ g, Same (.formula g) (.formula (Formula.convoy.replace .exchange)) ∧
        (∀ I s, g.Holds I s ↔ (Formula.convoy.replace .exchange).Holds I s) ∧
        (∀ I s, g.Holds I s ↔ Formula.convoy.Holds I (s.rebind I .exchange)) ∧
        ∀ g', g'.IsClauseReadingOf (substitute Actuals.exchange.texts Formula.convoy.text) ↔
          g' = g := by
  have hconvoy : Formula.convoy.isPlain = true := by decide
  have hexchange : Actuals.exchange.isPlain = true := by decide
  exact ⟨hconvoy, hexchange, by decide +kernel,
    substitute_text_reads_replace _ _ hconvoy hexchange⟩

end HybridObjects
