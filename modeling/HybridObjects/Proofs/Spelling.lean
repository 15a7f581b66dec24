import HybridObjects.Proofs.Tokens

/-!
# HybridObjects.Proofs.Spelling

The text of a tree on a single line, token by token. A tree is legible if its names are identifiers
and no keywords, its numbers decimals, its evolutions have an equation, and no clause text occurs.
Where the lexemes of a legible tree are written out, no two of them run together.

* `Formula.isLegible`, `Formula.lexemes` — legible formulas, and what their texts are made of.
* `Writes`         — what a step of the writer appends to a single line.
* `Stands`         — lexemes that keep apart from their surroundings.
* `Formula.lexes`  — the tokens of the text of a legible formula.
-/

namespace HybridObjects

/-! ## Legible trees -/

def Term.isLegible : Term → Bool
  | .var name | .primed name => isName name
  | .num text => isDecimal text
  | .bin _ lhs rhs => lhs.isLegible && rhs.isLegible
  | .neg arg => arg.isLegible

def Ode.isLegible (ode : Ode) : Bool :=
  !ode.equations.isEmpty &&
    ode.equations.all fun equation => isName equation.1 && equation.2.isLegible

mutual

def Formula.isLegible : Formula → Bool
  | .verum | .falsum | .hole _ => true
  | .cmp _ lhs rhs => lhs.isLegible && rhs.isLegible
  | .not arg => arg.isLegible
  | .and lhs rhs | .or lhs rhs | .implies lhs rhs => lhs.isLegible && rhs.isLegible
  | .box program post => program.isLegible && post.isLegible
  | .exist var body => isName var && body.isLegible
  | .pred name args => isName name && args.all Term.isLegible
  | .raw _ => false

def Program.isLegible : Program → Bool
  | .skip => true
  | .havoc var => isName var
  | .assign var value => isName var && value.isLegible
  | .test cond => cond.isLegible
  | .evolve ode domain => ode.isLegible && domain.isLegible
  | .seq first second => first.isLegible && second.isLegible
  | .choice left right => left.isLegible && right.isLegible
  | .group body => body.isLegible

end

/-! ## Lexemes -/

namespace Lexeme

abbrev sym (s : Symbol) : Lexeme := .token (.symbol s)

abbrev word (name : String) : Lexeme := .token (.word name)

/-- A symbol between two blanks. -/
def infixed (s : Symbol) : List Lexeme := [.blank, sym s, .blank]

/-- An operand, in parentheses unless it is bare. -/
def operand (bare : Bool) (l : List Lexeme) : List Lexeme :=
  if bare then l else sym .lparen :: (l ++ [sym .rparen])

/-- A program in braces. -/
def braced (l : List Lexeme) : List Lexeme :=
  sym .lbrace :: .blank :: (l ++ .blank :: [sym .rbrace])

/-- Items with commas between them. -/
def items {α : Type} (f : α → List Lexeme) : List α → List Lexeme
  | [] => []
  | a :: as => f a ++ as.flatMap fun a => sym .comma :: .blank :: f a

end Lexeme

open Lexeme (sym word infixed operand braced items render tokens opens breaks)

def Term.lexemes : Term → List Lexeme
  | .var name => [word name]
  | .num text => [.token (.number text)]
  | .primed name => [word name, sym .prime]
  | .bin op lhs rhs =>
    sym .lparen :: (lhs.lexemes ++ infixed (.arith op) ++ rhs.lexemes ++ [sym .rparen])
  | .neg arg => sym (.arith .sub) :: operand arg.isAtomic arg.lexemes

def Ode.lexemes (ode : Ode) : List Lexeme :=
  items (fun equation => word equation.1 :: sym .prime :: (infixed (.cmp .eq) ++ equation.2.lexemes))
    ode.equations

mutual

/-- The lexemes of a formula. Clause texts are left out: they need not be made of tokens. -/
def Formula.lexemes : Formula → List Lexeme
  | .verum => [sym .verum]
  | .falsum => [sym .falsum]
  | .cmp op lhs rhs => lhs.lexemes ++ infixed (.cmp op) ++ rhs.lexemes
  | .not arg => sym .not :: operand arg.isTight arg.lexemes
  | .and lhs rhs =>
    operand lhs.fitsAnd lhs.lexemes ++ infixed .and ++ operand rhs.fitsAnd rhs.lexemes
  | .or lhs rhs =>
    operand lhs.fitsOr lhs.lexemes ++ infixed .or ++ operand rhs.fitsOr rhs.lexemes
  | .implies lhs rhs =>
    operand lhs.fitsImplies lhs.lexemes ++ infixed .implies ++ operand rhs.fitsImplies rhs.lexemes
  | .box program post =>
    sym .lbracket :: (program.lexemes ++ sym .rbracket :: operand post.isTight post.lexemes)
  | .exist var body => sym .exist :: .blank :: ([word var] ++ .blank :: operand false body.lexemes)
  | .pred name args => [word name] ++ sym .lparen :: (items Term.lexemes args ++ [sym .rparen])
  | .raw _ => []
  | .hole id => [word id.name]

def Program.lexemes : Program → List Lexeme
  | .skip => [sym .skip, sym .semicolon]
  | .havoc var => [word var] ++ infixed .becomes ++ [sym (.arith .mul), sym .semicolon]
  | .assign var value => [word var] ++ infixed .becomes ++ value.lexemes ++ [sym .semicolon]
  | .test cond => sym .test :: (cond.lexemes ++ [sym .semicolon])
  | .evolve ode domain =>
    sym .lbrace :: (ode.lexemes ++ infixed .and ++ domain.lexemes ++ [sym .rbrace])
  | .seq first second => first.lexemes ++ .blank :: second.lexemes
  | .choice left right => braced left.lexemes ++ infixed .choice ++ braced right.lexemes
  | .group body => braced body.lexemes

end

/-! ## Writing on a single line -/

/-- The writer is on a single line and has written the characters, no line feed among them. -/
structure Writer.IsAt (w : Writer) (cs : List Char) : Prop where
  layout : w.layout = .singleLine
  text : w.text.toList = cs
  unbroken : '\n' ∉ cs

namespace Writer.IsAt

variable {w : Writer} {cs : List Char}

theorem empty : (Writer.empty .singleLine).IsAt [] :=
  ⟨rfl, rfl, List.not_mem_nil⟩

theorem put (h : w.IsAt cs) {c : Char} (hc : c ≠ '\n') : (w.put c).IsAt (cs ++ [c]) := by
  have hput : w.put c = { w with text := w.text.push c, atLineStart := false } := by
    rw [Writer.put, h.layout]
    simp [hc]
  rw [hput]
  refine ⟨h.layout, ?_, ?_⟩
  · simp [h.text]
  · simp [h.unbroken, hc.symm]

theorem write (h : w.IsAt cs) {s : String} (hs : '\n' ∉ s.toList) :
    (w.write s).IsAt (cs ++ s.toList) := by
  rw [Writer.write]
  generalize s.toList = chars at hs ⊢
  induction chars generalizing w cs with
  | nil => simpa using h
  | cons c rest ih =>
    rw [List.mem_cons, not_or] at hs
    rw [List.foldl_cons, List.append_cons]
    exact ih (h.put (Ne.symm hs.1)) hs.2

theorem newline (h : w.IsAt cs) : w.newline.IsAt (cs ++ [' ']) := by
  have hline : w.newline = w.put ' ' := by
    simp [Writer.newline, Writer.write, Writer.put, h.layout]
  rw [hline]
  exact h.put (by decide)

end Writer.IsAt

/-- On a single line the step appends the lexemes. -/
def Writes (f : Writer → Writer) (l : List Lexeme) : Prop :=
  ∀ w cs, Writer.IsAt w cs → (f w).IsAt (cs ++ render l)

namespace Writes

variable {f g : Writer → Writer} {l m : List Lexeme}

theorem comp (hf : Writes f l) (hg : Writes g m) : Writes (fun w => g (f w)) (l ++ m) := by
  intro w cs h
  rw [render, List.flatMap_append, ← List.append_assoc]
  exact hg _ _ (hf w cs h)

theorem literal {s : String} (hs : s.toList = render l) (hbreak : '\n' ∉ s.toList) :
    Writes (·.write s) l := by
  intro w cs h
  rw [← hs]
  exact h.write hbreak

theorem newline : Writes Writer.newline [.blank] :=
  fun _ _ h => h.newline

theorem indent : Writes (·.indent true) [.blank] := by
  intro w cs h
  have hnext := h.newline
  simp only [Writer.indent, if_true, hnext.layout]
  exact hnext

theorem dedent : Writes (·.dedent true) [.blank] := by
  intro w cs h
  simp only [Writer.dedent, if_true, h.layout]
  exact h.newline

theorem singleLine (hf : Writes f l) (g : Writer → Writer) :
    Writes (fun w => if w.isSingleLine then f w else g w) l := by
  intro w cs h
  have hsingle : w.isSingleLine = true := by rw [Writer.isSingleLine, h.layout]; rfl
  simp only [hsingle, if_true]
  exact hf w cs h

/-- Runs of characters of a kind that the line feed is not of. -/
theorem run {p : Char → Bool} (hp : p '\n' = false) {t : Token} {s : String}
    (hs : t.spelling = s.toList) (hall : s.toList.all p = true) : Writes (·.write s) [.token t] := by
  refine literal ?_ ?_
  · simp [render, Lexeme.spelling, hs]
  · intro hmem
    rw [List.all_eq_true] at hall
    rw [hall _ hmem] at hp
    cases hp

theorem name {x : String} (h : isName x = true) : Writes (·.write x) [word x] := by
  obtain ⟨c, cs, hx, -, hall, -⟩ := exists_of_isName h
  rw [← hx] at hall
  exact run rfl rfl hall

theorem number {n : String} (h : isDecimal n = true) : Writes (·.write n) [.token (.number n)] := by
  obtain ⟨c, cs, hn, -, hall⟩ := exists_of_isDecimal h
  rw [← hn] at hall
  exact run rfl rfl hall

theorem operand (hf : Writes f l) (bare : Bool) :
    Writes (fun w => if bare then f w else (f (w.write "(")).write ")") (operand bare l) := by
  cases bare with
  | true => exact hf
  | false =>
    have hopen : Writes (·.write "(") [sym .lparen] := literal rfl (by decide)
    have hclose : Writes (·.write ")") [sym .rparen] := literal rfl (by decide)
    exact hopen.comp (hf.comp hclose)

/-- A symbol in front of an operand, with the parenthesis if there is one. -/
theorem prefixed (hf : Writes f l) (bare : Bool) {s t : String} {σ : Symbol}
    (hs : Writes (·.write s) [sym σ]) (ht : Writes (·.write t) [sym σ, sym .lparen]) :
    Writes (fun w => if bare then f (w.write s) else (f (w.write t)).write ")")
      (sym σ :: Lexeme.operand bare l) := by
  cases bare with
  | true => exact hs.comp hf
  | false =>
    have hclose : Writes (·.write ")") [sym .rparen] := literal rfl (by decide)
    exact ht.comp (hf.comp hclose)

/-- A text that was written by a writer of its own. -/
theorem inner (hf : Writes f l) : Writes (·.write (f (.empty .singleLine)).text) l := by
  have hwritten := hf _ _ .empty
  refine literal (by simpa using hwritten.text) ?_
  rw [hwritten.text]
  exact hwritten.unbroken

theorem moreItems {α : Type} {step : Writer → α → Writer} {f : α → List Lexeme} {as : List α}
    (h : ∀ a ∈ as, Writes (step · a) (f a)) :
    Writes (·.moreItems ", " step as) (as.flatMap fun a => sym .comma :: .blank :: f a) := by
  induction as with
  | nil => simp [Writes, Writer.moreItems, render]
  | cons a as ih =>
    rw [List.forall_mem_cons] at h
    have hcomma : Writes (·.write ", ") [sym .comma, .blank] := literal rfl (by decide)
    exact (hcomma.comp h.1).comp (ih h.2)

theorem items {α : Type} {step : Writer → α → Writer} {f : α → List Lexeme} {as : List α}
    (h : ∀ a ∈ as, Writes (step · a) (f a)) : Writes (·.items ", " step as) (items f as) := by
  cases as with
  | nil => simp [Writes, Writer.items, Lexeme.items, render]
  | cons a as =>
    rw [List.forall_mem_cons] at h
    exact h.1.comp (moreItems h.2)

theorem braced (hf : Writes f l) :
    Writes (fun w => ((f ((w.write "\x7b").indent true)).dedent true).write "\x7d") (braced l) := by
  have hopen : Writes (·.write "\x7b") [sym .lbrace] := literal rfl (by decide)
  have hclose : Writes (·.write "\x7d") [sym .rbrace] := literal rfl (by decide)
  exact hopen.comp (indent.comp (hf.comp (dedent.comp hclose)))

end Writes

theorem Term.writes {t : Term} (h : t.isLegible = true) : Writes (Term.write · t) t.lexemes := by
  induction t with
  | var name => exact .name h
  | num text => exact .number h
  | primed name =>
    have hprime : Writes (·.write "'") [sym .prime] := .literal rfl (by decide)
    exact (Writes.name h).comp hprime
  | bin op lhs rhs ihl ihr =>
    rw [Term.isLegible, Bool.and_eq_true] at h
    have hopen : Writes (·.write "(") [sym .lparen] := .literal rfl (by decide)
    have hclose : Writes (·.write ")") [sym .rparen] := .literal rfl (by decide)
    have hop : Writes (·.write (" " ++ op.symbol ++ " ")) (infixed (.arith op)) := by
      cases op <;> exact .literal rfl (by decide)
    exact hopen.comp ((((ihl h.1).comp hop).comp (ihr h.2)).comp hclose)
  | neg arg ih =>
    exact (ih h).prefixed arg.isAtomic (.literal rfl (by decide)) (.literal rfl (by decide))

theorem Ode.writes {ode : Ode} (h : ode.isLegible = true) : Writes (Ode.write · ode) ode.lexemes := by
  rw [Ode.isLegible, Bool.and_eq_true, List.all_eq_true] at h
  refine Writes.items fun equation hequation => ?_
  have hlegible := h.2 equation hequation
  rw [Bool.and_eq_true] at hlegible
  have heq : Writes (·.write "' = ") (sym .prime :: infixed (.cmp .eq)) := .literal rfl (by decide)
  exact (Writes.name hlegible.1).comp (heq.comp (Term.writes hlegible.2))

theorem Placeholder.isName_name (id : Placeholder) : isName id.name = true := by
  have hname : id.name.toList = 'p' :: 'h' :: Nat.toDigits 10 id.index := by
    rw [Placeholder.name, String.toList_append, ← Nat.toList_repr]
    rfl
  have hdigits : ∀ c ∈ Nat.toDigits 10 id.index, Text.isIdentChar c = true := by
    intro c hc
    exact isIdentChar_of_isDigit (Nat.isDigit_of_mem_toDigits (by decide) (by decide) hc)
  have hkeyword : id.name ∉ ["true", "false", "skip"] := by
    simp [← String.toList_inj, hname]
  rw [isName, hname]
  simp only [Bool.and_eq_true, List.all_eq_true, List.forall_mem_cons, Bool.not_eq_true',
    List.contains_eq_mem, decide_eq_false_iff_not]
  exact ⟨⟨rfl, rfl, hdigits⟩, hkeyword⟩

mutual

theorem Formula.writes : ∀ {f : Formula}, f.isLegible = true → Writes (Formula.write · f) f.lexemes
  | .verum, _ | .falsum, _ => by
    simp only [Formula.write, Formula.lexemes]
    exact .literal rfl (by decide)
  | .cmp op lhs rhs, h => by
    simp only [Formula.write, Formula.lexemes, Formula.isLegible, Bool.and_eq_true] at h ⊢
    have hop : Writes (·.write (" " ++ op.symbol ++ " ")) (infixed (.cmp op)) := by
      cases op <;> exact .literal rfl (by decide)
    exact ((Term.writes h.1).comp hop).comp (Term.writes h.2)
  | .not arg, h => by
    simp only [Formula.write, Formula.lexemes, Formula.isLegible] at h ⊢
    exact (Formula.writes h).prefixed arg.isTight (.literal rfl (by decide))
      (.literal rfl (by decide))
  | .and lhs rhs, h => by
    simp only [Formula.write, Formula.lexemes, Formula.isLegible, Bool.and_eq_true] at h ⊢
    have hop : Writes (·.write " & ") (infixed .and) := .literal rfl (by decide)
    exact (((Formula.writes h.1).operand lhs.fitsAnd).comp hop).comp
      ((Formula.writes h.2).operand rhs.fitsAnd)
  | .or lhs rhs, h => by
    simp only [Formula.write, Formula.lexemes, Formula.isLegible, Bool.and_eq_true] at h ⊢
    have hop : Writes (·.write " | ") (infixed .or) := .literal rfl (by decide)
    exact (((Formula.writes h.1).operand lhs.fitsOr).comp hop).comp
      ((Formula.writes h.2).operand rhs.fitsOr)
  | .implies lhs rhs, h => by
    simp only [Formula.write, Formula.lexemes, Formula.isLegible, Bool.and_eq_true] at h ⊢
    have hop : Writes (·.write " -> ") (infixed .implies) := .literal rfl (by decide)
    exact (((Formula.writes h.1).operand lhs.fitsImplies).comp
      (hop.singleLine fun w => w.newline.line "->")).comp
        ((Formula.writes h.2).operand rhs.fitsImplies)
  | .box program post, h => by
    simp only [Formula.write, Formula.lexemes, Formula.isLegible, Bool.and_eq_true] at h ⊢
    have hopen : Writes (·.write "[") [sym .lbracket] := .literal rfl (by decide)
    have hclose : Writes (·.write "]") [sym .rbracket] := .literal rfl (by decide)
    have hprogram := (Program.writes h.1).singleLine fun w =>
      (Program.write (w.indent true) program).dedent true
    exact hopen.comp (hprogram.comp (hclose.comp ((Formula.writes h.2).operand post.isTight)))
  | .exist var body, h => by
    simp only [Formula.write, Formula.lexemes, Formula.isLegible, Bool.and_eq_true] at h ⊢
    have hexist : Writes (·.write "\\exists ") [sym .exist, .blank] := .literal rfl (by decide)
    have hopen : Writes (·.write " (") [.blank, sym .lparen] := .literal rfl (by decide)
    have hclose : Writes (·.write ")") [sym .rparen] := .literal rfl (by decide)
    exact hexist.comp ((Writes.name h.1).comp (hopen.comp ((Formula.writes h.2).comp hclose)))
  | .pred name args, h => by
    simp only [Formula.write, Formula.lexemes, Formula.isLegible, Bool.and_eq_true,
      List.all_eq_true] at h ⊢
    have hopen : Writes (·.write "(") [sym .lparen] := .literal rfl (by decide)
    have hclose : Writes (·.write ")") [sym .rparen] := .literal rfl (by decide)
    exact (Writes.name h.1).comp
      (hopen.comp ((Writes.items fun arg harg => Term.writes (h.2 arg harg)).comp hclose))
  | .raw _, h => by simp [Formula.isLegible] at h
  | .hole id, _ => by
    simp only [Formula.write, Formula.lexemes]
    exact .name id.isName_name

theorem Program.writes :
    ∀ {p : Program}, p.isLegible = true → Writes (Program.write · p) p.lexemes
  | .skip, _ => by
    simp only [Program.write, Program.lexemes]
    exact .literal rfl (by decide)
  | .havoc var, h => by
    simp only [Program.write, Program.lexemes, Program.isLegible] at h ⊢
    have hrest : Writes (·.write " := *;")
        (infixed .becomes ++ [sym (.arith .mul), sym .semicolon]) := .literal rfl (by decide)
    exact (Writes.name h).comp hrest
  | .assign var value, h => by
    simp only [Program.write, Program.lexemes, Program.isLegible, Bool.and_eq_true] at h ⊢
    have hop : Writes (·.write " := ") (infixed .becomes) := .literal rfl (by decide)
    have hclose : Writes (·.write ";") [sym .semicolon] := .literal rfl (by decide)
    exact (((Writes.name h.1).comp hop).comp (Term.writes h.2)).comp hclose
  | .test cond, h => by
    simp only [Program.write, Program.lexemes, Program.isLegible] at h ⊢
    have hopen : Writes (·.write "?") [sym .test] := .literal rfl (by decide)
    have hclose : Writes (·.write ";") [sym .semicolon] := .literal rfl (by decide)
    exact hopen.comp ((Formula.writes h).inner.comp hclose)
  | .evolve ode domain, h => by
    simp only [Program.write, Program.lexemes, Program.isLegible, Bool.and_eq_true] at h ⊢
    have hopen : Writes (·.write "\x7b") [sym .lbrace] := .literal rfl (by decide)
    have hop : Writes (·.write " & ") (infixed .and) := .literal rfl (by decide)
    have hclose : Writes (·.write "\x7d") [sym .rbrace] := .literal rfl (by decide)
    exact hopen.comp ((((Ode.writes h.1).comp hop).comp (Formula.writes h.2).inner).comp hclose)
  | .seq first second, h => by
    simp only [Program.write, Program.lexemes, Program.isLegible, Bool.and_eq_true] at h ⊢
    exact (Program.writes h.1).comp (Writes.newline.comp (Program.writes h.2))
  | .choice left right, h => by
    simp only [Program.write, Program.lexemes, Program.isLegible, Bool.and_eq_true] at h ⊢
    have hopen : Writes (·.write "\x7b") [sym .lbrace] := .literal rfl (by decide)
    have hmiddle : Writes (·.write "\x7d ++ \x7b") (sym .rbrace :: infixed .choice ++ [sym .lbrace]) :=
      .literal rfl (by decide)
    have hclose : Writes (·.write "\x7d") [sym .rbrace] := .literal rfl (by decide)
    have hleft := (Writes.indent.comp (Program.writes h.1)).comp Writes.dedent
    have hright := (Writes.indent.comp (Program.writes h.2)).comp Writes.dedent
    have hall := hopen.comp (hleft.comp (hmiddle.comp (hright.comp hclose)))
    simpa [braced, infixed] using hall
  | .group body, h => by
    simp only [Program.write, Program.lexemes, Program.isLegible] at h ⊢
    exact (Program.writes h).braced

end

/-! ## Lexemes that keep apart -/

/-- Lexemes that may stand right after any symbol, and before anything that any token may stand
before. -/
def Stands (l : List Lexeme) : Prop :=
  ∀ rest, Spaced rest → breaks rest = true → Spaced (l ++ rest) ∧ opens (l ++ rest) = true

namespace Stands

variable {l m : List Lexeme} {s : Symbol}

theorem nil : Stands [] :=
  fun _ hrest hbreaks => ⟨hrest, Lexeme.opens_of_breaks hbreaks⟩

theorem run {t : Token} (hvalid : t.IsValid) (hrun : t.isRun = true) : Stands [.token t] := by
  intro rest hrest hbreaks
  refine ⟨.run hvalid hrun hbreaks hrest, ?_⟩
  cases t with
  | word | number => rfl
  | symbol s =>
    cases s with
    | verum | falsum | skip => rfl
    | _ => cases hrun

/-- A symbol right between lexemes. -/
theorem joined (hl : Stands l) (hm : Stands m) (hkeyword : s.isKeyword = false)
    (htail : s.isTail = false) : Stands (l ++ sym s :: m) := by
  intro rest hrest hbreaks
  obtain ⟨hspaced, hopens⟩ := hm rest hrest hbreaks
  rw [List.append_assoc]
  exact hl _ (.symbol hkeyword hopens hspaced) (by simp [breaks, Lexeme.isTail, Lexeme.isRun,
    Token.isRun, hkeyword, htail])

theorem separated (hl : Stands l) (hm : Stands m) : Stands (l ++ .blank :: m) := by
  intro rest hrest hbreaks
  rw [List.append_assoc]
  exact hl _ (.blank (hm rest hrest hbreaks).1) rfl

theorem infixed (hl : Stands l) (hm : Stands m) (hkeyword : s.isKeyword = false) :
    Stands (l ++ infixed s ++ m) := by
  intro rest hrest hbreaks
  rw [List.append_assoc, List.append_assoc]
  exact hl _ (.blank (.symbol hkeyword rfl (.blank (hm rest hrest hbreaks).1))) rfl

theorem operand (hl : Stands l) (bare : Bool) : Stands (operand bare l) := by
  cases bare with
  | true => exact hl
  | false => exact nil.joined (hl.joined nil rfl rfl) rfl rfl

theorem braced (hl : Stands l) : Stands (braced l) :=
  nil.joined (nil.separated (hl.separated (nil.joined nil rfl rfl))) rfl rfl

theorem items {α : Type} {f : α → List Lexeme} {as : List α} (h : ∀ a ∈ as, Stands (f a)) :
    Stands (items f as) := by
  -- what has been written so far grows by an item at a time
  have hmore : ∀ {l : List Lexeme}, Stands l → ∀ {bs : List α}, (∀ b ∈ bs, Stands (f b)) →
      Stands (l ++ bs.flatMap fun b => sym .comma :: .blank :: f b) := by
    intro l hl bs hbs
    induction bs generalizing l with
    | nil => simpa using hl
    | cons b bs ih =>
      rw [List.forall_mem_cons] at hbs
      have hnext := hl.joined (nil.separated hbs.1) (s := .comma) rfl rfl
      have hall := ih hnext hbs.2
      rw [List.append_assoc] at hall
      exact hall
  cases as with
  | nil => exact nil
  | cons a as =>
    rw [List.forall_mem_cons] at h
    exact hmore h.1 h.2

theorem name {x : String} (h : isName x = true) : Stands [word x] :=
  run h rfl

end Stands

theorem Term.stands {t : Term} (h : t.isLegible = true) : Stands t.lexemes := by
  induction t with
  | var name => exact .name h
  | num text => exact .run h rfl
  | primed name => exact (Stands.name h).joined .nil rfl rfl
  | bin op lhs rhs ihl ihr =>
    rw [Term.isLegible, Bool.and_eq_true] at h
    exact Stands.nil.joined (((ihl h.1).infixed (ihr h.2) rfl).joined .nil rfl rfl) rfl rfl
  | neg arg ih => exact Stands.nil.joined ((ih h).operand _) rfl rfl

theorem Ode.stands {ode : Ode} (h : ode.isLegible = true) : Stands ode.lexemes := by
  rw [Ode.isLegible, Bool.and_eq_true, List.all_eq_true] at h
  refine .items fun equation hequation => ?_
  have hlegible := h.2 equation hequation
  rw [Bool.and_eq_true] at hlegible
  have hleft := (Stands.name hlegible.1).joined .nil (s := .prime) rfl rfl
  exact hleft.infixed (Term.stands hlegible.2) rfl

mutual

theorem Formula.stands : ∀ {f : Formula}, f.isLegible = true → Stands f.lexemes
  | .verum, _ | .falsum, _ => by
    simp only [Formula.lexemes]
    exact .run trivial rfl
  | .cmp op lhs rhs, h => by
    simp only [Formula.lexemes, Formula.isLegible, Bool.and_eq_true] at h ⊢
    exact (Term.stands h.1).infixed (Term.stands h.2) rfl
  | .not arg, h => by
    simp only [Formula.lexemes, Formula.isLegible] at h ⊢
    exact Stands.nil.joined ((Formula.stands h).operand _) rfl rfl
  | .and lhs rhs, h | .or lhs rhs, h | .implies lhs rhs, h => by
    simp only [Formula.lexemes, Formula.isLegible, Bool.and_eq_true] at h ⊢
    exact ((Formula.stands h.1).operand _).infixed ((Formula.stands h.2).operand _) rfl
  | .box program post, h => by
    simp only [Formula.lexemes, Formula.isLegible, Bool.and_eq_true] at h ⊢
    have hpost := (Formula.stands h.2).operand post.isTight
    exact Stands.nil.joined ((Program.stands h.1).joined hpost rfl rfl) rfl rfl
  | .exist var body, h => by
    simp only [Formula.lexemes, Formula.isLegible, Bool.and_eq_true] at h ⊢
    have hbody := (Formula.stands h.2).operand false
    exact Stands.nil.joined (Stands.nil.separated ((Stands.name h.1).separated hbody)) rfl rfl
  | .pred name args, h => by
    simp only [Formula.lexemes, Formula.isLegible, Bool.and_eq_true, List.all_eq_true] at h ⊢
    have hargs := Stands.items fun arg harg => Term.stands (h.2 arg harg)
    exact (Stands.name h.1).joined (hargs.joined .nil rfl rfl) rfl rfl
  | .raw _, h => by simp [Formula.isLegible] at h
  | .hole id, _ => by
    simp only [Formula.lexemes]
    exact .name id.isName_name

theorem Program.stands : ∀ {p : Program}, p.isLegible = true → Stands p.lexemes
  | .skip, _ => by
    simp only [Program.lexemes]
    have hskip : Stands [sym .skip] := .run trivial rfl
    exact hskip.joined .nil rfl rfl
  | .havoc var, h => by
    simp only [Program.lexemes, Program.isLegible] at h ⊢
    have hany : Stands [sym (.arith .mul), sym .semicolon] :=
      Stands.nil.joined (Stands.nil.joined .nil rfl rfl) rfl rfl
    exact (Stands.name h).infixed hany rfl
  | .assign var value, h => by
    simp only [Program.lexemes, Program.isLegible, Bool.and_eq_true] at h ⊢
    exact ((Stands.name h.1).infixed (Term.stands h.2) rfl).joined .nil rfl rfl
  | .test cond, h => by
    simp only [Program.lexemes, Program.isLegible] at h ⊢
    exact Stands.nil.joined ((Formula.stands h).joined .nil rfl rfl) rfl rfl
  | .evolve ode domain, h => by
    simp only [Program.lexemes, Program.isLegible, Bool.and_eq_true] at h ⊢
    have hbody := (Ode.stands h.1).infixed (Formula.stands h.2) (s := .and) rfl
    exact Stands.nil.joined (hbody.joined .nil rfl rfl) rfl rfl
  | .seq first second, h => by
    simp only [Program.lexemes, Program.isLegible, Bool.and_eq_true] at h ⊢
    exact (Program.stands h.1).separated (Program.stands h.2)
  | .choice left right, h => by
    simp only [Program.lexemes, Program.isLegible, Bool.and_eq_true] at h ⊢
    exact (Program.stands h.1).braced.infixed (Program.stands h.2).braced rfl
  | .group body, h => by
    simp only [Program.lexemes, Program.isLegible] at h ⊢
    exact (Program.stands h).braced

end

/-! ## Tokens of texts -/

theorem Writes.lexes {f : Writer → Writer} {l : List Lexeme} (hf : Writes f l) (hl : Stands l) :
    Lexes (f (.empty .singleLine)).text.toList (tokens l) := by
  have htext := (hf _ _ .empty).text
  have hspaced := (hl [] .nil rfl).1
  rw [List.nil_append] at htext
  rw [List.append_nil] at hspaced
  rw [htext]
  exact hspaced.lexes

theorem Term.lexes {t : Term} (h : t.isLegible = true) : Lexes t.text.toList (tokens t.lexemes) :=
  (Term.writes h).lexes (Term.stands h)

theorem Formula.lexes {f : Formula} (h : f.isLegible = true) :
    Lexes f.text.toList (tokens f.lexemes) :=
  (Formula.writes h).lexes (Formula.stands h)

theorem Program.lexes {p : Program} (h : p.isLegible = true) :
    Lexes p.text.toList (tokens p.lexemes) :=
  (Program.writes h).lexes (Program.stands h)

end HybridObjects
