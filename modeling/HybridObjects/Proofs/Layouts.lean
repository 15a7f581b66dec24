import HybridObjects.Logic.Printer

/-!
# HybridObjects.Proofs.Layouts

The two layouts of a tree show the same text. On a single line the writer turns line breaks into
blanks; on several lines it adds margins, breaks the line around implication arrows and puts the
program of a box on lines of its own. All of that is spacing, whatever characters the names and
clause texts of the tree are made of.

* `tidy`             — a text up to spacing.
* `Interchangeable`  — ends of a text that no text before them tells apart.
* `Writer.Inherited` — properties of steps that the writing of a tree inherits, traversed once.
* `Writer.Matches`   — two writers, one for each layout, that have written the same up to spacing.
* `Shows`            — what a step adds to the text, and the conditions that stand unbroken in it.
* `layouts_agree`    — the two layouts of every term, formula and program.
-/

namespace HybridObjects

/-! ## Texts up to spacing -/

def isGap (c : Char) : Bool :=
  c == ' ' || c == '\n'

/-- Every longest run of blanks and line feeds as one blank. -/
def collapse : List Char → List Char
  | [] => []
  | c :: cs =>
    if isGap c then
      if cs.head?.any isGap then collapse cs else ' ' :: collapse cs
    else
      c :: collapse cs

/-- Leaves out the blanks directly after an opening bracket or directly before a closing one. The
flag tells whether an opening bracket stands directly before the text. -/
def closeUp (opened : Bool) : List Char → List Char
  | [] => []
  | c :: cs =>
    if c == ' ' && (opened || cs.head? == some ']') then closeUp false cs
    else c :: closeUp (c == '[') cs

def tidyFrom (opened : Bool) (cs : List Char) : List Char :=
  closeUp opened (collapse cs)

/-- A text with its runs of blanks and line feeds collapsed and none of them inside of a bracket. -/
def tidy (s : String) : String :=
  String.ofList (tidyFrom false s.toList)

section tidyFrom

variable {a b c : Char} (opened : Bool) (cs : List Char)

theorem isGap_blank : isGap ' ' = true := rfl

theorem ne_blank_of_isGap (h : isGap c = false) : c ≠ ' ' := by
  rintro rfl
  cases h

theorem collapse_cons (h : isGap c = false) : collapse (c :: cs) = c :: collapse cs := by
  simp [collapse, h]

/-- A gap before a gap adds nothing. -/
theorem collapse_gap_gap (ha : isGap a = true) (hb : isGap b = true) :
    collapse (a :: b :: cs) = collapse (b :: cs) := by
  rw [collapse]
  simp [ha, hb]

/-- All gaps are the same. -/
theorem collapse_gap (ha : isGap a = true) (hb : isGap b = true) :
    collapse (a :: cs) = collapse (b :: cs) := by
  rw [collapse, collapse]
  simp [ha, hb]

theorem collapse_blank_cons (h : isGap c = false) :
    collapse (' ' :: c :: cs) = ' ' :: c :: collapse cs := by
  rw [collapse]
  simp [isGap_blank, h, collapse_cons]

theorem tidyFrom_cons (h : isGap c = false) :
    tidyFrom opened (c :: cs) = c :: tidyFrom (c == '[') cs := by
  simp [tidyFrom, collapse_cons cs h, closeUp, ne_blank_of_isGap h]

theorem tidyFrom_gap (ha : isGap a = true) (hb : isGap b = true) :
    tidyFrom opened (a :: cs) = tidyFrom opened (b :: cs) := by
  rw [tidyFrom, tidyFrom, collapse_gap cs ha hb]

theorem tidyFrom_gap_gap (ha : isGap a = true) (hb : isGap b = true) :
    tidyFrom opened (a :: b :: cs) = tidyFrom opened (b :: cs) := by
  rw [tidyFrom, tidyFrom, collapse_gap_gap cs ha hb]

theorem tidyFrom_blank_cons (h : isGap c = false) :
    tidyFrom opened (' ' :: c :: cs) =
      if opened || c == ']' then c :: tidyFrom (c == '[') cs
      else ' ' :: c :: tidyFrom (c == '[') cs := by
  have hclose (flag : Bool) :
      closeUp flag (c :: collapse cs) = c :: closeUp (c == '[') (collapse cs) := by
    simp [closeUp, ne_blank_of_isGap h]
  rw [tidyFrom, collapse_blank_cons cs h, closeUp, hclose, hclose]
  simp [tidyFrom]

/-- A blank directly after an opening bracket is left out. -/
theorem tidyFrom_opened_blank : tidyFrom true (' ' :: cs) = tidyFrom true cs := by
  match cs with
  | [] => rfl
  | c :: cs =>
    cases h : isGap c with
    | true => exact tidyFrom_gap_gap true cs isGap_blank h
    | false => rw [tidyFrom_blank_cons true cs h, tidyFrom_cons true cs h]; simp

end tidyFrom

/-- Ends of a text that make no difference up to spacing, whatever stands before them: a blank that
ends the text before is part of the gap at the beginning of the end. -/
structure Interchangeable (us vs : List Char) : Prop where
  here : ∀ opened, tidyFrom opened us = tidyFrom opened vs
  afterBlank : ∀ opened, tidyFrom opened (' ' :: us) = tidyFrom opened (' ' :: vs)

namespace Interchangeable

variable {us vs ws : List Char} {a b : Char}

theorem refl (us : List Char) : Interchangeable us us :=
  ⟨fun _ => rfl, fun _ => rfl⟩

theorem trans (h : Interchangeable us vs) (h' : Interchangeable vs ws) : Interchangeable us ws :=
  ⟨fun opened => (h.here opened).trans (h'.here opened),
    fun opened => (h.afterBlank opened).trans (h'.afterBlank opened)⟩

theorem cons (c : Char) (h : Interchangeable us vs) : Interchangeable (c :: us) (c :: vs) := by
  cases hc : isGap c with
  | true =>
    have hhere : ∀ opened, tidyFrom opened (c :: us) = tidyFrom opened (c :: vs) := by
      intro opened
      rw [tidyFrom_gap opened us hc isGap_blank, tidyFrom_gap opened vs hc isGap_blank]
      exact h.afterBlank opened
    refine ⟨hhere, fun opened => ?_⟩
    rw [tidyFrom_gap_gap opened us isGap_blank hc, tidyFrom_gap_gap opened vs isGap_blank hc]
    exact hhere opened
  | false =>
    constructor <;> intro opened
    · rw [tidyFrom_cons opened us hc, tidyFrom_cons opened vs hc, h.here]
    · rw [tidyFrom_blank_cons opened us hc, tidyFrom_blank_cons opened vs hc, h.here]

theorem append (cs : List Char) (h : Interchangeable us vs) :
    Interchangeable (cs ++ us) (cs ++ vs) := by
  induction cs with
  | nil => exact h
  | cons c cs ih => exact ih.cons c

theorem gap (us : List Char) (ha : isGap a = true) (hb : isGap b = true) :
    Interchangeable (a :: us) (b :: us) := by
  constructor <;> intro opened
  · exact tidyFrom_gap opened us ha hb
  · rw [tidyFrom_gap_gap opened us isGap_blank ha, tidyFrom_gap_gap opened us isGap_blank hb]
    exact tidyFrom_gap opened us ha hb

theorem gap_gap (us : List Char) (ha : isGap a = true) (hb : isGap b = true) :
    Interchangeable (a :: us) (a :: b :: us) := by
  have hhere : ∀ opened, tidyFrom opened (a :: us) = tidyFrom opened (a :: b :: us) := by
    intro opened
    rw [tidyFrom_gap_gap opened us ha hb]
    exact tidyFrom_gap opened us ha hb
  refine ⟨hhere, fun opened => ?_⟩
  rw [tidyFrom_gap_gap opened us isGap_blank ha, hhere,
    tidyFrom_gap_gap opened (b :: us) isGap_blank ha]

theorem open_blank (us : List Char) : Interchangeable ('[' :: us) ('[' :: ' ' :: us) := by
  have hopen : isGap '[' = false := rfl
  have hblank : tidyFrom ('[' == '[') us = tidyFrom ('[' == '[') (' ' :: us) :=
    (tidyFrom_opened_blank us).symm
  constructor <;> intro opened
  · rw [tidyFrom_cons opened us hopen, tidyFrom_cons opened _ hopen, hblank]
  · rw [tidyFrom_blank_cons opened us hopen, tidyFrom_blank_cons opened _ hopen, hblank]

theorem blank_close (us : List Char) : Interchangeable (']' :: us) (' ' :: ']' :: us) := by
  have hclose : isGap ']' = false := rfl
  have hhere : ∀ opened, tidyFrom opened (']' :: us) = tidyFrom opened (' ' :: ']' :: us) := by
    intro opened
    rw [tidyFrom_cons opened us hclose, tidyFrom_blank_cons opened us hclose]
    simp
  exact ⟨hhere, fun opened => (tidyFrom_gap_gap opened _ isGap_blank isGap_blank).symm⟩

end Interchangeable

/-- Beginnings of a text that make no difference up to spacing, whatever stands after them. -/
def Alike (us vs : List Char) : Prop :=
  ∀ rest, Interchangeable (us ++ rest) (vs ++ rest)

namespace Alike

variable {us vs ws : List Char}

theorem refl (us : List Char) : Alike us us :=
  fun _ => .refl _

theorem trans (h : Alike us vs) (h' : Alike vs ws) : Alike us ws :=
  fun rest => (h rest).trans (h' rest)

theorem append (h : Alike us vs) (cs : List Char) : Alike (us ++ cs) (vs ++ cs) := by
  intro rest
  rw [List.append_assoc, List.append_assoc]
  exact h (cs ++ rest)

/-- What makes no difference at the end of a text makes none after a beginning. -/
theorem of_interchangeable (us : List Char) {cs ds : List Char}
    (h : ∀ rest, Interchangeable (cs ++ rest) (ds ++ rest)) : Alike (us ++ cs) (us ++ ds) := by
  intro rest
  rw [List.append_assoc, List.append_assoc]
  exact (h rest).append us

theorem replicate_blank (h : Alike us (us ++ [' '])) (n : Nat) :
    Alike us (us ++ List.replicate n ' ') := by
  induction n with
  | zero => simpa using Alike.refl us
  | succ n ih =>
    have hfirst : Alike (us ++ List.replicate n ' ') ((us ++ [' ']) ++ List.replicate n ' ') :=
      h.append _
    rw [List.append_assoc] at hfirst
    exact ih.trans hfirst

theorem tidy_eq {s t : String} (h : Alike s.toList t.toList) : tidy s = tidy t := by
  have hends := (h []).here false
  rw [List.append_nil, List.append_nil] at hends
  rw [tidy, tidy, hends]

end Alike

/-! ## The traversal -/

mutual

/-- The tests and the domains of evolutions in a formula, in order and as they are written. Those
inside of such a condition are part of its text. -/
def Formula.conditions : Formula → List String
  | .verum | .falsum | .cmp .. | .pred .. | .raw _ | .hole _ => []
  | .not arg => arg.conditions
  | .and lhs rhs | .or lhs rhs | .implies lhs rhs => lhs.conditions ++ rhs.conditions
  | .box program post => program.conditions ++ post.conditions
  | .exist _ body => body.conditions

/-- The tests and the domains of evolutions in a program, as for formulas. -/
def Program.conditions : Program → List String
  | .skip | .havoc _ | .assign .. => []
  | .test cond => ["?" ++ cond.text ++ ";"]
  | .evolve _ domain => [" & " ++ domain.text ++ "\x7d"]
  | .seq first second => first.conditions ++ second.conditions
  | .choice left right => left.conditions ++ right.conditions
  | .group body => body.conditions

end

/-- A property of steps of the writer, and of texts that they show, that the writing of a tree
inherits from its steps. Only the arrow of an implication and the program of a box are written
differently in the two layouts. -/
structure Writer.Inherited (C : List String → (Writer → Writer) → Prop) : Prop where
  write : ∀ s, C [] (·.write s)
  comp : ∀ {shown shown' f g}, C shown f → C shown' g → C (shown ++ shown') fun w => g (f w)
  /-- A text that was written by a writer of its own. -/
  inner : ∀ {shown f} (before after : String), '\n' ∉ before.toList → '\n' ∉ after.toList →
    C shown f →
    C [before ++ (f (.empty .singleLine)).text ++ after]
      fun w => ((w.write before).write (f (.empty .singleLine)).text).write after
  nest : ∀ {shown f}, C shown f → C shown fun w => (f (w.indent true)).dedent true
  arrow : C [] fun w => if w.isSingleLine then w.write " -> " else w.newline.line "->"
  box : ∀ {shown f}, C shown f → C shown fun w =>
    (if (w.write "[").isSingleLine then f (w.write "[")
      else (f ((w.write "[").indent true)).dedent true).write "]"

namespace Writer.Inherited

variable {C : List String → (Writer → Writer) → Prop} (hC : Inherited C)
  {shown : List String} {f g : Writer → Writer}

include hC

/-- A step that shows nothing comes last; where it comes first, `comp` will do. -/
theorem before (hf : C shown f) (hg : C [] g) : C shown fun w => g (f w) := by
  have hcomp := hC.comp hf hg
  rwa [List.append_nil] at hcomp

theorem operand (hf : C shown f) (bare : Bool) :
    C shown fun w => if bare then f w else (f (w.write "(")).write ")" := by
  cases bare with
  | true => exact hf
  | false => exact hC.before (hC.comp (hC.write "(") hf) (hC.write ")")

/-- A sign in front of an operand, with the parenthesis if there is one. -/
theorem signed (hf : C shown f) (bare : Bool) (s t : String) :
    C shown fun w => if bare then f (w.write s) else (f (w.write t)).write ")" := by
  cases bare with
  | true => exact hC.comp (hC.write s) hf
  | false => exact hC.before (hC.comp (hC.write t) hf) (hC.write ")")

theorem moreItems {α : Type} {step : Writer → α → Writer} (h : ∀ a, C [] (step · a))
    (as : List α) : C [] (·.moreItems ", " step as) := by
  induction as with
  | nil => exact hC.write ""
  | cons a as ih => exact hC.comp (hC.comp (hC.write ", ") (h a)) ih

theorem items {α : Type} {step : Writer → α → Writer} (h : ∀ a, C [] (step · a))
    (as : List α) : C [] (·.items ", " step as) := by
  cases as with
  | nil => exact hC.write ""
  | cons a as => exact hC.comp (h a) (hC.moreItems h as)

theorem term (t : Term) : C [] (Term.write · t) := by
  induction t with
  | var name => exact hC.write name
  | num text => exact hC.write text
  | primed name => exact hC.comp (hC.write name) (hC.write "'")
  | bin op lhs rhs ihl ihr =>
    have hlhs := hC.comp (hC.write "(") ihl
    have hrhs := hC.comp (hC.write (" " ++ op.symbol ++ " ")) ihr
    exact hC.comp (hC.comp hlhs hrhs) (hC.write ")")
  | neg arg ih => exact hC.signed ih arg.isAtomic "-" "-("

theorem ode (ode : Ode) : C [] (Ode.write · ode) := by
  refine hC.items (fun equation => ?_) ode.equations
  exact hC.comp (hC.comp (hC.write equation.1) (hC.write "' = ")) (hC.term equation.2)

mutual

theorem formula : ∀ f : Formula, C f.conditions (Formula.write · f)
  | .verum | .falsum | .hole _ => by
    simp only [Formula.write, Formula.conditions]
    exact hC.write _
  | .cmp op lhs rhs => by
    simp only [Formula.write, Formula.conditions]
    exact hC.comp (hC.comp (hC.term lhs) (hC.write _)) (hC.term rhs)
  | .not arg => by
    simp only [Formula.write, Formula.conditions]
    exact hC.signed (formula arg) arg.isTight "!" "!("
  | .and lhs rhs => by
    simp only [Formula.write, Formula.conditions]
    have hlhs := hC.operand (formula lhs) lhs.fitsAnd
    exact hC.comp (hC.before hlhs (hC.write _)) (hC.operand (formula rhs) rhs.fitsAnd)
  | .or lhs rhs => by
    simp only [Formula.write, Formula.conditions]
    have hlhs := hC.operand (formula lhs) lhs.fitsOr
    exact hC.comp (hC.before hlhs (hC.write _)) (hC.operand (formula rhs) rhs.fitsOr)
  | .implies lhs rhs => by
    simp only [Formula.write, Formula.conditions]
    have hlhs := hC.operand (formula lhs) lhs.fitsImplies
    exact hC.comp (hC.before hlhs hC.arrow) (hC.operand (formula rhs) rhs.fitsImplies)
  | .box p post => by
    simp only [Formula.write, Formula.conditions]
    exact hC.comp (hC.box (program p)) (hC.operand (formula post) post.isTight)
  | .exist var body => by
    simp only [Formula.write, Formula.conditions]
    have hquantifier := hC.comp (hC.comp (hC.write "\\exists ") (hC.write var)) (hC.write " (")
    exact hC.before (hC.comp hquantifier (formula body)) (hC.write ")")
  | .pred name args => by
    simp only [Formula.write, Formula.conditions]
    have hname := hC.comp (hC.write name) (hC.write "(")
    exact hC.comp (hC.comp hname (hC.items hC.term args)) (hC.write ")")
  | .raw text => by
    simp only [Formula.write, Formula.conditions]
    exact hC.comp (hC.comp (hC.write "(") (hC.write text)) (hC.write ")")

theorem program : ∀ p : Program, C p.conditions (Program.write · p)
  | .skip => by
    simp only [Program.write, Program.conditions]
    exact hC.write _
  | .havoc var => by
    simp only [Program.write, Program.conditions]
    exact hC.comp (hC.write var) (hC.write _)
  | .assign var value => by
    simp only [Program.write, Program.conditions]
    have htarget := hC.comp (hC.write var) (hC.write " := ")
    exact hC.comp (hC.comp htarget (hC.term value)) (hC.write ";")
  | .test cond => by
    simp only [Program.write, Program.conditions, Formula.text]
    have htest := hC.inner "?" ";" (by decide) (by decide) (formula cond)
    exact htest
  | .evolve system domain => by
    simp only [Program.write, Program.conditions, Formula.text]
    have hsystem := hC.comp (hC.write "\x7b") (hC.ode system)
    have hdomain := hC.inner " & " "\x7d" (by decide) (by decide) (formula domain)
    exact hC.comp hsystem hdomain
  | .seq first second => by
    simp only [Program.write, Program.conditions]
    exact hC.comp (hC.before (program first) (hC.write "\n")) (program second)
  | .choice left right => by
    simp only [Program.write, Program.conditions]
    have hleft := hC.comp (hC.write "\x7b") (hC.nest (program left))
    have hright := hC.before (hC.nest (program right)) (hC.write "\x7d")
    exact hC.comp (hC.before hleft (hC.write "\x7d ++ \x7b")) hright
  | .group body => by
    simp only [Program.write, Program.conditions]
    exact hC.before (hC.comp (hC.write "\x7b") (hC.nest (program body))) (hC.write "\x7d")

end

end Writer.Inherited

/-! ## Steps of the writer -/

namespace Writer

variable {w v : Writer}

theorem put_singleLine (h : w.layout = .singleLine) (c : Char) :
    w.put c =
      { w with text := w.text.push (if c = '\n' then ' ' else c), atLineStart := false } := by
  rw [put, h]

theorem newline_eq_put (w : Writer) : w.newline = w.put '\n' := by
  simp [newline, write]

theorem put_lineFeed (h : w.layout = .manyLines) :
    w.put '\n' = { w with text := w.text.push '\n', atLineStart := true } := by
  rw [put, h]
  rfl

theorem put_manyLines (h : w.layout = .manyLines) {c : Char} (hc : c ≠ '\n') :
    w.put c = { w with
      text := (if w.atLineStart then w.text ++ margin w.level else w.text).push c
      atLineStart := false } := by
  rw [put, h]
  cases hstart : w.atLineStart <;> simp [hc]

/-- The margin that the next character of a line gets. -/
def lead (w : Writer) : List Char :=
  if !w.isSingleLine && w.atLineStart then (margin w.level).toList else []

theorem toList_text_put (w : Writer) {c : Char} (hc : c ≠ '\n') :
    (w.put c).text.toList = w.text.toList ++ w.lead ++ [c] := by
  cases hw : w.layout with
  | singleLine => simp [put_singleLine hw, lead, isSingleLine, hw, hc]
  | manyLines =>
    rw [put_manyLines hw hc]
    cases hstart : w.atLineStart <;> simp [lead, isSingleLine, hw, hstart]

theorem lead_put (w : Writer) {c : Char} (hc : c ≠ '\n') : (w.put c).lead = [] := by
  cases hw : w.layout with
  | singleLine => simp [put_singleLine hw, lead]
  | manyLines => simp [put_manyLines hw hc, lead]

theorem toList_text_foldl_put {w : Writer} (hw : w.lead = []) {cs : List Char} (hcs : '\n' ∉ cs) :
    (cs.foldl put w).text.toList = w.text.toList ++ cs := by
  induction cs generalizing w with
  | nil => simp
  | cons c cs ih =>
    rw [List.mem_cons, not_or] at hcs
    have hc : c ≠ '\n' := Ne.symm hcs.1
    rw [List.foldl_cons, ih (w.lead_put hc) hcs.2, toList_text_put w hc, hw]
    simp

/-- A text without a line feed is written in one piece, after a margin if it begins a line. -/
theorem exists_toList_text_write (w : Writer) {s : String} (hs : '\n' ∉ s.toList) :
    ∃ margin, (w.write s).text.toList = w.text.toList ++ (margin ++ s.toList) := by
  rw [write]
  cases hcs : s.toList with
  | nil => exact ⟨[], by simp⟩
  | cons c cs =>
    rw [hcs, List.mem_cons, not_or] at hs
    have hc : c ≠ '\n' := Ne.symm hs.1
    refine ⟨w.lead, ?_⟩
    rw [List.foldl_cons, toList_text_foldl_put (w.lead_put hc) hs.2, toList_text_put w hc]
    simp

theorem write_append (w : Writer) (s t : String) : w.write (s ++ t) = (w.write s).write t := by
  simp [write]

theorem indent_singleLine (h : w.layout = .singleLine) : w.indent true = w.newline := by
  simp [indent, newline, write, put, h]

theorem indent_manyLines (h : w.layout = .manyLines) :
    w.indent true = { w.newline with level := w.level + 1 } := by
  simp [indent, newline, write, put, h]

theorem dedent_singleLine (h : w.layout = .singleLine) : w.dedent true = w.newline := by
  simp [dedent, h]

theorem dedent_manyLines (h : w.layout = .manyLines) :
    w.dedent true = { w.newline with level := w.level - 1 } := by
  simp [dedent, newline, write, put, h]

theorem isSingleLine_of_singleLine (h : w.layout = .singleLine) : w.isSingleLine = true := by
  rw [isSingleLine, h]
  rfl

theorem isSingleLine_of_manyLines (h : w.layout = .manyLines) : w.isSingleLine = false := by
  rw [isSingleLine, h]
  rfl

/-! ## Two writers side by side -/

/-- A writer on a single line and one on several lines that have written the same up to spacing.
A margin makes no difference either: the second writer stands on level 0, or after a line feed. -/
structure Matches (w v : Writer) : Prop where
  single : w.layout = .singleLine
  many : v.layout = .manyLines
  text : Alike w.text.toList v.text.toList
  margin : v.atLineStart = true → v.level = 0 ∨ Alike v.text.toList (v.text.toList ++ [' '])

namespace Matches

theorem empty : Matches (.empty .singleLine) (.empty .manyLines) :=
  ⟨rfl, rfl, .refl _, fun _ => .inl rfl⟩

theorem alike_lead (h : Matches w v) : Alike v.text.toList (v.text.toList ++ v.lead) := by
  rw [lead, isSingleLine_of_manyLines h.many]
  cases hstart : v.atLineStart with
  | false => simpa using Alike.refl v.text.toList
  | true =>
    rcases h.margin hstart with hlevel | hblank
    · simpa [Writer.margin, hlevel] using Alike.refl v.text.toList
    · simpa [Writer.margin] using hblank.replicate_blank (2 * v.level)

/-- After a line break the level does not matter. -/
theorem newline (h : Matches w v) (level : Nat) :
    Matches w.newline { v.newline with level := level } := by
  rw [newline_eq_put, newline_eq_put, put_singleLine h.single, put_lineFeed h.many]
  refine ⟨h.single, h.many, ?_, fun _ => .inr ?_⟩
  · have hfeed : Alike (v.text.toList ++ [' ']) (v.text.toList ++ ['\n']) :=
      .of_interchangeable _ fun rest => .gap rest rfl rfl
    simpa using (h.text.append [' ']).trans hfeed
  · have hblank : Alike (v.text.toList ++ ['\n']) (v.text.toList ++ ['\n', ' ']) :=
      .of_interchangeable _ fun rest => .gap_gap rest rfl rfl
    simpa using hblank

theorem put (h : Matches w v) (c : Char) : Matches (w.put c) (v.put c) := by
  by_cases hc : c = '\n'
  · rw [hc, ← newline_eq_put, ← newline_eq_put]
    exact h.newline v.newline.level
  · -- only the second writer has a margin to put first
    have htext : Alike (w.put c).text.toList (v.put c).text.toList := by
      rw [toList_text_put w hc, toList_text_put v hc, lead, isSingleLine_of_singleLine h.single]
      simpa using (h.text.trans h.alike_lead).append [c]
    rw [put_singleLine h.single, put_manyLines h.many hc] at htext ⊢
    exact ⟨h.single, h.many, htext, by rintro ⟨⟩⟩

theorem write (h : Matches w v) (s : String) : Matches (w.write s) (v.write s) := by
  rw [Writer.write, Writer.write]
  induction s.toList generalizing w v with
  | nil => exact h
  | cons c cs ih => exact ih (h.put c)

theorem indent (h : Matches w v) : Matches w.newline (v.indent true) := by
  rw [indent_manyLines h.many]
  exact h.newline _

theorem dedent (h : Matches w v) : Matches w.newline (v.dedent true) := by
  rw [dedent_manyLines h.many]
  exact h.newline _

/-- The first writer may have written less spacing. -/
theorem lessSpacing {w' : Writer} (h : Matches w v) (hsingle : w'.layout = .singleLine)
    (htext : Alike w'.text.toList w.text.toList) : Matches w' v :=
  ⟨hsingle, h.many, htext.trans h.text, h.margin⟩

end Matches

/-- A step that writes the same in the two layouts up to spacing. -/
def KeepsMatching (f : Writer → Writer) : Prop :=
  ∀ w v, Matches w v → Matches (f w) (f v)

namespace KeepsMatching

variable {f : Writer → Writer}

theorem write (s : String) : KeepsMatching (·.write s) :=
  fun _ _ h => h.write s

theorem nest (hf : KeepsMatching f) :
    KeepsMatching fun w => (f (w.indent true)).dedent true := by
  intro w v h
  have hinside : Matches (f w.newline) (f (v.indent true)) := hf _ _ h.indent
  simp only [indent_singleLine h.single, dedent_singleLine hinside.single]
  exact hinside.dedent

theorem arrow : KeepsMatching fun w =>
    if w.isSingleLine then w.write " -> " else w.newline.line "->" := by
  intro w v h
  have hline : w.newline.line "->" = w.write " -> " := by
    simp [Writer.line, Writer.newline, Writer.write, Writer.put, h.single]
  simp only [isSingleLine_of_singleLine h.single, isSingleLine_of_manyLines h.many, if_true]
  rw [← hline]
  exact ((h.write "\n").write "->").write "\n"

/-- The line breaks inside of the brackets of a box are what `tidy` leaves out. -/
theorem box (hf : KeepsMatching f) : KeepsMatching fun w =>
    (if (w.write "[").isSingleLine then f (w.write "[")
      else (f ((w.write "[").indent true)).dedent true).write "]" := by
  intro w v h
  have hopen : Matches (w.write "[") (v.write "[") := h.write "["
  simp only [isSingleLine_of_singleLine hopen.single, isSingleLine_of_manyLines hopen.many, if_true]
  -- on several lines there is one more line break on either side of the program
  have hinside : Matches (f (w.write "[")) (f ((v.write "[").indent true)) := by
    refine hf _ _ (hopen.indent.lessSpacing hopen.single ?_)
    have hblank : Alike (w.text.toList ++ ['[']) (w.text.toList ++ ['[', ' ']) :=
      .of_interchangeable _ .open_blank
    simpa [Writer.newline, Writer.write, put_singleLine, h.single] using hblank
  refine (hinside.dedent.write "]").lessSpacing (hinside.write "]").single ?_
  generalize f (w.write "[") = u at hinside
  have hblank : Alike (u.text.toList ++ [']']) (u.text.toList ++ [' ', ']']) :=
    .of_interchangeable _ .blank_close
  simpa [Writer.newline, Writer.write, put_singleLine, hinside.single] using hblank

end KeepsMatching

theorem inherited_keepsMatching : Inherited fun _ f => KeepsMatching f where
  write := .write
  comp hf hg w v h := hg _ _ (hf w v h)
  inner before after _ _ _ _ _ h := ((h.write before).write _).write after
  nest := .nest
  arrow := .arrow
  box := .box

end Writer

/-! ## What a step adds to the text -/

/-- The texts stand one after another among the characters, each of them in one piece. -/
inductive InOrder : List String → List Char → Prop where
  | nil (cs : List Char) : InOrder [] cs
  | cons {shown : List String} {rest : List Char} (before : List Char) (s : String) :
    InOrder shown rest → InOrder (s :: shown) (before ++ (s.toList ++ rest))

namespace InOrder

variable {shown shown' : List String} {cs ds : List Char}

theorem after (before : List Char) (h : InOrder shown cs) : InOrder shown (before ++ cs) := by
  cases h with
  | nil => exact .nil _
  | cons before' s h =>
    rw [← List.append_assoc]
    exact .cons _ s h

theorem append (h : InOrder shown cs) (h' : InOrder shown' ds) :
    InOrder (shown ++ shown') (cs ++ ds) := by
  induction h with
  | nil cs => exact h'.after cs
  | cons before s _ ih =>
    rw [List.append_assoc, List.append_assoc]
    exact .cons before s ih

end InOrder

/-- The step only adds to the text, on a single line without a line feed, and leaves layout and
level as they are. The texts that it shows have no line feed and stand in order in what it adds. -/
structure Shows (shown : List String) (f : Writer → Writer) : Prop where
  unbroken : ∀ s ∈ shown, '\n' ∉ s.toList
  layout : ∀ w, (f w).layout = w.layout
  level : ∀ w, (f w).level = w.level
  text : ∀ w, ∃ added, (f w).text.toList = w.text.toList ++ added ∧
    (w.layout = .singleLine → '\n' ∉ added) ∧ InOrder shown added

namespace Shows

variable {shown shown' : List String} {f g : Writer → Writer}

theorem comp (hf : Shows shown f) (hg : Shows shown' g) :
    Shows (shown ++ shown') fun w => g (f w) where
  unbroken s hs := (List.mem_append.1 hs).elim (hf.unbroken s) (hg.unbroken s)
  layout w := (hg.layout (f w)).trans (hf.layout w)
  level w := (hg.level (f w)).trans (hf.level w)
  text w := by
    obtain ⟨first, hfirst, hline, hshown⟩ := hf.text w
    obtain ⟨second, hsecond, hline', hshown'⟩ := hg.text (f w)
    refine ⟨first ++ second, by rw [hsecond, hfirst, List.append_assoc], fun hw => ?_,
      hshown.append hshown'⟩
    rw [List.mem_append, not_or]
    exact ⟨hline hw, hline' ((hf.layout w).trans hw)⟩

theorem put (c : Char) : Shows [] (·.put c) where
  unbroken := by simp
  layout w := by grind [Writer.put]
  level w := by grind [Writer.put]
  text w := by
    cases hw : w.layout with
    | singleLine =>
      refine ⟨[if c = '\n' then ' ' else c], ?_, fun _ => ?_, .nil _⟩
      · simp [Writer.put_singleLine hw]
      · by_cases hc : c = '\n' <;> simp [hc, eq_comm]
    | manyLines =>
      by_cases hc : c = '\n'
      · exact ⟨['\n'], by simp [hc, Writer.put_lineFeed hw], by simp, .nil _⟩
      · refine ⟨w.lead ++ [c], ?_, by simp, .nil _⟩
        rw [Writer.toList_text_put w hc, List.append_assoc]

theorem write (s : String) : Shows [] (·.write s) := by
  simp only [Writer.write]
  induction s.toList with
  | nil => exact ⟨by simp, fun _ => rfl, fun _ => rfl, fun w => ⟨[], by simp, by simp, .nil _⟩⟩
  | cons c cs ih => exact (put c).comp ih

end Shows

namespace Writer

theorem layout_indent (w : Writer) : (w.indent true).layout = w.layout := by
  cases hw : w.layout <;> simp [indent, newline, (Shows.write "\n").layout, hw]

theorem text_indent (w : Writer) : (w.indent true).text = w.newline.text := by
  cases hw : w.layout <;> simp [indent_singleLine, indent_manyLines, hw]

theorem layout_dedent (w : Writer) : (w.dedent true).layout = w.layout := by
  cases hw : w.layout <;> simp [dedent, newline, (Shows.write "\n").layout, hw]

theorem text_dedent (w : Writer) : (w.dedent true).text = w.newline.text := by
  cases hw : w.layout <;> simp [dedent_singleLine, dedent_manyLines, hw]

end Writer

namespace Shows

variable {shown : List String} {f g : Writer → Writer}

theorem nest (hf : Shows shown f) : Shows shown fun w => (f (w.indent true)).dedent true where
  unbroken := hf.unbroken
  layout w := by rw [Writer.layout_dedent, hf.layout, Writer.layout_indent]
  level w := by
    have hlayout : (f (w.indent true)).layout = w.layout := by rw [hf.layout, Writer.layout_indent]
    cases hw : w.layout with
    | singleLine =>
      rw [Writer.dedent_singleLine (hlayout.trans hw), Writer.newline, (write "\n").level, hf.level,
        Writer.indent_singleLine hw, Writer.newline, (write "\n").level]
    | manyLines =>
      rw [Writer.dedent_manyLines (hlayout.trans hw), hf.level, Writer.indent_manyLines hw,
        Nat.add_sub_cancel]
  text w := by
    obtain ⟨first, hfirst, hline, -⟩ := (write "\n").text w
    obtain ⟨inside, hinside, hline', hshown⟩ := hf.text (w.indent true)
    obtain ⟨last, hlast, hline'', -⟩ := (write "\n").text (f (w.indent true))
    refine ⟨first ++ (inside ++ last), ?_, fun hw => ?_, ?_⟩
    · rw [Writer.text_dedent, Writer.newline, hlast, hinside, Writer.text_indent, Writer.newline,
        hfirst]
      simp
    · have hindent : (w.indent true).layout = .singleLine := (Writer.layout_indent w).trans hw
      simp [hline hw, hline' hindent, hline'' ((hf.layout _).trans hindent)]
    · simpa using (hshown.append (.nil last)).after first

/-- A step that is chosen by the state of the writer. -/
theorem choose (hf : Shows shown f) (hg : Shows shown g) (p : Writer → Bool) :
    Shows shown fun w => if p w then f w else g w where
  unbroken := hf.unbroken
  layout w := by
    split
    · exact hf.layout w
    · exact hg.layout w
  level w := by
    split
    · exact hf.level w
    · exact hg.level w
  text w := by
    split
    · exact hf.text w
    · exact hg.text w

theorem box (hf : Shows shown f) : Shows shown fun w =>
    (if (w.write "[").isSingleLine then f (w.write "[")
      else (f ((w.write "[").indent true)).dedent true).write "]" := by
  have hbox := ((write "[").comp (hf.choose hf.nest Writer.isSingleLine)).comp (write "]")
  rwa [List.append_nil] at hbox

theorem write_unbroken {s : String} (hs : '\n' ∉ s.toList) : Shows [s] (·.write s) where
  unbroken := by simpa using hs
  layout := (write s).layout
  level := (write s).level
  text w := by
    obtain ⟨added, hadded, hline, -⟩ := (write s).text w
    obtain ⟨margin, hmargin⟩ := w.exists_toList_text_write hs
    have hpiece : added = margin ++ s.toList := List.append_cancel_left (hadded.symm.trans hmargin)
    refine ⟨added, hadded, hline, ?_⟩
    rw [hpiece, ← List.append_nil s.toList]
    exact .cons margin s (.nil [])

theorem not_mem_text (hf : Shows shown f) : '\n' ∉ (f (.empty .singleLine)).text.toList := by
  obtain ⟨added, hadded, hline, -⟩ := hf.text (.empty .singleLine)
  rw [hadded]
  exact hline rfl

theorem inner (before after : String) (hbefore : '\n' ∉ before.toList)
    (hafter : '\n' ∉ after.toList) (hf : Shows shown f) :
    Shows [before ++ (f (.empty .singleLine)).text ++ after]
      fun w => ((w.write before).write (f (.empty .singleLine)).text).write after := by
  simp only [← Writer.write_append]
  exact write_unbroken (by simp [hbefore, hf.not_mem_text, hafter])

end Shows

theorem inherited_shows : Writer.Inherited Shows where
  write := .write
  comp := .comp
  inner := .inner
  nest := .nest
  arrow :=
    have hlines := (Shows.write "\n").comp ((Shows.write "->").comp (.write "\n"))
    (Shows.write " -> ").choose hlines Writer.isSingleLine
  box := .box

/-! ## The two layouts -/

/-- Steps that match show the same in the two layouts, up to spacing. -/
theorem Writer.KeepsMatching.tidy_eq {f : Writer → Writer} (hf : Writer.KeepsMatching f) :
    tidy (f (.empty .manyLines)).text = tidy (f (.empty .singleLine)).text :=
  (hf _ _ .empty).text.tidy_eq.symm

/-- The layouts of a term, a formula or a program agree up to spacing, and the one on a single line
has no line feed. Whatever a writer has written before and on whatever level it stands, it ends on
the same level, and each test and each domain of an evolution is written without a line break. -/
theorem layouts_agree :
    (∀ t : Term, tidy (t.write (.empty .manyLines)).text = tidy t.text ∧ '\n' ∉ t.text.toList) ∧
    (∀ f : Formula, tidy f.display = tidy f.text ∧ '\n' ∉ f.text.toList) ∧
    (∀ p : Program, tidy p.display = tidy p.text ∧ '\n' ∉ p.text.toList) ∧
    ∀ w : Writer,
      (∀ t : Term, (t.write w).level = w.level) ∧
      (∀ f : Formula, (f.write w).level = w.level ∧ (∀ s ∈ f.conditions, '\n' ∉ s.toList) ∧
        ∃ added, (f.write w).text.toList = w.text.toList ++ added ∧ InOrder f.conditions added) ∧
      ∀ p : Program, (p.write w).level = w.level ∧ (∀ s ∈ p.conditions, '\n' ∉ s.toList) ∧
        ∃ added, (p.write w).text.toList = w.text.toList ++ added ∧ InOrder p.conditions added := by
  have hmatch := Writer.inherited_keepsMatching
  have hshow := inherited_shows
  refine ⟨fun t => ⟨(hmatch.term t).tidy_eq, (hshow.term t).not_mem_text⟩,
    fun f => ⟨(hmatch.formula f).tidy_eq, (hshow.formula f).not_mem_text⟩,
    fun p => ⟨(hmatch.program p).tidy_eq, (hshow.program p).not_mem_text⟩,
    fun w => ⟨fun t => (hshow.term t).level w, fun f => ?_, fun p => ?_⟩⟩
  · obtain ⟨added, hadded, -, hshown⟩ := (hshow.formula f).text w
    exact ⟨(hshow.formula f).level w, (hshow.formula f).unbroken, added, hadded, hshown⟩
  · obtain ⟨added, hadded, -, hshown⟩ := (hshow.program p).text w
    exact ⟨(hshow.program p).level w, (hshow.program p).unbroken, added, hadded, hshown⟩

example : (Formula.box (.test .verum) .verum).display = "[\n  ?true;\n]true" ∧
    tidy "[\n  ?true;\n]true" = "[?true;]true" := by
  decide

end HybridObjects
