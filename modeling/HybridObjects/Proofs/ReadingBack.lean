import HybridObjects.Proofs.Declarations
import HybridObjects.Proofs.Grammar
import HybridObjects.Proofs.Semantics
import HybridObjects.Proofs.Spelling

/-!
# HybridObjects.Proofs.ReadingBack

The text of a tree means what the tree says. `reads_back_uniquely`: the text of a legible tree whose
choices stand directly in braces has exactly one reading, and this is the tree itself, but for the
association of conjunctions, disjunctions and sequences and for braces. All three associate to the
right when they are read, whereas a nested one on the left is written without brackets; hence a
reading is given together with all that may follow it (`Connective.ReadsLeft`).

* `Same`             — trees that differ in brackets only; they have the same meaning.
* `Formula.isRead`   — the tokens of a formula are read as the formula.
* `Formula.Grouped`  — every choice stands directly in braces; so it is in all that is generated.
-/

namespace HybridObjects

open Lexeme (sym word infixed operand braced items tokens)

/-! ## Trees that differ in brackets only -/

/-- Trees that differ in the association of conjunctions, disjunctions and sequences and in the
braces around programs. -/
inductive Same : Tree → Tree → Prop where
  | refl (x : Tree) : Same x x
  | symm {x y : Tree} : Same x y → Same y x
  | trans {x y z : Tree} : Same x y → Same y z → Same x z
  | assoc {c : Connective} (f g h : Formula) : c ≠ .implies →
      Same (.formula (c.join (c.join f g) h)) (.formula (c.join f (c.join g h)))
  | seqAssoc (p q r : Program) :
      Same (.program (.seq (.seq p q) r)) (.program (.seq p (.seq q r)))
  | group (p : Program) : Same (.program (.group p)) (.program p)
  | connect (c : Connective) {f f' g g' : Formula} : Same (.formula f) (.formula f') →
      Same (.formula g) (.formula g') → Same (.formula (c.join f g)) (.formula (c.join f' g'))
  | not {f f' : Formula} : Same (.formula f) (.formula f') →
      Same (.formula (.not f)) (.formula (.not f'))
  | box {p p' : Program} {f f' : Formula} : Same (.program p) (.program p') →
      Same (.formula f) (.formula f') → Same (.formula (.box p f)) (.formula (.box p' f'))
  | exist (x : String) {f f' : Formula} : Same (.formula f) (.formula f') →
      Same (.formula (.exist x f)) (.formula (.exist x f'))
  | test {f f' : Formula} : Same (.formula f) (.formula f') →
      Same (.program (.test f)) (.program (.test f'))
  | evolve (ode : Ode) {f f' : Formula} : Same (.formula f) (.formula f') →
      Same (.program (.evolve ode f)) (.program (.evolve ode f'))
  | seq {p p' q q' : Program} : Same (.program p) (.program p') →
      Same (.program q) (.program q') → Same (.program (.seq p q)) (.program (.seq p' q'))
  | choice {p p' q q' : Program} : Same (.program p) (.program p') →
      Same (.program q) (.program q') → Same (.program (.choice p q)) (.program (.choice p' q'))

/-- What a tree says of a start and an end: a formula speaks of the start only. -/
def Tree.Meaning (I : Interp) : Tree → Store → Store → Prop
  | .formula f, s, _ => f.Holds I s
  | .program p, s, t => p.Runs I s t

theorem Same.meaning_iff {x y : Tree} (h : Same x y) (I : Interp) :
    ∀ s t, x.Meaning I s t ↔ y.Meaning I s t := by
  induction h with
  | refl => exact fun _ _ => Iff.rfl
  | symm _ ih => exact fun s t => (ih s t).symm
  | trans _ _ ih₁ ih₂ => exact fun s t => (ih₁ s t).trans (ih₂ s t)
  | @assoc c f g h hc =>
    intro s t
    cases c with
    | and => simp [Tree.Meaning, Connective.join, Formula.Holds, and_assoc]
    | or => simp [Tree.Meaning, Connective.join, Formula.Holds, or_assoc]
    | implies => exact absurd rfl hc
  | seqAssoc p q r =>
    intro s t
    simp only [Tree.Meaning, Program.Runs]
    constructor
    · rintro ⟨u, ⟨v, hp, hq⟩, hr⟩
      exact ⟨v, hp, u, hq, hr⟩
    · rintro ⟨v, hp, u, hq, hr⟩
      exact ⟨u, ⟨v, hp, hq⟩, hr⟩
  | group p => exact fun _ _ => Iff.rfl
  | connect c _ _ ih₁ ih₂ =>
    intro s t
    simp only [Tree.Meaning] at ih₁ ih₂ ⊢
    cases c <;> simp [Connective.join, Formula.Holds, ih₁ s s, ih₂ s s]
  | not _ ih =>
    intro s t
    simp only [Tree.Meaning] at ih ⊢
    simp [Formula.Holds, ih s s]
  | box _ _ ih₁ ih₂ =>
    intro s t
    simp only [Tree.Meaning] at ih₁ ih₂ ⊢
    simp [Formula.Holds, ih₁, fun u => ih₂ u u]
  | exist x _ ih =>
    intro s t
    simp only [Tree.Meaning] at ih ⊢
    simp [Formula.Holds, fun u => ih u u]
  | test _ ih =>
    intro s t
    simp only [Tree.Meaning] at ih ⊢
    simp [Program.Runs, ih s s]
  | evolve ode _ ih =>
    intro s t
    simp only [Tree.Meaning] at ih ⊢
    simp [Program.Runs, fun u => ih u u]
  | seq _ _ ih₁ ih₂ | choice _ _ ih₁ ih₂ =>
    intro s t
    simp only [Tree.Meaning] at ih₁ ih₂ ⊢
    simp [Program.Runs, ih₁, ih₂]

/-! ## Readings of terms -/

@[simp] theorem Lexeme.tokens_nil : tokens [] = [] := rfl

@[simp] theorem Lexeme.tokens_token (t : Token) (l : List Lexeme) :
    tokens (.token t :: l) = t :: tokens l := rfl

@[simp] theorem Lexeme.tokens_blank (l : List Lexeme) : tokens (.blank :: l) = tokens l := rfl

@[simp] theorem Lexeme.tokens_append (l m : List Lexeme) : tokens (l ++ m) = tokens l ++ tokens m :=
  List.filterMap_append

@[simp] theorem Lexeme.tokens_infixed (s : Symbol) : tokens (infixed s) = [.symbol s] := rfl

@[simp] theorem Lexeme.tokens_braced (l : List Lexeme) :
    tokens (braced l) = .symbol .lbrace :: tokens l ++ [.symbol .rbrace] := by
  simp [braced]

namespace ReadsTerm

theorem lower {ts : List Token} {j k : Nat} {t : Term} (h : ReadsTerm ts k none t) (hjk : j ≤ k) :
    ReadsTerm ts j none t := by
  obtain ⟨d, rfl⟩ := Nat.exists_eq_add_of_le hjk
  induction d with
  | zero => exact h
  | succ d ih =>
    have hchain := h.chain .stop
    rw [List.append_nil] at hchain
    exact ih hchain (Nat.le_add_right j d)

theorem bin {ls rs : List Token} {op : ArithOp} {l r : Term}
    (hl : ReadsTerm ls (op.level + 1) none l) (hr : ReadsTerm rs (op.level + 1) none r) :
    ReadsTerm (ls ++ .symbol (.arith op) :: rs) op.level none (.bin op l r) := by
  have hchain := hl.chain (.step rfl hr .stop)
  rwa [List.append_nil] at hchain

end ReadsTerm

theorem ArithOp.level_lt (op : ArithOp) : op.level < 2 := by
  cases op <;> decide

/-- A legible term is read from its tokens as a signed or atomic one. -/
theorem Term.reads {t : Term} (h : t.isLegible = true) :
    ReadsTerm (tokens t.lexemes) 2 none t := by
  induction t with
  | var name => exact .var name
  | num text => exact .num h
  | primed name => exact .primed name
  | bin op lhs rhs ihl ihr =>
    rw [Term.isLegible, Bool.and_eq_true] at h
    -- in its parentheses an operation of any level reads as a sum
    have hinner := ((ihl h.1).lower op.level_lt).bin ((ihr h.2).lower op.level_lt)
    simpa [Term.lexemes] using (hinner.lower (Nat.zero_le _)).paren
  | neg arg ih =>
    have harg := ih h
    cases hatomic : arg.isAtomic with
    | true => simpa [Term.lexemes, operand, hatomic] using harg.neg
    | false => simpa [Term.lexemes, operand, hatomic] using (harg.lower (Nat.zero_le 2)).paren.neg

theorem readsArgs {args : List Term} (h : ∀ arg ∈ args, arg.isLegible = true) :
    ReadsArgs (tokens (items Term.lexemes args)) args := by
  induction args with
  | nil => exact .nil
  | cons t us ih =>
    rw [List.forall_mem_cons] at h
    have hfirst := (Term.reads h.1).lower (Nat.zero_le 2)
    cases us with
    | nil => simpa [items] using ReadsArgs.last hfirst
    | cons u us => simpa [items] using ReadsArgs.cons hfirst (ih h.2)

theorem Ode.reads {ode : Ode} (h : ode.isLegible = true) :
    ReadsEquations (tokens ode.lexemes) ode.equations := by
  obtain ⟨equations⟩ := ode
  rw [Ode.isLegible, Bool.and_eq_true, List.all_eq_true] at h
  obtain ⟨hne, h⟩ := h
  rw [Ode.lexemes]
  dsimp only at *
  induction equations with
  | nil => cases hne
  | cons e es ih =>
    rw [List.forall_mem_cons, Bool.and_eq_true] at h
    have hfirst := (Term.reads h.1.2).lower (Nat.zero_le 2)
    cases es with
    | nil => simpa [items] using ReadsEquations.last hfirst
    | cons e' es => simpa [items] using ReadsEquations.cons hfirst (ih rfl h.2)

/-! ## Readings of formulas -/

theorem Reads.lower {ts : List Token} {j k : Nat} {x : Tree} (h : Reads ts k x) (hjk : j ≤ k) :
    Reads ts j x := by
  obtain ⟨d, rfl⟩ := Nat.exists_eq_add_of_le hjk
  induction d with
  | zero => exact h
  | succ d ih => exact ih h.lift (Nat.le_add_right j d)

/-- The tokens are read as the formula, but for brackets. -/
def Formula.ReadFrom (f : Formula) (ts : List Token) (k : Nat) : Prop :=
  ∃ g, Reads ts k (.formula g) ∧ Same (.formula g) (.formula f)

/-- The level of the text of a formula. -/
def Formula.level : Formula → Nat
  | .and .. => Connective.and.level
  | .or .. => Connective.or.level
  | .implies .. => Connective.implies.level
  | _ => 3

namespace Connective

/-- The connective may follow the text of the formula: it binds less tightly, or equally so, and
the order of association does not matter. -/
def Admits (c : Connective) (f : Formula) : Prop :=
  c.level < f.level ∨ c ≠ .implies ∧ c.level = f.level

theorem Admits.le {c : Connective} {f : Formula} (h : c.Admits f) : c.level ≤ f.level :=
  h.elim Nat.le_of_lt fun h => Nat.le_of_eq h.2

theorem level_join (c : Connective) (f g : Formula) : (c.join f g).level = c.level := by
  cases c <;> rfl

theorem admits_of_fitsAnd {f : Formula} (h : f.fitsAnd = true) : Connective.and.Admits f := by
  cases f with
  | and => exact .inr ⟨nofun, rfl⟩
  | or | implies => cases h
  | _ => exact .inl (level_lt .and)

theorem admits_of_fitsOr {f : Formula} (h : f.fitsOr = true) : Connective.or.Admits f := by
  cases f with
  | or => exact .inr ⟨nofun, rfl⟩
  | and | implies => cases h
  | _ => exact .inl (level_lt .or)

theorem admits_of_fitsImplies {f : Formula} (h : f.fitsImplies = true) :
    Connective.implies.Admits f := by
  cases f with
  | and | or | implies => cases h
  | _ => exact .inl (level_lt .implies)

/-- Whatever follows the connective, the tokens in front of it are read as the left operand. -/
def ReadsLeft (c : Connective) (ts : List Token) (f : Formula) : Prop :=
  ∀ rest h, Reads rest c.level (.formula h) →
    (c.join f h).ReadFrom (ts ++ .symbol c.symbol :: rest) c.level

theorem ReadsLeft.of_tighter {c : Connective} {f : Formula} {ts : List Token}
    (h : f.ReadFrom ts (c.level + 1)) : c.ReadsLeft ts f := by
  obtain ⟨g, hg, hsame⟩ := h
  exact fun rest h hrest => ⟨c.join g h, .connect rfl hg hrest, .connect c hsame (.refl _)⟩

/-- A chain of operands on the left associates to the right. -/
theorem ReadsLeft.join {c : Connective} {f g : Formula} {ts us : List Token} (hc : c ≠ .implies)
    (hf : c.ReadsLeft ts f) (hg : c.ReadsLeft us g) :
    c.ReadsLeft (ts ++ .symbol c.symbol :: us) (c.join f g) := by
  intro rest h hrest
  obtain ⟨right, hright, hsame⟩ := hg rest h hrest
  obtain ⟨all, hall, hsame'⟩ := hf _ right hright
  refine ⟨all, ?_, hsame'.trans ?_⟩
  · rwa [List.append_assoc]
  · exact (Same.connect c (.refl _) hsame).trans (Same.assoc f g h hc).symm

end Connective

namespace Formula

/-- The tokens are read as the formula, on their own and in front of a connective. -/
structure IsRead (f : Formula) (ts : List Token) : Prop where
  alone : f.ReadFrom ts f.level
  left : ∀ c : Connective, c.Admits f → c.ReadsLeft ts f

variable {f g : Formula} {l m : List Lexeme} {ts : List Token}

theorem ReadFrom.lower {j k : Nat} (h : f.ReadFrom ts k) (hjk : j ≤ k) : f.ReadFrom ts j := by
  obtain ⟨g, hg, hsame⟩ := h
  exact ⟨g, hg.lower hjk, hsame⟩

theorem IsRead.of_top (hlevel : f.level = 3) (h : f.ReadFrom ts 3) : f.IsRead ts where
  alone := hlevel ▸ h
  left := fun c _ => .of_tighter (h.lower c.level_lt)

/-- An operand is read, in parentheses or bare where it may be. -/
theorem IsRead.operand (h : f.IsRead (tokens l)) {bare : Bool} {k : Nat} (hk : k ≤ 3)
    (hbare : bare = true → k ≤ f.level) : f.ReadFrom (tokens (operand bare l)) k := by
  cases bare with
  | true => exact h.alone.lower (hbare rfl)
  | false =>
    obtain ⟨g, hg, hsame⟩ := h.alone.lower (Nat.zero_le _)
    refine ⟨g, ?_, hsame⟩
    simpa [Lexeme.operand] using hg.paren.lower hk

theorem IsRead.tightOperand (h : f.IsRead (tokens l)) :
    f.ReadFrom (tokens (Lexeme.operand f.isTight l)) 3 := by
  refine h.operand (Nat.le_refl 3) fun htight => ?_
  cases f with
  | cmp | and | or | implies => cases htight
  | _ => exact Nat.le_refl 3

theorem IsRead.leftOperand (h : f.IsRead (tokens l)) {bare : Bool} {c : Connective}
    (hbare : bare = true → c.Admits f) : c.ReadsLeft (tokens (Lexeme.operand bare l)) f := by
  cases bare with
  | true => exact h.left c (hbare rfl)
  | false => exact .of_tighter (h.operand c.level_lt nofun)

theorem IsRead.join (c : Connective) {a b : Bool} (hf : f.IsRead (tokens l))
    (hg : g.IsRead (tokens m)) (ha : a = true → c.Admits f) (hb : b = true → c.Admits g) :
    (c.join f g).IsRead (tokens (Lexeme.operand a l ++ infixed c.symbol ++ Lexeme.operand b m)) := by
  have htokens : tokens (Lexeme.operand a l ++ infixed c.symbol ++ Lexeme.operand b m) =
      tokens (Lexeme.operand a l) ++ .symbol c.symbol :: tokens (Lexeme.operand b m) := by
    simp
  rw [htokens]
  have hleft := hf.leftOperand ha
  obtain ⟨right, hright, hsame⟩ := hg.operand (Nat.le_of_lt c.level_lt) fun h => (hb h).le
  obtain ⟨all, hall, hsame'⟩ := hleft _ right hright
  have halone : (c.join f g).ReadFrom
      (tokens (Lexeme.operand a l) ++ .symbol c.symbol :: tokens (Lexeme.operand b m)) c.level :=
    ⟨all, hall, hsame'.trans (.connect c (.refl _) hsame)⟩
  refine ⟨(c.level_join f g).symm ▸ halone, fun d hd => ?_⟩
  -- a connective that binds less tightly takes the whole; the same one continues the chain
  rcases hd with hlt | ⟨hne, heq⟩
  · rw [Connective.level_join] at hlt
    exact .of_tighter (halone.lower hlt)
  · rw [Connective.level_join] at heq
    obtain rfl := Connective.eq_of_level heq
    exact hleft.join hne (hg.leftOperand hb)

end Formula

/-! ## Readings of programs -/

namespace Program

/-- The tokens are read as the program, but for brackets. -/
def ReadFrom (p : Program) (ts : List Token) (k : Nat) : Prop :=
  ∃ q, Reads ts k (.program q) ∧ Same (.program q) (.program p)

def level : Program → Nat
  | .choice .. => 0
  | .seq .. => 1
  | _ => 2

/-- The tokens are read as the program, on their own and in front of a sequence. -/
structure IsRead (p : Program) (ts : List Token) : Prop where
  alone : p.ReadFrom ts p.level
  left : 1 ≤ p.level → ∀ rest q, Reads rest 1 (.program q) → (p.seq q).ReadFrom (ts ++ rest) 1

variable {p q : Program} {ts us : List Token}

theorem ReadFrom.lower {j k : Nat} (h : p.ReadFrom ts k) (hjk : j ≤ k) : p.ReadFrom ts j := by
  obtain ⟨q, hq, hsame⟩ := h
  exact ⟨q, hq.lower hjk, hsame⟩

theorem IsRead.of_statement (hlevel : p.level = 2) (h : p.ReadFrom ts 2) : p.IsRead ts where
  alone := hlevel ▸ h
  left := by
    obtain ⟨r, hr, hsame⟩ := h
    exact fun _ rest q hq => ⟨r.seq q, hr.seq hq, hsame.seq (.refl _)⟩

theorem IsRead.group (h : p.IsRead ts) :
    p.group.ReadFrom (.symbol .lbrace :: ts ++ [.symbol .rbrace]) 2 := by
  obtain ⟨q, hq, hsame⟩ := h.alone.lower (Nat.zero_le _)
  exact ⟨q.group, hq.group, (Same.group q).trans (hsame.trans (Same.group p).symm)⟩

theorem IsRead.seq (hp : p.IsRead ts) (hq : q.IsRead us) (hp1 : 1 ≤ p.level) (hq1 : 1 ≤ q.level) :
    (p.seq q).IsRead (ts ++ us) where
  alone := by
    obtain ⟨right, hright, hsame⟩ := hq.alone.lower hq1
    obtain ⟨all, hall, hsame'⟩ := hp.left hp1 us right hright
    exact ⟨all, hall, hsame'.trans (Same.seq (.refl _) hsame)⟩
  left := by
    intro _ rest r hr
    obtain ⟨right, hright, hsame⟩ := hq.left hq1 rest r hr
    obtain ⟨all, hall, hsame'⟩ := hp.left hp1 _ right hright
    refine ⟨all, ?_, hsame'.trans ?_⟩
    · rwa [List.append_assoc]
    · exact (Same.seq (.refl _) hsame).trans (Same.seqAssoc p q r).symm

theorem IsRead.choice (hp : p.IsRead ts) (hq : q.IsRead us) :
    (p.choice q).IsRead ((.symbol .lbrace :: ts ++ [.symbol .rbrace]) ++
      .symbol .choice :: (.symbol .lbrace :: us ++ [.symbol .rbrace])) where
  alone := by
    -- the alternatives are written in braces of their own
    obtain ⟨p', hp', hsame⟩ := hp.group
    obtain ⟨q', hq', hsame'⟩ := hq.group
    refine ⟨p'.choice q', .choice (hp'.lower (by decide)) (hq'.lower (by decide)), ?_⟩
    exact .choice (hsame.trans (.group p)) (hsame'.trans (.group q))
  left := nofun

end Program

/-! ## Choices in braces -/

/-- Every choice of the formula stands directly in braces. -/
def Formula.Grouped (f : Formula) : Prop :=
  f.Over fun _ => True

def Program.Grouped (p : Program) : Prop :=
  p.Over (fun _ => True) false

theorem Program.Grouped.one_le_level {p : Program} (h : p.Grouped) : 1 ≤ p.level := by
  cases p with
  | choice => simp [Program.Grouped] at h
  | _ => simp [Program.level]

mutual

theorem Formula.isRead : ∀ {f : Formula}, f.isLegible = true → f.Grouped →
    f.IsRead (tokens f.lexemes)
  | .verum, _, _ => .of_top rfl ⟨_, .verum, .refl _⟩
  | .falsum, _, _ => .of_top rfl ⟨_, .falsum, .refl _⟩
  | .cmp op lhs rhs, h, _ => by
    simp only [Formula.isLegible, Bool.and_eq_true] at h
    have hread : Reads _ 3 (.formula (.cmp op lhs rhs)) :=
      .cmp ((Term.reads h.1).lower (Nat.zero_le 2)) ((Term.reads h.2).lower (Nat.zero_le 2))
    exact .of_top rfl ⟨_, by simpa [Formula.lexemes] using hread, .refl _⟩
  | .not arg, h, hg => by
    simp only [Formula.isLegible, Formula.Grouped, Formula.Over] at h hg
    obtain ⟨g, hread, hsame⟩ := (Formula.isRead h hg).tightOperand
    exact .of_top rfl ⟨_, by simpa [Formula.lexemes] using hread.not, hsame.not⟩
  | .and lhs rhs, h, hg => by
    simp only [Formula.isLegible, Bool.and_eq_true, Formula.Grouped, Formula.Over] at h hg
    exact .join .and (Formula.isRead h.1 hg.1) (Formula.isRead h.2 hg.2)
      Connective.admits_of_fitsAnd Connective.admits_of_fitsAnd
  | .or lhs rhs, h, hg => by
    simp only [Formula.isLegible, Bool.and_eq_true, Formula.Grouped, Formula.Over] at h hg
    exact .join .or (Formula.isRead h.1 hg.1) (Formula.isRead h.2 hg.2)
      Connective.admits_of_fitsOr Connective.admits_of_fitsOr
  | .implies lhs rhs, h, hg => by
    simp only [Formula.isLegible, Bool.and_eq_true, Formula.Grouped, Formula.Over] at h hg
    exact .join .implies (Formula.isRead h.1 hg.1) (Formula.isRead h.2 hg.2)
      Connective.admits_of_fitsImplies Connective.admits_of_fitsImplies
  | .box program post, h, hg => by
    simp only [Formula.isLegible, Bool.and_eq_true, Formula.Grouped, Formula.Over] at h hg
    obtain ⟨p, hp, hsame⟩ := (Program.isRead h.1 hg.1).alone.lower (Nat.zero_le _)
    obtain ⟨g, hread, hsame'⟩ := (Formula.isRead h.2 hg.2).tightOperand
    exact .of_top rfl ⟨_, by simpa [Formula.lexemes] using hp.box hread, hsame.box hsame'⟩
  | .exist var body, h, hg => by
    simp only [Formula.isLegible, Bool.and_eq_true, Formula.Grouped, Formula.Over] at h hg
    have hbody : body.ReadFrom (tokens (operand false body.lexemes)) 3 :=
      (Formula.isRead h.2 hg.2).operand (Nat.le_refl 3) nofun
    obtain ⟨g, hread, hsame⟩ := hbody
    exact .of_top rfl ⟨_, by simpa [Formula.lexemes] using hread.exist, hsame.exist var⟩
  | .pred name args, h, _ => by
    simp only [Formula.isLegible, Bool.and_eq_true, List.all_eq_true] at h
    have hread : Reads _ 3 (.formula (.pred name args)) := .pred (readsArgs h.2)
    exact .of_top rfl ⟨_, by simpa [Formula.lexemes] using hread, .refl _⟩
  | .raw _, h, _ => by simp [Formula.isLegible] at h
  | .hole id, _, _ => .of_top rfl ⟨_, .hole id, .refl _⟩

theorem Program.isRead : ∀ {p : Program} {b : Bool}, p.isLegible = true →
    p.Over (fun _ => True) b → p.IsRead (tokens p.lexemes)
  | .skip, _, _, _ => .of_statement rfl ⟨_, .skip, .refl _⟩
  | .havoc var, _, _, _ => .of_statement rfl ⟨_, .havoc var, .refl _⟩
  | .assign var value, _, h, _ => by
    simp only [Program.isLegible, Bool.and_eq_true] at h
    have hread : Reads _ 2 (.program (.assign var value)) :=
      .assign ((Term.reads h.2).lower (Nat.zero_le 2))
    exact .of_statement rfl ⟨_, by simpa [Program.lexemes] using hread, .refl _⟩
  | .test cond, _, h, hg => by
    simp only [Program.isLegible, Program.Over] at h hg
    obtain ⟨g, hread, hsame⟩ := (Formula.isRead h hg).alone.lower (Nat.zero_le _)
    exact .of_statement rfl ⟨_, by simpa [Program.lexemes] using hread.test, hsame.test⟩
  | .evolve ode domain, _, h, hg => by
    simp only [Program.isLegible, Bool.and_eq_true, Program.Over] at h hg
    obtain ⟨g, hread, hsame⟩ := (Formula.isRead h.2 hg.2).alone.lower (Nat.zero_le _)
    have hevolve := Reads.evolve (Ode.reads h.1) hread
    exact .of_statement rfl ⟨_, by simpa [Program.lexemes] using hevolve, hsame.evolve ode⟩
  | .seq first second, _, h, hg => by
    simp only [Program.isLegible, Bool.and_eq_true, Program.Over] at h hg
    have hread := (Program.isRead h.1 hg.1).seq (Program.isRead h.2 hg.2)
      (Program.Grouped.one_le_level hg.1) (Program.Grouped.one_le_level hg.2)
    simpa [Program.lexemes] using hread
  | .choice left right, _, h, hg => by
    simp only [Program.isLegible, Bool.and_eq_true, Program.Over] at h hg
    have hread := (Program.isRead h.1 hg.2.1).choice (Program.isRead h.2 hg.2.2)
    simpa [Program.lexemes] using hread
  | .group body, _, h, hg => by
    simp only [Program.isLegible, Program.Over] at h hg
    have hread := (Program.isRead h hg).group
    exact .of_statement rfl (by simpa [Program.lexemes] using hread)

end

/-! ## Readings of texts -/

/-- The text can be read as the term. -/
def Term.IsReadingOf (t : Term) (text : String) : Prop :=
  ∃ ts, Lexes text.toList ts ∧ ReadsTerm ts 0 none t

def Tree.IsReadingOf (x : Tree) (text : String) : Prop :=
  ∃ ts, Lexes text.toList ts ∧ Reads ts 0 x

theorem Term.isReadingOf_text_iff {t : Term} (h : t.isLegible = true) (u : Term) :
    u.IsReadingOf t.text ↔ u = t := by
  have hread := (Term.reads h).lower (Nat.zero_le 2)
  constructor
  · rintro ⟨ts, hlexes, hu⟩
    obtain rfl := hlexes.unique (Term.lexes h)
    exact hu.unique hread
  · rintro rfl
    exact ⟨_, Term.lexes h, hread⟩

/-- The text of a formula has exactly one reading, which is the formula but for brackets. -/
theorem Formula.exists_reading {f : Formula} (h : f.isLegible = true) (hg : f.Grouped) :
    ∃ g, Same (.formula g) (.formula f) ∧
      ∀ g', (Tree.formula g').IsReadingOf f.text ↔ g' = g := by
  obtain ⟨g, hread, hsame⟩ := (Formula.isRead h hg).alone.lower (Nat.zero_le _)
  refine ⟨g, hsame, fun g' => ⟨?_, ?_⟩⟩
  · rintro ⟨ts, hlexes, hg'⟩
    obtain rfl := hlexes.unique (Formula.lexes h)
    exact Reads.unique.1 hg' hread
  · rintro rfl
    exact ⟨_, Formula.lexes h, hread⟩

theorem Program.exists_reading {p : Program} (h : p.isLegible = true) (hg : p.Grouped) :
    ∃ q, Same (.program q) (.program p) ∧
      ∀ q', (Tree.program q').IsReadingOf p.text ↔ q' = q := by
  obtain ⟨q, hread, hsame⟩ := (Program.isRead h hg).alone.lower (Nat.zero_le _)
  refine ⟨q, hsame, fun q' => ⟨?_, ?_⟩⟩
  · rintro ⟨ts, hlexes, hq'⟩
    obtain rfl := hlexes.unique (Program.lexes h)
    exact Reads.unique.2 hq' hread
  · rintro rfl
    exact ⟨_, Program.lexes h, hread⟩

/-! ## Choices of generated programs -/

structure Problem.Grouped (problem : Problem) : Prop where
  statement : problem.statement.Grouped
  predicates : ∀ predicate ∈ problem.predicates, predicate.2.Grouped

theorem Problem.Over.grouped {problem : Problem} {declared parameters : List String}
    (h : problem.Over declared parameters (fun _ => True) fun _ => True) : problem.Grouped :=
  ⟨h.statement, h.predicates⟩

theorem Block.within_true (b : Block) : b.Within fun _ => True :=
  fun _ _ _ _ => trivial

theorem Scope.grouped_lowerBlock {scope : Scope} {b : Block} {calls : CallSet}
    {st st' : LoweringState} {lowered : Lowered}
    (h : scope.lowerBlock b calls st = .ok lowered st') (hinv : scope.invariant.Grouped) :
    lowered.program.Grouped := by
  obtain ⟨ps, sus, hlow, hprogram, -⟩ := lowers_of_lowerBlock h
  have hscope : scope.Over fun _ => True := ⟨fun _ _ => trivial, fun _ _ => trivial, hinv⟩
  rw [hprogram, Program.Grouped, Program.over_sequence]
  exact (hlow.over hscope b.within_true).1

namespace Profile.IsOf

variable {p : Profile} {model : Model} {c : Class} {requested : Strategy} {o : Obligation}
  {problem : Problem} {log log' : Log}

theorem over_true (h : p.IsOf model c requested) {pending : Signature → Prop} :
    p.Over (fun _ => True) pending :=
  h.over (fun _ _ => trivial) (fun _ _ => trivial) (fun _ _ _ _ => trivial)
    (fun _ _ _ _ _ _ _ _ _ => trivial) fun _ _ _ _ _ _ _ _ _ _ => trivial

theorem scope_over_true (h : p.IsOf model c requested) : p.scope.Over fun _ => True :=
  h.scope_over (fun _ _ => trivial) fun _ _ => trivial

theorem grouped_method (h : p.IsOf model c requested) {m : Method}
    (ho : p.methodObligation m log = .ok o log') (hproblem : o.problem = some problem) :
    problem.Grouped :=
  (h.over_true.methodObligation h.scope_over_true (Block.within_true _)
    (fun _ _ => ⟨trivial, trivial⟩) ho hproblem).grouped

theorem grouped_init (h : p.IsOf model c requested) (ho : p.initObligation log = .ok o log')
    (hproblem : o.problem = some problem) : problem.Grouped :=
  (h.over_true.initObligation h.scope_over_true (Block.within_true _) rfl
    (fun _ _ => ⟨trivial, trivial⟩) (fun _ _ => ⟨trivial, fun _ _ => trivial⟩)
    ((answers_clauseFormula _ _).ok h.precondition).over ho hproblem).grouped

theorem grouped_zeno (h : p.IsOf model c requested) {m : Method}
    (ho : p.zenoObligation m log = .ok o log') (hproblem : o.problem = some problem) :
    problem.Grouped := by
  have hcontrol := h.over_controllerGuards (V := fun _ => True) trivial
    fun _ _ _ _ _ _ _ _ _ => trivial
  exact (h.over_true.zenoObligation h.scope_over_true (Block.within_true _)
    (fun _ _ => ⟨trivial, trivial⟩) trivial hcontrol ho hproblem).grouped

end Profile.IsOf

theorem Model.grouped_main {model : Model} {o : Obligation} {problem : Problem} {log log' : Log}
    (ho : model.mainObligation log = .ok o log') (hproblem : o.problem = some problem) :
    problem.Grouped := by
  obtain ⟨body, -, hover⟩ := Model.over_mainObligation (V := fun _ => True) (W := fun _ => True)
    (fun _ _ => trivial) (fun body _ => body.within_true) ho hproblem
  exact hover.grouped

/-- The text of a legible tree whose choices stand directly in braces has exactly one reading. For a
term this is the term. For a formula or a program it differs from the tree at most in the
association of conjunctions, disjunctions and sequences and in braces, and it says the same. In
lowered programs and in the problems of all obligations the choices stand directly in braces. -/
theorem reads_back_uniquely :
    (∀ t : Term, t.isLegible = true → ∀ u : Term, u.IsReadingOf t.text ↔ u = t) ∧
    (∀ f : Formula, f.isLegible = true → f.Grouped →
      ∃ g, Same (.formula g) (.formula f) ∧ (∀ I s, g.Holds I s ↔ f.Holds I s) ∧
        ∀ g', (Tree.formula g').IsReadingOf f.text ↔ g' = g) ∧
    (∀ p : Program, p.isLegible = true → p.Grouped →
      ∃ q, Same (.program q) (.program p) ∧ (∀ I s t, q.Runs I s t ↔ p.Runs I s t) ∧
        ∀ q', (Tree.program q').IsReadingOf p.text ↔ q' = q) ∧
    (∀ scope b calls st lowered st', Scope.lowerBlock scope b calls st = .ok lowered st' →
      scope.invariant.Grouped → lowered.program.Grouped) ∧
    (∀ model c requested log p log', Profile.of model c requested log = .ok p log' →
      p.scope.invariant.Grouped ∧
      (∀ m o log₁ log₂, p.methodObligation m log₁ = .ok o log₂ →
        ∀ problem, o.problem = some problem → problem.Grouped) ∧
      (∀ o log₁ log₂, p.initObligation log₁ = .ok o log₂ →
        ∀ problem, o.problem = some problem → problem.Grouped) ∧
      (∀ check log₁ log₂, p.zenoCheck log₁ = .ok check log₂ → ∀ o ∈ check.obligations,
        ∀ problem, o.problem = some problem → problem.Grouped)) ∧
    (∀ model : Model, model.mainScope.invariant.Grouped ∧
      ∀ o log₁ log₂, model.mainObligation log₁ = .ok o log₂ →
        ∀ problem, o.problem = some problem → problem.Grouped) := by
  refine ⟨fun t => Term.isReadingOf_text_iff, ?_, ?_, ?_, ?_, ?_⟩
  · intro f hlegible hgrouped
    obtain ⟨g, hsame, hunique⟩ := Formula.exists_reading hlegible hgrouped
    exact ⟨g, hsame, fun I s => hsame.meaning_iff I s s, hunique⟩
  · intro p hlegible hgrouped
    obtain ⟨q, hsame, hunique⟩ := Program.exists_reading hlegible hgrouped
    exact ⟨q, hsame, fun I => hsame.meaning_iff I, hunique⟩
  · exact fun _ _ _ _ _ _ => Scope.grouped_lowerBlock
  · intro model c requested _ p _ hprofile
    have h := Profile.isOf_of hprofile
    refine ⟨h.scope_over_true.invariant, fun m o _ _ ho problem => h.grouped_method ho,
      fun o _ _ ho problem => h.grouped_init ho, ?_⟩
    intro check _ _ hcheck o ho problem
    obtain ⟨m, _, _, hzeno⟩ := Profile.zenoObligation_of_mem hcheck ho
    exact h.grouped_zeno hzeno
  · exact fun model => ⟨by simp [Model.mainScope, Formula.Grouped],
      fun o _ _ ho problem => Model.grouped_main ho⟩

/-! ## A braking cart -/

/-- Brakes or not, provided that it moves, and rolls on. -/
def Program.cart : Program :=
  .seq
    (.seq (.group (.choice (.assign "v" (.bin .sub (.var "v") (.var "b"))) (.havoc "v")))
      (.test (.not (.cmp .eq (.var "v") (.num "0")))))
    (.evolve ⟨[("x", .var "v"), ("v", .neg (.bin .mul (.var "b") (.var "x")))]⟩
      (.cmp .ge (.var "v") (.num "0")))

def Formula.cart : Formula :=
  .implies
    (.and (.and (.cmp .ge (.var "x") (.num "0")) (.cmp .gt (.var "b") (.num "0.5")))
      (.or (.cmp .lt (.var "v") (.var "b")) (.hole ⟨7⟩)))
    (.box .cart (.exist "y" (.pred "safe" [.var "x", .primed "y"])))

/-- The conjunctions of the cart are read the other way round. The block that calls, branches and
waits has its choices in braces, and so has the obligation of a method of the pump. -/
theorem reads_back_uniquely_cart :
    Formula.cart.isLegible = true ∧ Formula.cart.Grouped ∧
      Formula.cart.text =
        "(x >= 0 & b > 0.5 & (v < b | ph7)) -> " ++
          "[\x7b \x7b v := (v - b); \x7d ++ \x7b v := *; \x7d \x7d ?!(v = 0); " ++
          "\x7bx' = v, v' = -((b * x)) & v >= 0\x7d]\\exists y (safe(x, y'))" ∧
      (∃ g, Same (.formula g) (.formula .cart) ∧ (∀ I s, g.Holds I s ↔ Formula.cart.Holds I s) ∧
        ∀ g', (Tree.formula g').IsReadingOf Formula.cart.text ↔ g' = g) ∧
      (∃ lowered st, Scope.outside.lowerBlock .patrol .empty .empty = .ok lowered st ∧
        lowered.program.Grouped) ∧
      ∃ log log' problem, Profile.of .pump .pump .uniform [] = .ok .pump log ∧
        Profile.pump.methodObligation .start log = .ok ⟨"Pump", "start", some problem⟩ log' ∧
        problem.Grouped := by
  have hlegible : Formula.cart.isLegible = true := by decide
  have hgrouped : Formula.cart.Grouped := by
    simp [Formula.Grouped, Formula.cart, Program.cart, Ode.Over]
  obtain ⟨-, hformula, -, hlowered, hprofile, -⟩ := reads_back_uniquely
  have hpatrol : ∃ lowered st, Scope.outside.lowerBlock .patrol .empty .empty = .ok lowered st :=
    ⟨_, _, rfl⟩
  obtain ⟨lowered, st, hpatrol⟩ := hpatrol
  have hpump : ∃ log, Profile.of .pump .pump .uniform [] = .ok .pump log := ⟨_, rfl⟩
  obtain ⟨log, hpump⟩ := hpump
  have hstart : ∃ problem log',
      Profile.pump.methodObligation .start log = .ok ⟨"Pump", "start", some problem⟩ log' :=
    ⟨_, _, rfl⟩
  obtain ⟨problem, log', hstart⟩ := hstart
  exact ⟨hlegible, hgrouped, by decide +kernel, hformula _ hlegible hgrouped,
    ⟨lowered, st, hpatrol, hlowered _ _ _ _ _ _ hpatrol (by simp [Scope.outside, Formula.Grouped])⟩,
    log, log', problem, hpump, hstart, (hprofile _ _ _ _ _ _ hpump).2.1 _ _ _ _ hstart _ rfl⟩

end HybridObjects
