import HybridObjects.Proofs.Tokens

/-!
# HybridObjects.Proofs.Grammar

A grammar of terms, formulas and programs over tokens. Every phrase has a level; the higher the
level, the tighter the phrase binds.

* Terms: sums are of level 0, products of level 1, signed and atomic terms of level 2. Sums and
  products associate to the left.
* Formulas: implications are of level 0, disjunctions of level 1, conjunctions of level 2, all
  others of level 3. The three connectives associate to the right.
* Programs: choices are of level 0, sequences of level 1, statements of level 2. Both associate to
  the right.

`Reads.unique`: the grammar is unambiguous. A phrase ends where the next token cannot go on with it,
so of two readings that start at the same place both end at the same place, and then they are the
same (`Tree.IsDetermined`); this is proved by induction on one of them, with a lemma for each
construct.
-/

namespace HybridObjects

/-! ## Terms -/

/-- The level of the terms that an operator forms. -/
def ArithOp.level : ArithOp → Nat
  | .add | .sub => 0
  | .mul | .div => 1

/-- Readings of terms of a level. With a left operand, the tokens are what follows it: further
operators of the level, each with its right operand. -/
inductive ReadsTerm : List Token → Nat → Option Term → Term → Prop where
  | var (x : String) : ReadsTerm [.word x] 2 none (.var x)
  | primed (x : String) : ReadsTerm [.word x, .symbol .prime] 2 none (.primed x)
  | num {n : String} : isDecimal n = true → ReadsTerm [.number n] 2 none (.num n)
  | neg {ts : List Token} {t : Term} : ReadsTerm ts 2 none t →
      ReadsTerm (.symbol (.arith .sub) :: ts) 2 none (.neg t)
  | paren {ts : List Token} {t : Term} : ReadsTerm ts 0 none t →
      ReadsTerm (.symbol .lparen :: ts ++ [.symbol .rparen]) 2 none t
  | chain {ts rs : List Token} {k : Nat} {t u : Term} : ReadsTerm ts (k + 1) none t →
      ReadsTerm rs k (some t) u → ReadsTerm (ts ++ rs) k none u
  | stop {k : Nat} {t : Term} : ReadsTerm [] k (some t) t
  | step {ts rs : List Token} {k : Nat} {op : ArithOp} {l t u : Term} : op.level = k →
      ReadsTerm ts (k + 1) none t → ReadsTerm rs k (some (.bin op l t)) u →
      ReadsTerm (.symbol (.arith op) :: ts ++ rs) k (some l) u

/-- Readings of lists of terms with commas between them. -/
inductive ReadsArgs : List Token → List Term → Prop where
  | nil : ReadsArgs [] []
  | last {ts : List Token} {t : Term} : ReadsTerm ts 0 none t → ReadsArgs ts [t]
  | cons {ts rs : List Token} {t u : Term} {us : List Term} : ReadsTerm ts 0 none t →
      ReadsArgs rs (u :: us) → ReadsArgs (ts ++ .symbol .comma :: rs) (t :: u :: us)

/-- Readings of differential equations with commas between them, at least one. -/
inductive ReadsEquations : List Token → List (String × Term) → Prop where
  | last {ts : List Token} {x : String} {t : Term} : ReadsTerm ts 0 none t →
      ReadsEquations (.word x :: .symbol .prime :: .symbol (.cmp .eq) :: ts) [(x, t)]
  | cons {ts rs : List Token} {x : String} {t : Term} {es : List (String × Term)} :
      ReadsTerm ts 0 none t → ReadsEquations rs es →
      ReadsEquations (.word x :: .symbol .prime :: .symbol (.cmp .eq) :: ts ++ .symbol .comma :: rs)
        ((x, t) :: es)

/-! ## Formulas and programs -/

inductive Connective where
  | and
  | or
  | implies

namespace Connective

def level : Connective → Nat
  | .and => 2
  | .or => 1
  | .implies => 0

def symbol : Connective → Symbol
  | .and => .and
  | .or => .or
  | .implies => .implies

def join : Connective → Formula → Formula → Formula
  | .and => .and
  | .or => .or
  | .implies => .implies

end Connective

inductive Tree where
  | formula (f : Formula)
  | program (p : Program)

/-- Readings of formulas and programs of a level. -/
inductive Reads : List Token → Nat → Tree → Prop where
  | verum : Reads [.symbol .verum] 3 (.formula .verum)
  | falsum : Reads [.symbol .falsum] 3 (.formula .falsum)
  | hole (id : Placeholder) : Reads [.word id.name] 3 (.formula (.hole id))
  | pred {ts : List Token} {name : String} {args : List Term} : ReadsArgs ts args →
      Reads (.word name :: .symbol .lparen :: ts ++ [.symbol .rparen]) 3
        (.formula (.pred name args))
  | cmp {ls rs : List Token} {op : CmpOp} {l r : Term} : ReadsTerm ls 0 none l →
      ReadsTerm rs 0 none r → Reads (ls ++ .symbol (.cmp op) :: rs) 3 (.formula (.cmp op l r))
  | not {ts : List Token} {f : Formula} : Reads ts 3 (.formula f) →
      Reads (.symbol .not :: ts) 3 (.formula (.not f))
  | box {ps ts : List Token} {p : Program} {f : Formula} : Reads ps 0 (.program p) →
      Reads ts 3 (.formula f) →
      Reads (.symbol .lbracket :: ps ++ .symbol .rbracket :: ts) 3 (.formula (.box p f))
  | exist {ts : List Token} {x : String} {f : Formula} : Reads ts 3 (.formula f) →
      Reads (.symbol .exist :: .word x :: ts) 3 (.formula (.exist x f))
  | paren {ts : List Token} {f : Formula} : Reads ts 0 (.formula f) →
      Reads (.symbol .lparen :: ts ++ [.symbol .rparen]) 3 (.formula f)
  | connect {ls rs : List Token} {k : Nat} {c : Connective} {f g : Formula} : c.level = k →
      Reads ls (k + 1) (.formula f) → Reads rs k (.formula g) →
      Reads (ls ++ .symbol c.symbol :: rs) k (.formula (c.join f g))
  | skip : Reads [.symbol .skip, .symbol .semicolon] 2 (.program .skip)
  | havoc (x : String) :
      Reads [.word x, .symbol .becomes, .symbol (.arith .mul), .symbol .semicolon] 2
        (.program (.havoc x))
  | assign {ts : List Token} {x : String} {t : Term} : ReadsTerm ts 0 none t →
      Reads (.word x :: .symbol .becomes :: ts ++ [.symbol .semicolon]) 2 (.program (.assign x t))
  | test {ts : List Token} {f : Formula} : Reads ts 0 (.formula f) →
      Reads (.symbol .test :: ts ++ [.symbol .semicolon]) 2 (.program (.test f))
  | evolve {es ts : List Token} {equations : List (String × Term)} {f : Formula} :
      ReadsEquations es equations → Reads ts 0 (.formula f) →
      Reads (.symbol .lbrace :: es ++ .symbol .and :: ts ++ [.symbol .rbrace]) 2
        (.program (.evolve ⟨equations⟩ f))
  | group {ts : List Token} {p : Program} : Reads ts 0 (.program p) →
      Reads (.symbol .lbrace :: ts ++ [.symbol .rbrace]) 2 (.program (.group p))
  | seq {ls rs : List Token} {p q : Program} : Reads ls 2 (.program p) →
      Reads rs 1 (.program q) → Reads (ls ++ rs) 1 (.program (.seq p q))
  | choice {ls rs : List Token} {p q : Program} : Reads ls 1 (.program p) →
      Reads rs 0 (.program q) →
      Reads (ls ++ .symbol .choice :: rs) 0 (.program (.choice p q))
  | lift {ts : List Token} {k : Nat} {x : Tree} : Reads ts (k + 1) x → Reads ts k x

/-! ## Where terms begin and end -/

def Token.beginsTerm : Token → Bool
  | .word _ | .number _ | .symbol .lparen | .symbol (.arith .sub) => true
  | _ => false

/-- A term of the level may end before these tokens. -/
def endsTerm (k : Nat) : List Token → Bool
  | .symbol .prime :: _ => false
  | .symbol (.arith op) :: _ => op.level < k
  | _ => true

theorem endsTerm_succ {k : Nat} {ts : List Token} (h : endsTerm k ts = true) :
    endsTerm (k + 1) ts = true := by
  unfold endsTerm at h ⊢
  split at h
  · cases h
  · simp only [decide_eq_true_eq] at h ⊢
    omega
  · rfl

namespace ReadsTerm

variable {a b r s : List Token} {k : Nat} {t u : Term}

theorem level_le (h : ReadsTerm a k none t) : k ≤ 2 := by
  generalize hl : (none : Option Term) = l at h
  induction h with
  | var | primed | num | neg | paren => exact Nat.le_refl 2
  | chain _ _ ih _ => exact Nat.le_of_succ_le (ih rfl)
  | stop | step => cases hl

theorem begins (h : ReadsTerm a k none t) : ∃ x xs, a = x :: xs ∧ x.beginsTerm = true := by
  generalize hl : (none : Option Term) = l at h
  induction h with
  | var | primed | num | neg | paren => exact ⟨_, _, rfl, rfl⟩
  | chain _ _ ih _ =>
    obtain ⟨x, xs, rfl, hx⟩ := ih rfl
    exact ⟨x, _, rfl, hx⟩
  | stop | step => cases hl

/-- What follows the left operand of a chain goes on with an operator of its level or not at all. -/
theorem ends {l : Term} (h : ReadsTerm a k (some l) t) (hr : endsTerm k r = true) :
    endsTerm (k + 1) (a ++ r) = true := by
  cases h with
  | stop => exact endsTerm_succ hr
  | step hop => simp [endsTerm, hop]

/-- Two readings of terms at the head of the same tokens are the same, if both end where a term of
their level may end. -/
theorem determined {l : Option Term} (h : ReadsTerm a k l t) : ∀ {b r s u}, ReadsTerm b k l u →
    a ++ r = b ++ s → endsTerm k r = true → endsTerm k s = true → a = b ∧ t = u := by
  induction h with
  | var x =>
    intro b r s u hb heq hr hs
    cases hb with
    | var y =>
      cases heq
      exact ⟨rfl, rfl⟩
    | primed y =>
      cases heq
      cases hr
    | chain h => exact absurd h.level_le (by omega)
    | _ => cases heq
  | primed x =>
    intro b r s u hb heq hr hs
    cases hb with
    | var y =>
      cases heq
      cases hs
    | primed y =>
      cases heq
      exact ⟨rfl, rfl⟩
    | chain h => exact absurd h.level_le (by omega)
    | _ => cases heq
  | num _ =>
    intro b r s u hb heq hr hs
    cases hb with
    | num _ =>
      cases heq
      exact ⟨rfl, rfl⟩
    | chain h => exact absurd h.level_le (by omega)
    | _ => cases heq
  | neg _ ih =>
    intro b r s u hb heq hr hs
    cases hb with
    | neg h =>
      obtain ⟨rfl, rfl⟩ := ih h (List.cons.inj heq).2 hr hs
      exact ⟨rfl, rfl⟩
    | chain h => exact absurd h.level_le (by omega)
    | _ => cases heq
  | paren _ ih =>
    intro b r s u hb heq hr hs
    cases hb with
    | paren h =>
      simp only [List.cons_append, List.append_assoc, List.nil_append, List.cons.injEq,
        true_and] at heq
      obtain ⟨rfl, rfl⟩ := ih h heq rfl rfl
      exact ⟨rfl, rfl⟩
    | chain h => exact absurd h.level_le (by omega)
    | _ => cases heq
  | chain hfirst hrest ih₁ ih₂ =>
    intro b r s u hb heq hr hs
    cases hb with
    | chain hfirst' hrest' =>
      -- the first operands end before the operators that follow them
      rw [List.append_assoc, List.append_assoc] at heq
      obtain ⟨rfl, rfl⟩ := ih₁ hfirst' heq (hrest.ends hr) (hrest'.ends hs)
      obtain ⟨rfl, rfl⟩ := ih₂ hrest' (List.append_cancel_left heq) hr hs
      exact ⟨rfl, rfl⟩
    | _ => exact absurd hfirst.level_le (by omega)
  | stop =>
    intro b r s u hb heq hr hs
    cases hb with
    | stop => exact ⟨rfl, rfl⟩
    | step hop =>
      rw [List.nil_append] at heq
      simp [heq, endsTerm, hop] at hr
  | step hop _ hrest ih₁ ih₂ =>
    intro b r s u hb heq hr hs
    cases hb with
    | stop =>
      rw [List.nil_append] at heq
      simp [← heq, endsTerm, hop] at hs
    | step hop' hfirst' hrest' =>
      simp only [List.cons_append, List.append_assoc, List.cons.injEq, Token.symbol.injEq,
        Symbol.arith.injEq] at heq
      obtain ⟨rfl, heq⟩ := heq
      obtain ⟨rfl, rfl⟩ := ih₁ hfirst' heq (hrest.ends hr) (hrest'.ends hs)
      obtain ⟨rfl, rfl⟩ := ih₂ hrest' (List.append_cancel_left heq) hr hs
      exact ⟨rfl, rfl⟩

end ReadsTerm

theorem ReadsTerm.head_begins {a s : List Token} {k : Nat} {t : Term} (h : ReadsTerm a k none t)
    {x : Token} {xs : List Token} (heq : a ++ s = x :: xs) : x.beginsTerm = true := by
  obtain ⟨y, ys, rfl, hy⟩ := h.begins
  cases heq
  exact hy

theorem ReadsArgs.determined {a : List Token} {ts : List Term} (h : ReadsArgs a ts) :
    ∀ {b r s us}, ReadsArgs b us →
      a ++ .symbol .rparen :: r = b ++ .symbol .rparen :: s → a = b ∧ ts = us := by
  induction h with
  | nil =>
    intro b r s us hb heq
    cases hb with
    | nil => exact ⟨rfl, rfl⟩
    | last h => cases h.head_begins heq.symm
    | cons h _ =>
      rw [List.append_assoc] at heq
      cases h.head_begins heq.symm
  | last h =>
    intro b r s us hb heq
    cases hb with
    | nil => cases h.head_begins heq
    | last h' =>
      obtain ⟨rfl, rfl⟩ := h.determined h' heq rfl rfl
      exact ⟨rfl, rfl⟩
    | cons h' _ =>
      rw [List.append_assoc] at heq
      obtain ⟨rfl, -⟩ := h.determined h' heq rfl rfl
      cases List.append_cancel_left heq
  | cons h _ ih =>
    intro b r s us hb heq
    rw [List.append_assoc] at heq
    cases hb with
    | nil => cases h.head_begins heq
    | last h' =>
      obtain ⟨rfl, -⟩ := h.determined h' heq rfl rfl
      cases List.append_cancel_left heq
    | cons h' hrest =>
      rw [List.append_assoc] at heq
      obtain ⟨rfl, rfl⟩ := h.determined h' heq rfl rfl
      obtain ⟨rfl, hus⟩ := ih hrest (List.cons.inj (List.append_cancel_left heq)).2
      rw [hus]
      exact ⟨rfl, rfl⟩

theorem ReadsEquations.determined {a : List Token} {es : List (String × Term)}
    (h : ReadsEquations a es) : ∀ {b r s es'}, ReadsEquations b es' →
      a ++ .symbol .and :: r = b ++ .symbol .and :: s → a = b ∧ es = es' := by
  induction h with
  | last h =>
    intro b r s es' hb heq
    cases hb with
    | last h' =>
      simp only [List.cons_append, List.cons.injEq, Token.word.injEq, true_and] at heq
      obtain ⟨rfl, heq⟩ := heq
      obtain ⟨rfl, rfl⟩ := h.determined h' heq rfl rfl
      exact ⟨rfl, rfl⟩
    | cons h' _ =>
      simp only [List.cons_append, List.append_assoc, List.cons.injEq, Token.word.injEq,
        true_and] at heq
      obtain ⟨-, heq⟩ := heq
      obtain ⟨rfl, -⟩ := h.determined h' heq rfl rfl
      cases List.append_cancel_left heq
  | cons h _ ih =>
    intro b r s es' hb heq
    cases hb with
    | last h' =>
      simp only [List.cons_append, List.append_assoc, List.cons.injEq, Token.word.injEq,
        true_and] at heq
      obtain ⟨-, heq⟩ := heq
      obtain ⟨rfl, -⟩ := h.determined h' heq rfl rfl
      cases List.append_cancel_left heq
    | cons h' hrest =>
      simp only [List.cons_append, List.append_assoc, List.cons.injEq, Token.word.injEq,
        true_and] at heq
      obtain ⟨rfl, heq⟩ := heq
      obtain ⟨rfl, rfl⟩ := h.determined h' heq rfl rfl
      obtain ⟨rfl, rfl⟩ := ih hrest (List.cons.inj (List.append_cancel_left heq)).2
      exact ⟨rfl, rfl⟩

/-! ## Parentheses -/

/-- The number of parentheses open after some tokens, if none is closed that is not open. -/
def parens : List Token → Nat → Option Nat
  | [], d => some d
  | .symbol .lparen :: ts, d => parens ts (d + 1)
  | .symbol .rparen :: _, 0 => none
  | .symbol .rparen :: ts, d + 1 => parens ts d
  | _ :: ts, d => parens ts d

/-- Every parenthesis is closed, and none that was open before. -/
def Balanced (ts : List Token) : Prop :=
  ∀ rest d, parens (ts ++ rest) d = parens rest d

namespace Balanced

variable {a b : List Token}

theorem nil : Balanced [] :=
  fun _ _ => rfl

theorem append (ha : Balanced a) (hb : Balanced b) : Balanced (a ++ b) := by
  intro rest d
  rw [List.append_assoc, ha, hb]

theorem cons {x : Token} (hl : x ≠ .symbol .lparen) (hr : x ≠ .symbol .rparen)
    (ha : Balanced a) : Balanced (x :: a) := by
  intro rest d
  rw [List.cons_append, parens, ha]
  all_goals simp_all

theorem enclosed (ha : Balanced a) : Balanced (.symbol .lparen :: a ++ [.symbol .rparen]) := by
  intro rest d
  rw [List.cons_append, List.cons_append, parens, List.append_assoc, ha]
  rfl

theorem not_append_rparen (ha : Balanced a) : ¬ Balanced (a ++ .symbol .rparen :: b) := by
  intro hab
  have hclosed := hab [] 0
  rw [List.append_assoc, ha] at hclosed
  cases hclosed

/-- A closing parenthesis without its own opening one ends what is balanced. -/
theorem eq_of_append {r s : List Token} (ha : Balanced a) (hb : Balanced b)
    (heq : a ++ .symbol .rparen :: r = b ++ .symbol .rparen :: s) : a = b ∧ r = s := by
  rcases List.append_eq_append_iff.mp heq with ⟨c, rfl, hc⟩ | ⟨c, rfl, hc⟩
  · cases c with
    | nil =>
      cases hc
      exact ⟨(List.append_nil a).symm, rfl⟩
    | cons x c =>
      cases hc
      exact absurd hb ha.not_append_rparen
  · cases c with
    | nil =>
      cases hc
      exact ⟨List.append_nil b, rfl⟩
    | cons x c =>
      cases hc
      exact absurd ha hb.not_append_rparen

end Balanced

theorem ReadsTerm.balanced {ts : List Token} {k : Nat} {l : Option Term} {t : Term}
    (h : ReadsTerm ts k l t) : Balanced ts := by
  induction h with
  | var | num => exact .cons nofun nofun .nil
  | primed => exact .cons nofun nofun (.cons nofun nofun .nil)
  | neg _ ih => exact .cons nofun nofun ih
  | paren _ ih => exact .enclosed ih
  | chain _ _ ih₁ ih₂ => exact .append ih₁ ih₂
  | stop => exact .nil
  | step _ _ _ ih₁ ih₂ => exact .append (.cons nofun nofun ih₁) ih₂

theorem ReadsArgs.balanced {ts : List Token} {args : List Term} (h : ReadsArgs ts args) :
    Balanced ts := by
  induction h with
  | nil => exact .nil
  | last h => exact h.balanced
  | cons h _ ih => exact .append h.balanced (.cons nofun nofun ih)

theorem ReadsEquations.balanced {ts : List Token} {es : List (String × Term)}
    (h : ReadsEquations ts es) : Balanced ts := by
  induction h with
  | last h => exact .cons nofun nofun (.cons nofun nofun (.cons nofun nofun h.balanced))
  | cons h _ ih =>
    exact .append (.cons nofun nofun (.cons nofun nofun (.cons nofun nofun h.balanced)))
      (.cons nofun nofun ih)

theorem Connective.symbol_ne (c : Connective) {s : Symbol} (h : s = .lparen ∨ s = .rparen) :
    Token.symbol c.symbol ≠ .symbol s := by
  rcases h with rfl | rfl <;> cases c <;> nofun

theorem Reads.balanced {ts : List Token} {k : Nat} {x : Tree} (h : Reads ts k x) :
    Balanced ts := by
  induction h with
  | verum | falsum | hole => exact .cons nofun nofun .nil
  | pred h => exact .cons nofun nofun (.enclosed h.balanced)
  | cmp hl hr => exact .append hl.balanced (.cons nofun nofun hr.balanced)
  | not _ ih => exact .cons nofun nofun ih
  | box _ _ ih₁ ih₂ => exact .append (.cons nofun nofun ih₁) (.cons nofun nofun ih₂)
  | exist _ ih => exact .cons nofun nofun (.cons nofun nofun ih)
  | paren _ ih => exact .enclosed ih
  | connect _ _ _ ih₁ ih₂ =>
    exact .append ih₁ (.cons (Connective.symbol_ne _ (.inl rfl)) (Connective.symbol_ne _ (.inr rfl))
      ih₂)
  | skip => exact .cons nofun nofun (.cons nofun nofun .nil)
  | havoc =>
    exact .cons nofun nofun (.cons nofun nofun (.cons nofun nofun (.cons nofun nofun .nil)))
  | assign h =>
    exact .append (.cons nofun nofun (.cons nofun nofun h.balanced)) (.cons nofun nofun .nil)
  | test _ ih | group _ ih => exact .append (.cons nofun nofun ih) (.cons nofun nofun .nil)
  | evolve h _ ih =>
    exact .append (.append (.cons nofun nofun h.balanced) (.cons nofun nofun ih))
      (.cons nofun nofun .nil)
  | seq _ _ ih₁ ih₂ => exact .append ih₁ ih₂
  | choice _ _ ih₁ ih₂ => exact .append ih₁ (.cons nofun nofun ih₂)
  | lift _ ih => exact ih

/-! ## Where formulas and programs begin and end -/

/-- A term in parentheses at the head of a term is followed by an operator or by nothing. -/
theorem ReadsTerm.of_lparen {a : List Token} {k : Nat} {t : Term} (h : ReadsTerm a k none t)
    {xs : List Token} (heq : a = .symbol .lparen :: xs) :
    ∃ inner rest, xs = inner ++ .symbol .rparen :: rest ∧ Balanced inner ∧
      (rest = [] ∨ ∃ op rest', rest = .symbol (.arith op) :: rest') := by
  generalize hl : (none : Option Term) = l at h
  induction h generalizing xs with
  | var | primed | num | neg => cases heq
  | @paren ts t h =>
    cases heq
    exact ⟨ts, [], rfl, h.balanced, .inl rfl⟩
  | chain hfirst hrest ih _ =>
    obtain ⟨y, ys, rfl, -⟩ := hfirst.begins
    cases heq
    obtain ⟨inner, rest, rfl, hinner, hop⟩ := ih rfl rfl
    refine ⟨inner, rest ++ _, List.append_assoc inner (_ :: rest) _, hinner, ?_⟩
    rcases hop with rfl | ⟨op, rest', rfl⟩
    · cases hrest with
      | stop => exact .inl rfl
      | step => exact .inr ⟨_, _, rfl⟩
    · exact .inr ⟨op, _, rfl⟩
  | stop | step => cases hl

/-- A formula of the level may end before these tokens. -/
def endsFormula (k : Nat) : List Token → Bool
  | .symbol .prime :: _ | .symbol .lparen :: _ | .symbol (.arith _) :: _ | .symbol (.cmp _) :: _ =>
    false
  | .symbol .and :: _ => Connective.and.level < k
  | .symbol .or :: _ => Connective.or.level < k
  | .symbol .implies :: _ => Connective.implies.level < k
  | _ => true

def Token.beginsProgram : Token → Bool
  | .word _ | .symbol .skip | .symbol .test | .symbol .lbrace => true
  | _ => false

/-- A program of the level may end before these tokens. A statement may end anywhere. -/
def endsProgram (k : Nat) : List Token → Bool
  | [] => true
  | .symbol .choice :: _ => 0 < k
  | x :: _ => 1 < k || !x.beginsProgram

theorem endsFormula_succ {k : Nat} {ts : List Token} (h : endsFormula k ts = true) :
    endsFormula (k + 1) ts = true := by
  unfold endsFormula at h ⊢
  split at h
  · cases h
  · cases h
  · cases h
  · cases h
  · simp only [decide_eq_true_eq] at h ⊢
    omega
  · simp only [decide_eq_true_eq] at h ⊢
    omega
  · simp only [decide_eq_true_eq] at h ⊢
    omega
  · rfl

theorem endsFormula_connective (k : Nat) (c : Connective) (ts : List Token) :
    endsFormula k (.symbol c.symbol :: ts) = decide (c.level < k) := by
  cases c <;> rfl

theorem endsTerm_of_endsFormula {k : Nat} {ts : List Token} (h : endsFormula k ts = true) :
    endsTerm 0 ts = true := by
  unfold endsFormula at h
  unfold endsTerm
  split at h
  · cases h
  · cases h
  · cases h
  · cases h
  · rfl
  · rfl
  · rfl
  · split <;> simp_all

theorem endsProgram_succ {k : Nat} {ts : List Token} (h : endsProgram k ts = true) :
    endsProgram (k + 1) ts = true := by
  unfold endsProgram at h ⊢
  split at h
  · rfl
  · simp
  · simp only [Bool.or_eq_true, decide_eq_true_eq] at h ⊢
    exact h.imp_left Nat.lt_succ_of_lt

theorem endsProgram_two (ts : List Token) : endsProgram 2 ts = true := by
  unfold endsProgram
  split <;> simp

/-- The highest level of the readings of a tree. -/
def Tree.top : Tree → Nat
  | .formula _ => 3
  | .program _ => 2

theorem Connective.level_lt (c : Connective) : c.level < 3 := by
  cases c <;> decide

theorem Connective.eq_of_level {c d : Connective} (h : c.level = d.level) : c = d := by
  cases c <;> cases d <;> simp_all [Connective.level]

namespace Reads

theorem level_le {ts : List Token} {k : Nat} {x : Tree} (h : Reads ts k x) : k ≤ x.top := by
  induction h with
  | @connect _ _ _ c _ _ hk =>
    rw [← hk]
    exact Nat.le_of_lt c.level_lt
  | lift _ ih => exact Nat.le_of_succ_le ih
  | _ => simp [Tree.top]

theorem not_beyond_formula {ts : List Token} {f : Formula} : ¬ Reads ts 4 (.formula f) :=
  fun h => absurd h.level_le (by simp [Tree.top])

theorem not_beyond_program {ts : List Token} {p : Program} : ¬ Reads ts 3 (.program p) :=
  fun h => absurd h.level_le (by simp [Tree.top])

theorem begins {ts : List Token} {k : Nat} {p : Program} (h : Reads ts k (.program p)) :
    ∃ x xs, ts = x :: xs ∧ x.beginsProgram = true := by
  generalize hx : Tree.program p = x at h
  induction h generalizing p with
  | skip | havoc | assign | test | evolve | group => exact ⟨_, _, rfl, rfl⟩
  | seq _ _ ih _ | choice _ _ ih _ =>
    obtain ⟨y, ys, rfl, hy⟩ := ih rfl
    exact ⟨y, _, rfl, hy⟩
  | lift _ ih => exact ih hx
  | _ => cases hx

/-- A word at the head of a program is assigned to. -/
theorem of_word {ts : List Token} {k : Nat} {p : Program} (h : Reads ts k (.program p))
    {x : String} {xs : List Token} (heq : ts = .word x :: xs) :
    ∃ ys, xs = .symbol .becomes :: ys := by
  generalize hx : Tree.program p = y at h
  induction h generalizing p xs with
  | skip | test | evolve | group => cases heq
  | havoc | assign =>
    cases heq
    exact ⟨_, rfl⟩
  | seq hfirst _ ih _ | choice hfirst _ ih _ =>
    obtain ⟨y, ys, rfl, -⟩ := hfirst.begins
    cases heq
    obtain ⟨zs, rfl⟩ := ih rfl rfl
    exact ⟨_, rfl⟩
  | lift _ ih => exact ih heq hx
  | _ => cases hx

/-- No program begins where a sequence may end. -/
theorem not_ends {ts r : List Token} {k : Nat} {p : Program} (h : Reads ts k (.program p)) :
    endsProgram 1 (ts ++ r) = false := by
  obtain ⟨x, xs, rfl, hx⟩ := h.begins
  unfold endsProgram
  split <;> simp_all [Token.beginsProgram]

theorem ne_equations {ts es a b : List Token} {k : Nat} {p : Program} {eqs : List (String × Term)}
    (h : Reads ts k (.program p)) (he : ReadsEquations es eqs) : ts ++ a ≠ es ++ b := by
  intro heq
  obtain ⟨x, xs, rfl, -⟩ := h.begins
  cases he with
  | last | cons =>
    obtain ⟨rfl, heq⟩ := List.cons.inj heq
    obtain ⟨ys, rfl⟩ := h.of_word rfl
    cases heq

end Reads

/-! ## Unambiguity -/

theorem Placeholder.name_injective {id id' : Placeholder} (h : id.name = id'.name) : id = id' := by
  rw [Placeholder.name, Placeholder.name, String.append_right_inj] at h
  have hdigits : Nat.toDigits 10 id.index = Nat.toDigits 10 id'.index := by
    rw [← Nat.toList_repr, ← Nat.toList_repr]
    exact congrArg String.toList h
  have hindex := congrArg (Nat.ofDigitChars 10 · 0) hdigits
  simp only [Nat.ofDigitChars_ten_toDigits] at hindex
  exact congrArg Placeholder.mk hindex

/-- A comparison begins with none of the tokens that only open other formulas. -/
theorem ReadsTerm.cmp_ne_hole {ls r rs : List Token} {k : Nat} {op : CmpOp} {x : String} {l : Term}
    (h : ReadsTerm ls 0 none l) (heq : .word x :: r = ls ++ .symbol (.cmp op) :: rs)
    (hr : endsFormula k r = true) : False := by
  obtain ⟨rfl, -⟩ := (ReadsTerm.chain (.chain (.var x) .stop) .stop).determined h heq
    (endsTerm_of_endsFormula hr) rfl
  cases heq
  cases hr

theorem ReadsTerm.cmp_ne_pred {ls r rs : List Token} {op : CmpOp} {x : String} {l : Term}
    (h : ReadsTerm ls 0 none l)
    (heq : .word x :: .symbol .lparen :: r = ls ++ .symbol (.cmp op) :: rs) : False := by
  obtain ⟨rfl, -⟩ := (ReadsTerm.chain (.chain (.var x) .stop) .stop).determined h heq rfl rfl
  cases heq

theorem ReadsTerm.cmp_ne_paren {ls ts r rs : List Token} {k : Nat} {op : CmpOp} {l : Term}
    (h : ReadsTerm ls 0 none l) (hts : Balanced ts)
    (heq : .symbol .lparen :: ts ++ .symbol .rparen :: r = ls ++ .symbol (.cmp op) :: rs)
    (hr : endsFormula k r = true) : False := by
  obtain ⟨x, xs, rfl, -⟩ := h.begins
  rw [List.cons_append, List.cons_append, List.cons.injEq] at heq
  obtain ⟨rfl, heq⟩ := heq
  obtain ⟨inner, rest, rfl, hinner, hrest⟩ := h.of_lparen rfl
  rw [List.append_assoc, List.cons_append] at heq
  obtain ⟨-, rfl⟩ := hts.eq_of_append hinner heq
  rcases hrest with rfl | ⟨op', rest', rfl⟩ <;> cases hr

/-- The formulas that can be read from tokens which begin with a symbol and with no term. -/
def Headed (σ : Symbol) (ts : List Token) (f : Formula) : Prop :=
  match σ with
  | .verum => ts = [.symbol .verum] ∧ f = .verum
  | .falsum => ts = [.symbol .falsum] ∧ f = .falsum
  | .not => ∃ us g, ts = .symbol .not :: us ∧ f = .not g ∧ Reads us 3 (.formula g)
  | .lbracket => ∃ ps us p g, ts = .symbol .lbracket :: ps ++ .symbol .rbracket :: us ∧
      f = .box p g ∧ Reads ps 0 (.program p) ∧ Reads us 3 (.formula g)
  | .exist => ∃ x us g, ts = .symbol .exist :: .word x :: us ∧ f = .exist x g ∧
      Reads us 3 (.formula g)
  | _ => True

theorem Reads.headed {ts rest s : List Token} {f : Formula} {σ : Symbol}
    (h : Reads ts 3 (.formula f)) (heq : .symbol σ :: rest = ts ++ s)
    (hσ : (Token.symbol σ).beginsTerm = false) : Headed σ ts f := by
  cases h with
  | verum | falsum =>
    cases heq
    exact ⟨rfl, rfl⟩
  | not h =>
    cases heq
    exact ⟨_, _, rfl, rfl, h⟩
  | box hp h =>
    cases heq
    exact ⟨_, _, _, _, rfl, rfl, hp, h⟩
  | exist h =>
    cases heq
    exact ⟨_, _, _, rfl, rfl, h⟩
  | cmp h _ =>
    rw [List.append_assoc] at heq
    rw [h.head_begins heq.symm] at hσ
    cases hσ
  | hole | pred => cases heq
  | paren =>
    cases heq
    cases hσ
  | connect hk => exact absurd hk (Nat.ne_of_lt (Connective.level_lt _))
  | lift h => exact absurd h Reads.not_beyond_formula

/-- The formulas that can be read from tokens which begin a term. -/
inductive ReadsAtom : List Token → Formula → Prop where
  | hole (id : Placeholder) : ReadsAtom [.word id.name] (.hole id)
  | pred {ts : List Token} {name : String} {args : List Term} : ReadsArgs ts args →
      ReadsAtom (.word name :: .symbol .lparen :: ts ++ [.symbol .rparen]) (.pred name args)
  | cmp {ls rs : List Token} {op : CmpOp} {l r : Term} : ReadsTerm ls 0 none l →
      ReadsTerm rs 0 none r → ReadsAtom (ls ++ .symbol (.cmp op) :: rs) (.cmp op l r)
  | paren {ts : List Token} {f : Formula} : Reads ts 0 (.formula f) →
      ReadsAtom (.symbol .lparen :: ts ++ [.symbol .rparen]) f

theorem Reads.atom {ts rest s : List Token} {f : Formula} {x : Token}
    (h : Reads ts 3 (.formula f)) (heq : x :: rest = ts ++ s) (hx : x.beginsTerm = true) :
    ReadsAtom ts f := by
  cases h with
  | hole id => exact .hole id
  | pred h => exact .pred h
  | cmp hl hr => exact .cmp hl hr
  | paren h => exact .paren h
  | connect hk => exact absurd hk (Nat.ne_of_lt (Connective.level_lt _))
  | lift h => exact absurd h Reads.not_beyond_formula
  | _ =>
    cases heq
    cases hx

/-- The statements that can be read from tokens, by the first of them. -/
def Started (x : Token) (ts : List Token) (p : Program) : Prop :=
  match x with
  | .symbol .skip => ts = [.symbol .skip, .symbol .semicolon] ∧ p = .skip
  | .symbol .test => ∃ us f, ts = .symbol .test :: us ++ [.symbol .semicolon] ∧ p = .test f ∧
      Reads us 0 (.formula f)
  | .word x =>
    ts = [.word x, .symbol .becomes, .symbol (.arith .mul), .symbol .semicolon] ∧ p = .havoc x ∨
      ∃ us t, ts = .word x :: .symbol .becomes :: us ++ [.symbol .semicolon] ∧ p = .assign x t ∧
        ReadsTerm us 0 none t
  | .symbol .lbrace =>
    (∃ es us equations f, ts = .symbol .lbrace :: es ++ .symbol .and :: us ++ [.symbol .rbrace] ∧
      p = .evolve ⟨equations⟩ f ∧ ReadsEquations es equations ∧ Reads us 0 (.formula f)) ∨
    ∃ us q, ts = .symbol .lbrace :: us ++ [.symbol .rbrace] ∧ p = .group q ∧
      Reads us 0 (.program q)
  | _ => True

theorem Reads.started {ts rest s : List Token} {p : Program} {x : Token}
    (h : Reads ts 2 (.program p)) (heq : x :: rest = ts ++ s) : Started x ts p := by
  cases h with
  | skip =>
    cases heq
    exact ⟨rfl, rfl⟩
  | havoc =>
    cases heq
    exact .inl ⟨rfl, rfl⟩
  | assign h =>
    cases heq
    exact .inr ⟨_, _, rfl, rfl, h⟩
  | test h =>
    cases heq
    exact ⟨_, _, rfl, rfl, h⟩
  | evolve he h =>
    cases heq
    exact .inl ⟨_, _, _, _, rfl, rfl, he, h⟩
  | group h =>
    cases heq
    exact .inr ⟨_, _, rfl, rfl, h⟩
  | lift h => exact absurd h Reads.not_beyond_program

/-- The tree is the only one of its kind that can be read from the tokens at the head of a list, if
it ends where a tree of its kind and level may end. -/
def Tree.IsDetermined (a : List Token) (k : Nat) : Tree → Prop
  | .formula f => ∀ {b r s g}, Reads b k (.formula g) → a ++ r = b ++ s →
      endsFormula k r = true → endsFormula k s = true → a = b ∧ f = g
  | .program p => ∀ {b r s q}, Reads b k (.program q) → a ++ r = b ++ s →
      endsProgram k r = true → endsProgram k s = true → a = b ∧ p = q

namespace Tree.IsDetermined

variable {ts ps es ls rs : List Token} {k : Nat} {f g : Formula} {p q : Program} {x : String}

theorem verum : (formula .verum).IsDetermined [.symbol .verum] 3 := by
  intro b r s g hb heq hr hs
  obtain ⟨rfl, rfl⟩ := hb.headed heq rfl
  exact ⟨rfl, rfl⟩

theorem falsum : (formula .falsum).IsDetermined [.symbol .falsum] 3 := by
  intro b r s g hb heq hr hs
  obtain ⟨rfl, rfl⟩ := hb.headed heq rfl
  exact ⟨rfl, rfl⟩

theorem not (ih : (formula f).IsDetermined ts 3) :
    (formula (.not f)).IsDetermined (.symbol .not :: ts) 3 := by
  intro b r s g hb heq hr hs
  obtain ⟨us, g, rfl, rfl, h⟩ := hb.headed heq rfl
  obtain ⟨rfl, rfl⟩ := ih h (List.cons.inj heq).2 hr hs
  exact ⟨rfl, rfl⟩

theorem box (ih₁ : (program p).IsDetermined ps 0) (ih₂ : (formula f).IsDetermined ts 3) :
    (formula (.box p f)).IsDetermined (.symbol .lbracket :: ps ++ .symbol .rbracket :: ts) 3 := by
  intro b r s g hb heq hr hs
  obtain ⟨ps', us, p', g, rfl, rfl, hp, h⟩ := hb.headed heq rfl
  simp only [List.cons_append, List.append_assoc, List.cons.injEq, true_and] at heq
  obtain ⟨rfl, rfl⟩ := ih₁ hp heq rfl rfl
  obtain ⟨rfl, rfl⟩ := ih₂ h (List.cons.inj (List.append_cancel_left heq)).2 hr hs
  exact ⟨rfl, rfl⟩

theorem exist (ih : (formula f).IsDetermined ts 3) :
    (formula (.exist x f)).IsDetermined (.symbol .exist :: .word x :: ts) 3 := by
  intro b r s g hb heq hr hs
  obtain ⟨y, us, g, rfl, rfl, h⟩ := hb.headed heq rfl
  simp only [List.cons_append, List.cons.injEq, Token.word.injEq, true_and] at heq
  obtain ⟨rfl, heq⟩ := heq
  obtain ⟨rfl, rfl⟩ := ih h heq hr hs
  exact ⟨rfl, rfl⟩

theorem hole (id : Placeholder) : (formula (.hole id)).IsDetermined [.word id.name] 3 := by
  intro b r s g hb heq hr hs
  cases hb.atom heq rfl with
  | hole id' =>
    rw [List.cons_append, List.cons_append, List.cons.injEq, Token.word.injEq] at heq
    obtain rfl := Placeholder.name_injective heq.1
    exact ⟨rfl, rfl⟩
  | pred =>
    -- no parenthesis may follow a placeholder
    cases heq
    cases hr
  | cmp h _ =>
    rw [List.append_assoc] at heq
    exact (h.cmp_ne_hole heq hr).elim
  | paren => cases heq

theorem pred {name : String} {args : List Term} (hargs : ReadsArgs ts args) :
    (formula (.pred name args)).IsDetermined
      (.word name :: .symbol .lparen :: ts ++ [.symbol .rparen]) 3 := by
  intro b r s g hb heq hr hs
  cases hb.atom heq rfl with
  | hole =>
    cases heq
    cases hs
  | pred hargs' =>
    simp only [List.cons_append, List.append_assoc, List.nil_append, List.cons.injEq,
      Token.word.injEq, true_and] at heq
    obtain ⟨rfl, heq⟩ := heq
    obtain ⟨rfl, rfl⟩ := hargs.determined hargs' heq
    exact ⟨rfl, rfl⟩
  | cmp h _ =>
    simp only [List.cons_append, List.append_assoc] at heq
    exact (h.cmp_ne_pred heq).elim
  | paren => cases heq

theorem cmp {op : CmpOp} {l t : Term} (hl : ReadsTerm ls 0 none l) (ht : ReadsTerm rs 0 none t) :
    (formula (.cmp op l t)).IsDetermined (ls ++ .symbol (.cmp op) :: rs) 3 := by
  intro b r s g hb heq hr hs
  rw [List.append_assoc] at heq
  obtain ⟨y, ys, hys, hy⟩ := hl.begins
  have hatom : ReadsAtom b g := by
    rw [hys] at heq
    exact hb.atom heq hy
  cases hatom with
  | hole => exact (hl.cmp_ne_hole heq.symm hs).elim
  | pred => exact (hl.cmp_ne_pred heq.symm).elim
  | cmp hl' ht' =>
    rw [List.append_assoc] at heq
    obtain ⟨rfl, rfl⟩ := hl.determined hl' heq rfl rfl
    have hright := List.append_cancel_left heq
    simp only [List.cons_append, List.cons.injEq, Token.symbol.injEq, Symbol.cmp.injEq] at hright
    obtain ⟨rfl, hright⟩ := hright
    obtain ⟨rfl, rfl⟩ := ht.determined ht' hright (endsTerm_of_endsFormula hr)
      (endsTerm_of_endsFormula hs)
    exact ⟨rfl, rfl⟩
  | paren h =>
    rw [List.append_assoc] at heq
    exact (hl.cmp_ne_paren h.balanced heq.symm hs).elim

theorem paren (h : Reads ts 0 (.formula f)) (ih : (formula f).IsDetermined ts 0) :
    (formula f).IsDetermined (.symbol .lparen :: ts ++ [.symbol .rparen]) 3 := by
  intro b r s g hb heq hr hs
  cases hb.atom heq rfl with
  | hole | pred => cases heq
  | cmp hl _ =>
    rw [List.append_assoc, List.append_assoc] at heq
    exact (hl.cmp_ne_paren h.balanced heq hr).elim
  | paren h' =>
    simp only [List.cons_append, List.append_assoc, List.nil_append, List.cons.injEq,
      true_and] at heq
    obtain ⟨rfl, rfl⟩ := ih h' heq rfl rfl
    exact ⟨rfl, rfl⟩

theorem connect {c : Connective} (hc : c.level = k) (ih₁ : (formula f).IsDetermined ls (k + 1))
    (ih₂ : (formula g).IsDetermined rs k) :
    (formula (c.join f g)).IsDetermined (ls ++ .symbol c.symbol :: rs) k := by
  intro b r s g' hb heq hr hs
  rw [List.append_assoc, List.cons_append] at heq
  -- the left operand ends before the connective
  have hop {rest : List Token} : endsFormula (k + 1) (.symbol c.symbol :: rest) = true := by
    simp [endsFormula_connective, hc]
  cases hb with
  | @connect _ _ _ d _ _ hd h₁ h₂ =>
    obtain rfl := Connective.eq_of_level (hd.trans hc.symm)
    rw [List.append_assoc, List.cons_append] at heq
    obtain ⟨rfl, rfl⟩ := ih₁ h₁ heq hop hop
    obtain ⟨rfl, rfl⟩ := ih₂ h₂ (List.cons.inj (List.append_cancel_left heq)).2 hr hs
    exact ⟨rfl, rfl⟩
  | lift h =>
    -- the other reading would end before the connective, where its level does not let it end
    obtain ⟨rfl, -⟩ := ih₁ h heq hop (endsFormula_succ hs)
    obtain rfl := List.append_cancel_left heq
    simp [endsFormula_connective, hc] at hs
  | _ => exact absurd hc (Nat.ne_of_lt c.level_lt)

theorem lift_formula (h : Reads ts (k + 1) (.formula f))
    (ih : (formula f).IsDetermined ts (k + 1)) : (formula f).IsDetermined ts k := by
  intro b r s g hb heq hr hs
  cases hb with
  | @connect _ _ _ c _ _ hc h₁ h₂ =>
    rw [List.append_assoc, List.cons_append] at heq
    obtain ⟨rfl, -⟩ := ih h₁ heq (endsFormula_succ hr) (by simp [endsFormula_connective, hc])
    obtain rfl := List.append_cancel_left heq
    simp [endsFormula_connective, hc] at hr
  | lift h' => exact ih h' heq (endsFormula_succ hr) (endsFormula_succ hs)
  | _ => exact absurd h Reads.not_beyond_formula

theorem skip : (program .skip).IsDetermined [.symbol .skip, .symbol .semicolon] 2 := by
  intro b r s q hb heq hr hs
  obtain ⟨rfl, rfl⟩ := hb.started heq
  exact ⟨rfl, rfl⟩

theorem havoc : (program (.havoc x)).IsDetermined
    [.word x, .symbol .becomes, .symbol (.arith .mul), .symbol .semicolon] 2 := by
  intro b r s q hb heq hr hs
  rcases hb.started heq with ⟨rfl, rfl⟩ | ⟨us, t, rfl, rfl, h⟩
  · exact ⟨rfl, rfl⟩
  · simp only [List.cons_append, List.append_assoc, List.cons.injEq, true_and] at heq
    cases h.head_begins heq.symm

theorem assign {t : Term} (h : ReadsTerm ts 0 none t) : (program (.assign x t)).IsDetermined
    (.word x :: .symbol .becomes :: ts ++ [.symbol .semicolon]) 2 := by
  intro b r s q hb heq hr hs
  rcases hb.started heq with ⟨rfl, rfl⟩ | ⟨us, u, rfl, rfl, h'⟩
  · simp only [List.cons_append, List.append_assoc, List.cons.injEq, true_and] at heq
    cases h.head_begins heq
  · simp only [List.cons_append, List.append_assoc, List.nil_append, List.cons.injEq,
      true_and] at heq
    obtain ⟨rfl, rfl⟩ := h.determined h' heq rfl rfl
    exact ⟨rfl, rfl⟩

theorem test (ih : (formula f).IsDetermined ts 0) :
    (program (.test f)).IsDetermined (.symbol .test :: ts ++ [.symbol .semicolon]) 2 := by
  intro b r s q hb heq hr hs
  obtain ⟨us, g, rfl, rfl, h⟩ := hb.started heq
  simp only [List.cons_append, List.append_assoc, List.nil_append, List.cons.injEq,
    true_and] at heq
  obtain ⟨rfl, rfl⟩ := ih h heq rfl rfl
  exact ⟨rfl, rfl⟩

theorem evolve {equations : List (String × Term)} (he : ReadsEquations es equations)
    (ih : (formula f).IsDetermined ts 0) : (program (.evolve ⟨equations⟩ f)).IsDetermined
      (.symbol .lbrace :: es ++ .symbol .and :: ts ++ [.symbol .rbrace]) 2 := by
  intro b r s q hb heq hr hs
  rcases hb.started heq with ⟨es', us, equations', g, rfl, rfl, he', h⟩ | ⟨us, q, rfl, rfl, h⟩
  · simp only [List.cons_append, List.append_assoc, List.nil_append, List.cons.injEq,
      true_and] at heq
    obtain ⟨rfl, rfl⟩ := he.determined he' heq
    obtain ⟨rfl, rfl⟩ := ih h (List.cons.inj (List.append_cancel_left heq)).2 rfl rfl
    exact ⟨rfl, rfl⟩
  · rw [List.append_assoc, List.append_assoc, List.append_assoc] at heq
    exact (h.ne_equations he (List.cons.inj heq).2.symm).elim

theorem group (h : Reads ts 0 (.program p)) (ih : (program p).IsDetermined ts 0) :
    (program (.group p)).IsDetermined (.symbol .lbrace :: ts ++ [.symbol .rbrace]) 2 := by
  intro b r s q hb heq hr hs
  rcases hb.started heq with ⟨es, us, equations, g, rfl, rfl, he, -⟩ | ⟨us, q, rfl, rfl, h'⟩
  · rw [List.append_assoc, List.append_assoc, List.append_assoc] at heq
    exact (h.ne_equations he (List.cons.inj heq).2).elim
  · simp only [List.cons_append, List.append_assoc, List.nil_append, List.cons.injEq,
      true_and] at heq
    obtain ⟨rfl, rfl⟩ := ih h' heq rfl rfl
    exact ⟨rfl, rfl⟩

theorem seq (h : Reads rs 1 (.program q)) (ih₁ : (program p).IsDetermined ls 2)
    (ih₂ : (program q).IsDetermined rs 1) : (program (.seq p q)).IsDetermined (ls ++ rs) 1 := by
  intro b r s q' hb heq hr hs
  rw [List.append_assoc] at heq
  cases hb with
  | seq h₁ h₂ =>
    rw [List.append_assoc] at heq
    obtain ⟨rfl, rfl⟩ := ih₁ h₁ heq (endsProgram_two _) (endsProgram_two _)
    obtain ⟨rfl, rfl⟩ := ih₂ h₂ (List.append_cancel_left heq) hr hs
    exact ⟨rfl, rfl⟩
  | lift h' =>
    -- the other reading would end before the next statement
    obtain ⟨rfl, -⟩ := ih₁ h' heq (endsProgram_two _) (endsProgram_two _)
    obtain rfl := List.append_cancel_left heq
    rw [h.not_ends] at hs
    cases hs

theorem choice (ih₁ : (program p).IsDetermined ls 1) (ih₂ : (program q).IsDetermined rs 0) :
    (program (.choice p q)).IsDetermined (ls ++ .symbol .choice :: rs) 0 := by
  intro b r s q' hb heq hr hs
  rw [List.append_assoc] at heq
  cases hb with
  | choice h₁ h₂ =>
    rw [List.append_assoc] at heq
    obtain ⟨rfl, rfl⟩ := ih₁ h₁ heq rfl rfl
    obtain ⟨rfl, rfl⟩ := ih₂ h₂ (List.cons.inj (List.append_cancel_left heq)).2 hr hs
    exact ⟨rfl, rfl⟩
  | lift h =>
    obtain ⟨rfl, -⟩ := ih₁ h heq rfl (endsProgram_succ hs)
    obtain rfl := List.append_cancel_left heq
    cases hs

theorem lift_program (h : Reads ts (k + 1) (.program p))
    (ih : (program p).IsDetermined ts (k + 1)) : (program p).IsDetermined ts k := by
  intro b r s q hb heq hr hs
  cases hb with
  | seq h₁ h₂ =>
    rw [List.append_assoc] at heq
    obtain ⟨rfl, -⟩ := ih h₁ heq (endsProgram_two _) (endsProgram_two _)
    obtain rfl := List.append_cancel_left heq
    rw [h₂.not_ends] at hr
    cases hr
  | choice h₁ h₂ =>
    rw [List.append_assoc] at heq
    obtain ⟨rfl, -⟩ := ih h₁ heq (endsProgram_succ hr) rfl
    obtain rfl := List.append_cancel_left heq
    cases hr
  | lift h' => exact ih h' heq (endsProgram_succ hr) (endsProgram_succ hs)
  | _ => exact absurd h Reads.not_beyond_program

end Tree.IsDetermined

theorem Reads.determined {a : List Token} {k : Nat} {x : Tree} (h : Reads a k x) :
    x.IsDetermined a k := by
  induction h with
  | verum => exact Tree.IsDetermined.verum
  | falsum => exact Tree.IsDetermined.falsum
  | hole id => exact Tree.IsDetermined.hole id
  | pred hargs => exact Tree.IsDetermined.pred hargs
  | cmp hl hr => exact Tree.IsDetermined.cmp hl hr
  | not _ ih => exact Tree.IsDetermined.not ih
  | box _ _ ih₁ ih₂ => exact Tree.IsDetermined.box ih₁ ih₂
  | exist _ ih => exact Tree.IsDetermined.exist ih
  | paren h ih => exact Tree.IsDetermined.paren h ih
  | connect hc _ _ ih₁ ih₂ => exact Tree.IsDetermined.connect hc ih₁ ih₂
  | skip => exact Tree.IsDetermined.skip
  | havoc => exact Tree.IsDetermined.havoc
  | assign h => exact Tree.IsDetermined.assign h
  | test _ ih => exact Tree.IsDetermined.test ih
  | evolve he _ ih => exact Tree.IsDetermined.evolve he ih
  | group h ih => exact Tree.IsDetermined.group h ih
  | seq _ h ih₁ ih₂ => exact Tree.IsDetermined.seq h ih₁ ih₂
  | choice _ _ ih₁ ih₂ => exact Tree.IsDetermined.choice ih₁ ih₂
  | @lift _ _ x h ih =>
    cases x with
    | formula f => exact Tree.IsDetermined.lift_formula h ih
    | program p => exact Tree.IsDetermined.lift_program h ih

theorem ReadsTerm.unique {ts : List Token} {k : Nat} {t u : Term}
    (ht : ReadsTerm ts k none t) (hu : ReadsTerm ts k none u) : t = u :=
  (ht.determined (r := []) (s := []) hu rfl rfl rfl).2

theorem Reads.unique {ts : List Token} {k : Nat} :
    (∀ {f g : Formula}, Reads ts k (.formula f) → Reads ts k (.formula g) → f = g) ∧
    (∀ {p q : Program}, Reads ts k (.program p) → Reads ts k (.program q) → p = q) := by
  constructor
  · intro f g hf hg
    exact (hf.determined (r := []) (s := []) hg rfl rfl rfl).2
  · intro p q hp hq
    exact (hp.determined (r := []) (s := []) hq rfl rfl rfl).2

end HybridObjects
