import HybridObjects.Proofs.LoweringMeaning

/-!
# HybridObjects.Proofs.Acceptance

Which expressions and guards are lowered. `lowered_exactly`: an expression has a term exactly if it
is arithmetic and a formula exactly if it is a condition, never both; a guard has a formula exactly
if the expressions that it asks for have theirs. What comes out has the value of the expression or
the truth of the guard. Where nothing comes out, the error is the first expression that offends.

An expression is asked for in a role, as a value or as a truth value, and asks for its operands in
the role that its operator gives them. One that cannot play its role offends.

* `Expr.Arithmetic`, `Expr.Condition` — the two fragments.
* `Expr.visits`, `Guard.visits`       — the expressions asked for, in pre-order from left to right.
* `Expr.firstOffence_value`, `Expr.firstOffence_truth`, `Guard.firstOffence_visits` — what is
  refused is the first one of these that offends.
-/

namespace HybridObjects

/-! ## The fragments -/

/-- Number literals, fields and variables, their derivatives, and what the four operations and the
minus sign make of them. -/
inductive Expr.Arithmetic : Expr → Prop where
  | int (text : String) : Arithmetic (.int text)
  | float (text : String) : Arithmetic (.float text)
  | field (name : String) : Arithmetic (.field name)
  | var (name : String) : Arithmetic (.var name)
  | binary {op : BinOp} {lhs rhs : Expr} : op ∈ [BinOp.add, .sub, .mul, .div] →
      Arithmetic lhs → Arithmetic rhs → Arithmetic (.binary op lhs rhs)
  | neg {arg : Expr} : Arithmetic arg → Arithmetic (.unary .neg arg)
  | slopeOfField (name : String) : Arithmetic (.derivative (.field name))
  | slopeOfVar (name : String) : Arithmetic (.derivative (.var name))

/-- The truth values, comparisons of arithmetic expressions, and what conjunction, disjunction and
negation make of them. -/
inductive Expr.Condition : Expr → Prop where
  | verum : Condition (.construct "True" [])
  | falsum : Condition (.construct "False" [])
  | compare {op : BinOp} {lhs rhs : Expr} : op ∈ [BinOp.lt, .le, .gt, .ge, .eq, .ne] →
      lhs.Arithmetic → rhs.Arithmetic → Condition (.binary op lhs rhs)
  | and {lhs rhs : Expr} : Condition lhs → Condition rhs → Condition (.binary .and lhs rhs)
  | or {lhs rhs : Expr} : Condition lhs → Condition rhs → Condition (.binary .or lhs rhs)
  | not {arg : Expr} : Condition arg → Condition (.unary .not arg)

/-! ## Offences -/

/-- What an expression is asked for. -/
inductive Role where
  | value
  | truth
deriving DecidableEq

/-- The role of the operands of an operator that plays a role, if it can. -/
def BinOp.operandRole? : Role → BinOp → Option Role
  | .value, .add | .value, .sub | .value, .mul | .value, .div => some .value
  | .truth, .lt | .truth, .le | .truth, .gt | .truth, .ge | .truth, .eq | .truth, .ne => some .value
  | .truth, .and | .truth, .or => some .truth
  | _, _ => none

def UnOp.operandRole? : Role → UnOp → Option Role
  | .value, .neg => some .value
  | .truth, .not => some .truth
  | _, _ => none

/-- The expression cannot play its role, whatever its operands are. -/
def Expr.offends (role : Role) : Expr → Bool
  | .binary op _ _ => (op.operandRole? role).isNone
  | .unary op _ => (op.operandRole? role).isNone
  | .int _ | .float _ | .field _ | .var _ => role == .truth
  | .derivative (.field _) | .derivative (.var _) => role == .truth
  | .construct "True" [] | .construct "False" [] => role == .value
  | _ => true

/-- The expression and all that it asks for, in pre-order from left to right. -/
def Expr.visits (role : Role) : Expr → List (Role × Expr)
  | .binary op lhs rhs =>
    (role, .binary op lhs rhs) ::
      match op.operandRole? role with
      | some inner => lhs.visits inner ++ rhs.visits inner
      | none => []
  | .unary op arg =>
    (role, .unary op arg) ::
      match op.operandRole? role with
      | some inner => arg.visits inner
      | none => []
  | e => [(role, e)]

/-- The expressions that a guard itself asks for, from left to right. -/
def Guard.asks : Guard → List (Role × Expr)
  | .cond value | .differential value => [(.truth, value)]
  | .and lhs rhs | .or lhs rhs => lhs.asks ++ rhs.asks
  | .duration min => [(.value, min)]
  | .claim _ => []

/-- All expressions that a guard asks for. -/
def Guard.visits (g : Guard) : List (Role × Expr) :=
  g.asks.flatMap fun asked => asked.2.visits asked.1

/-- The first expression that offends. -/
def firstOffence (asked : List (Role × Expr)) : Option Expr :=
  (asked.find? fun a => a.2.offends a.1).map Prod.snd

/-- The expression that a computation refuses, if it does. -/
def refusal {α : Type} : Except Expr α → Option Expr
  | .ok _ => none
  | .error e => some e

/-- An expression has a counterpart for its role. -/
def Expr.IsLowered : Role → Expr → Prop
  | .value, e => ∃ t, e.toTerm = .ok t
  | .truth, e => ∃ f, e.toFormula = .ok f

theorem refusal_eq_some {α : Type} {x : Except Expr α} {e : Expr} :
    refusal x = some e ↔ x = .error e := by
  cases x <;> simp [refusal]

@[simp] theorem firstOffence_nil : firstOffence [] = none := rfl

theorem firstOffence_cons (role : Role) (e : Expr) (asked : List (Role × Expr)) :
    firstOffence ((role, e) :: asked) = if e.offends role then some e else firstOffence asked := by
  cases h : e.offends role <;> simp [firstOffence, h]

theorem firstOffence_append (asked asked' : List (Role × Expr)) :
    firstOffence (asked ++ asked') = (firstOffence asked).or (firstOffence asked') := by
  rw [firstOffence, List.find?_append]
  cases h : asked.find? fun a => a.2.offends a.1 <;> simp [firstOffence, h]

namespace BinOp

theorem operandRole?_of_toArith? {op : BinOp} {o : ArithOp} (h : op.toArith? = some o) :
    op.operandRole? .value = some .value := by
  cases op <;> cases h <;> rfl

theorem operandRole?_of_toArith?_none {op : BinOp} (h : op.toArith? = none) :
    op.operandRole? .value = none := by
  cases op <;> cases h <;> rfl

theorem operandRole?_of_toCmp? {op : BinOp} {o : CmpOp} (h : op.toCmp? = some o) :
    op.operandRole? .truth = some .value := by
  cases op <;> cases h <;> rfl

theorem operandRole?_of_toCmp?_none {op : BinOp} (hand : op ≠ .and) (hor : op ≠ .or)
    (h : op.toCmp? = none) : op.operandRole? .truth = none := by
  cases op <;> cases h <;> first | rfl | contradiction

end BinOp

namespace Expr

theorem firstOffence_binary {role inner : Role} {op : BinOp} (h : op.operandRole? role = some inner)
    (lhs rhs : Expr) : firstOffence ((binary op lhs rhs).visits role) =
      (firstOffence (lhs.visits inner)).or (firstOffence (rhs.visits inner)) := by
  rw [visits, h, firstOffence_cons, firstOffence_append]
  simp [offends, h]

theorem firstOffence_unary {role inner : Role} {op : UnOp} (h : op.operandRole? role = some inner)
    (arg : Expr) :
    firstOffence ((unary op arg).visits role) = firstOffence (arg.visits inner) := by
  rw [visits, h, firstOffence_cons]
  simp [offends, h]

/-- An expression that offends is met before all that stands below it. -/
theorem firstOffence_of_offends {role : Role} {e : Expr} (h : e.offends role = true) :
    firstOffence (e.visits role) = some e := by
  cases e <;> simp [visits, firstOffence_cons, h]

theorem firstOffence_value (e : Expr) : firstOffence (e.visits .value) = refusal e.toTerm := by
  fun_induction Expr.toTerm e with
  | case1 | case2 | case3 | case4 | case11 | case12 => rfl
  | case5 op lhs rhs hop =>
    exact firstOffence_of_offends (by simp [offends, BinOp.operandRole?_of_toArith?_none hop])
  | case6 op lhs rhs o hop e he ihl =>
    rw [firstOffence_binary (BinOp.operandRole?_of_toArith? hop), ihl, he]
    rfl
  | case7 op lhs rhs o hop a ha e he ihl ihr =>
    rw [firstOffence_binary (BinOp.operandRole?_of_toArith? hop), ihl, ihr, ha, he]
    rfl
  | case8 op lhs rhs o hop a ha b hb ihl ihr =>
    rw [firstOffence_binary (BinOp.operandRole?_of_toArith? hop), ihl, ihr, ha, hb]
    rfl
  | case9 arg e he ih | case10 arg a ha ih =>
    rw [firstOffence_unary rfl, ih]
    simp_all [refusal]
  | case13 e =>
    refine firstOffence_of_offends ?_
    unfold offends
    split <;> simp_all
    next op arg hop => cases op <;> simp_all [UnOp.operandRole?]

theorem firstOffence_truth (e : Expr) : firstOffence (e.visits .truth) = refusal e.toFormula := by
  fun_induction Expr.toFormula e with
  | case1 lhs rhs e he ihl | case4 lhs rhs e he ihl =>
    rw [firstOffence_binary rfl, ihl, he]
    rfl
  | case2 lhs rhs a ha e he ihl ihr | case5 lhs rhs a ha e he ihl ihr =>
    rw [firstOffence_binary rfl, ihl, ihr, ha, he]
    rfl
  | case3 lhs rhs a ha b hb ihl ihr | case6 lhs rhs a ha b hb ihl ihr =>
    rw [firstOffence_binary rfl, ihl, ihr, ha, hb]
    rfl
  | case7 op lhs rhs hand hor hop =>
    have hrole := BinOp.operandRole?_of_toCmp?_none hand hor hop
    exact firstOffence_of_offends (by simp [offends, hrole])
  | case8 op lhs rhs hand hor o hop e he =>
    rw [firstOffence_binary (BinOp.operandRole?_of_toCmp? hop),
      firstOffence_value, he]
    rfl
  | case9 op lhs rhs hand hor o hop a ha e he =>
    rw [firstOffence_binary (BinOp.operandRole?_of_toCmp? hop),
      firstOffence_value, firstOffence_value, ha, he]
    rfl
  | case10 op lhs rhs hand hor o hop a ha b hb =>
    rw [firstOffence_binary (BinOp.operandRole?_of_toCmp? hop),
      firstOffence_value, firstOffence_value, ha, hb]
    rfl
  | case11 arg e he ih | case12 arg a ha ih =>
    rw [firstOffence_unary rfl, ih]
    simp_all [refusal]
  | case13 | case14 => rfl
  | case15 e =>
    refine firstOffence_of_offends ?_
    unfold offends
    split <;> simp_all
    next op arg hop => cases op <;> simp_all [UnOp.operandRole?]

end Expr

theorem Guard.firstOffence_visits (g : Guard) : firstOffence g.visits = refusal g.toFormula := by
  fun_induction Guard.toFormula g with
  | case1 e | case2 e => simpa [visits, asks] using e.firstOffence_truth
  | case3 lhs rhs e he ihl | case6 lhs rhs e he ihl =>
    rw [visits, asks, List.flatMap_append, firstOffence_append, ← visits, ihl, he]
    rfl
  | case4 lhs rhs f hf e he ihl ihr | case7 lhs rhs f hf e he ihl ihr =>
    rw [visits, asks, List.flatMap_append, firstOffence_append, ← visits, ← visits, ihl, ihr, hf,
      he]
    rfl
  | case5 lhs rhs f hf f' hf' ihl ihr | case8 lhs rhs f hf f' hf' ihl ihr =>
    rw [visits, asks, List.flatMap_append, firstOffence_append, ← visits, ← visits, ihl, ihr, hf,
      hf']
    rfl
  | case9 min e he => simpa [visits, asks, he, refusal] using min.firstOffence_value
  | case10 min t ht => simpa [visits, asks, ht, refusal] using min.firstOffence_value
  | case11 future => rfl

/-! ## What is accepted -/

namespace Expr

theorem Denotes.arithmetic {e : Expr} {t : Term} (h : e.Denotes t) : e.Arithmetic := by
  induction h with
  | int text => exact .int text
  | float text => exact .float text
  | field name => exact .field name
  | var name => exact .var name
  | @binary op _ _ _ _ _ ho _ _ ihl ihr => exact .binary (by cases op <;> cases ho <;> simp) ihl ihr
  | neg _ ih => exact .neg ih
  | slopeOfField name => exact .slopeOfField name
  | slopeOfVar name => exact .slopeOfVar name

theorem States.condition {e : Expr} {f : Formula} (h : e.States f) : e.Condition := by
  induction h with
  | verum => exact .verum
  | falsum => exact .falsum
  | @cmp op _ _ _ _ _ ho hl hr =>
    exact .compare (by cases op <;> cases ho <;> simp) hl.arithmetic hr.arithmetic
  | and _ _ ihl ihr => exact .and ihl ihr
  | or _ _ ihl ihr => exact .or ihl ihr
  | not _ ih => exact .not ih

theorem exists_toTerm_iff {e : Expr} : (∃ t, e.toTerm = .ok t) ↔ e.Arithmetic := by
  constructor
  · rintro ⟨t, ht⟩
    exact (denotes_of_toTerm ht).arithmetic
  · intro h
    induction h with
    | int | float | field | var | slopeOfField | slopeOfVar => exact ⟨_, rfl⟩
    | @binary op _ _ hop _ _ ihl ihr =>
      obtain ⟨a, ha⟩ := ihl
      obtain ⟨b, hb⟩ := ihr
      obtain ⟨o, ho⟩ : ∃ o, op.toArith? = some o := by
        cases op <;> first | exact ⟨_, rfl⟩ | simp at hop
      exact ⟨.bin o a b, by simp [toTerm, ho, ha, hb]⟩
    | neg _ ih =>
      obtain ⟨a, ha⟩ := ih
      exact ⟨.neg a, by simp [toTerm, ha]⟩

theorem exists_toFormula_iff {e : Expr} : (∃ f, e.toFormula = .ok f) ↔ e.Condition := by
  constructor
  · rintro ⟨f, hf⟩
    exact (states_of_toFormula hf).condition
  · intro h
    induction h with
    | verum => exact ⟨.verum, by simp [toFormula]⟩
    | falsum => exact ⟨.falsum, by simp [toFormula]⟩
    | @compare op _ _ hop hl hr =>
      obtain ⟨a, ha⟩ := exists_toTerm_iff.mpr hl
      obtain ⟨b, hb⟩ := exists_toTerm_iff.mpr hr
      cases op <;> first | exact ⟨_, by simp [toFormula, BinOp.toCmp?, ha, hb]; rfl⟩ | simp at hop
    | and _ _ ihl ihr =>
      obtain ⟨f, hf⟩ := ihl
      obtain ⟨g, hg⟩ := ihr
      exact ⟨.and f g, by simp [toFormula, hf, hg]⟩
    | or _ _ ihl ihr =>
      obtain ⟨f, hf⟩ := ihl
      obtain ⟨g, hg⟩ := ihr
      exact ⟨.or f g, by simp [toFormula, hf, hg]⟩
    | not _ ih =>
      obtain ⟨f, hf⟩ := ih
      exact ⟨.not f, by simp [toFormula, hf]⟩

/-- No operator makes both values and truth values. -/
theorem Arithmetic.not_condition {e : Expr} (h : e.Arithmetic) : ¬ e.Condition := by
  intro hcond
  cases h with
  | @binary op _ _ hop =>
    cases hcond with
    | compare hop' => cases op <;> simp at hop hop'
    | and | or => simp at hop
  | _ => cases hcond

end Expr

theorem Guard.exists_toFormula_iff {g : Guard} :
    (∃ f, g.toFormula = .ok f) ↔ ∀ asked ∈ g.asks, asked.2.IsLowered asked.1 := by
  induction g with
  | cond e | differential e => simp [asks, Expr.IsLowered, toFormula]
  | and lhs rhs ihl ihr | or lhs rhs ihl ihr =>
    rw [asks, List.forall_mem_append, ← ihl, ← ihr]
    cases hl : lhs.toFormula <;> cases hr : rhs.toFormula <;> simp [toFormula, hl, hr]
  | duration min => cases hmin : min.toTerm <;> simp [asks, Expr.IsLowered, toFormula, hmin]
  | claim future => simp [asks, toFormula]

/-! ## What is refused -/

/-- The code that needs the result fails with the error, and nothing else happens. -/
def Refuses {α : Type} (x : Except Expr α) (err : Error) : Prop :=
  ∀ st, Lowering.liftExpr x st = .error err st

theorem refuses_iff {α : Type} {x : Except Expr α} {err : Error} :
    Refuses x err ↔ ∃ e, refusal x = some e ∧ err = .unsupportedExpr e := by
  constructor
  · intro h
    have hempty := h .empty
    cases x with
    | ok a => cases hempty
    | error e =>
      cases hempty
      exact ⟨e, rfl, rfl⟩
  · rintro ⟨e, he, rfl⟩ st
    rw [refusal_eq_some.mp he]
    rfl

/-- Exactly the fragments are lowered, and their values are kept. An expression has a term if and
only if it is arithmetic, and a formula if and only if it is a condition, so never both; a guard has
a formula if and only if all expressions that it asks for have their counterparts. Term and formula
agree with the expression or guard in every store under every reading of literals and division.
Everything else is refused because of the first expression, in pre-order from left to right, that
offends. -/
theorem lowered_exactly :
    (∀ e : Expr, ((∃ t, e.toTerm = .ok t) ↔ e.Arithmetic) ∧
        ((∃ f, e.toFormula = .ok f) ↔ e.Condition) ∧
        ¬ ((∃ t, e.toTerm = .ok t) ∧ ∃ f, e.toFormula = .ok f)) ∧
      (∀ g : Guard, (∃ f, g.toFormula = .ok f) ↔ ∀ asked ∈ g.asks, asked.2.IsLowered asked.1) ∧
      (∀ (I : Interp) (s : Store),
        (∀ (e : Expr) t, e.toTerm = .ok t → e.value I s = some (t.value I s)) ∧
        (∀ (e : Expr) f, e.toFormula = .ok f → e.truth I s = some (f.Holds I s)) ∧
        (∀ (g : Guard) f, g.toFormula = .ok f → g.truth I s = some (f.Holds I s))) ∧
      ∀ err : Error,
        (∀ e : Expr, Refuses e.toTerm err ↔
          ∃ e', firstOffence (e.visits .value) = some e' ∧ err = .unsupportedExpr e') ∧
        (∀ e : Expr, Refuses e.toFormula err ↔
          ∃ e', firstOffence (e.visits .truth) = some e' ∧ err = .unsupportedExpr e') ∧
        (∀ g : Guard, Refuses g.toFormula err ↔
          ∃ e', firstOffence g.visits = some e' ∧ err = .unsupportedExpr e') := by
  refine ⟨fun e => ⟨Expr.exists_toTerm_iff, Expr.exists_toFormula_iff, ?_⟩,
    fun g => Guard.exists_toFormula_iff, fun I s => ⟨?_, ?_, ?_⟩, fun err => ⟨?_, ?_, ?_⟩⟩
  · rintro ⟨hterm, hformula⟩
    exact (Expr.exists_toTerm_iff.mp hterm).not_condition (Expr.exists_toFormula_iff.mp hformula)
  · intro e t h
    exact (Expr.denotes_of_toTerm h).value_eq s
  · intro e f h
    exact (Expr.states_of_toFormula h).truth_eq s
  · intro g f h
    exact (Guard.states_of_toFormula h).truth_eq s
  · intro e
    rw [refuses_iff, e.firstOffence_value]
  · intro e
    rw [refuses_iff, e.firstOffence_truth]
  · intro g
    rw [refuses_iff, g.firstOffence_visits]

/-- Of a comparison and a remainder that are to be added, the comparison offends first. -/
example : firstOffence ((Expr.binary .add (.unary .neg (.field "x"))
    (.binary .mul (.binary .lt (.var "y") (.int "1")) (.binary .mod (.var "y") (.int "2")))).visits
      .value) = some (.binary .lt (.var "y") (.int "1")) := by
  rfl

end HybridObjects
