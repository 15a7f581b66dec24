import HybridObjects.Logic.Term
import HybridObjects.Text.Blank

/-!
# HybridObjects.Logic.Formula

Formulas and hybrid programs of differential dynamic logic.

Clauses written by the user stay dynamic-logic source text (`Formula.raw`). A placeholder stands
for a formula that is known only after the class analysis; an obligation is printed only once all
of its placeholders are resolved.

* `Formula`, `Program`, `Ode`   — the two mutually dependent kinds of tree, and equation systems.
* `Formula.conj`, `Formula.disj`, `Program.sequence` — folds that drop units.
* `Program.timedEvolution`      — a continuous step measured by the ghost clock.
* `foldl_iff`, `foldl_flatMap`  — facts about folds from facts about their parts.
-/

namespace HybridObjects

/-- The ghost flag: 1 while no call, creation or wait assumption has been violated. -/
def contractVar : String := "contract"

/-- The ghost slot that holds the value a method returns. -/
def resultVar : String := "result"

/-- The ghost clock: the time since the last continuous step began. -/
def clockVar : String := "tv"

/-- The bound quantified in the obligations on Zeno freedom. -/
def zenoVar : String := "zeno"

/-- The ghost variables of every obligation. -/
def ghostVars : List String := [contractVar, resultVar, clockVar]

/-- A placeholder for a formula not yet known. -/
structure Placeholder where
  index : Nat
deriving DecidableEq

/-- The name under which a placeholder is shown. -/
def Placeholder.name (id : Placeholder) : String :=
  "ph" ++ toString id.index

/-- Explicit first-order differential equations `x' = t`, one per continuous variable. -/
structure Ode where
  equations : List (String × Term)
deriving DecidableEq

/-- The system in which the ghost clock runs as well. -/
def Ode.withClock (ode : Ode) : Ode :=
  ⟨ode.equations ++ [(clockVar, .num "1")]⟩

mutual

/-- A formula. `box p f` says that `f` holds after every run of `p`. -/
inductive Formula where
  | verum
  | falsum
  | cmp (op : CmpOp) (lhs rhs : Term)
  | not (arg : Formula)
  | and (lhs rhs : Formula)
  | or (lhs rhs : Formula)
  | implies (lhs rhs : Formula)
  | box (program : Program) (post : Formula)
  | exist (var : String) (body : Formula)
  | pred (name : String) (args : List Term)
  | raw (text : String)
  | hole (id : Placeholder)

/-- A hybrid program. `group p` is `p` in braces. -/
inductive Program where
  | skip
  | havoc (var : String)
  | assign (var : String) (value : Term)
  | test (cond : Formula)
  | evolve (ode : Ode) (domain : Formula)
  | seq (first second : Program)
  | choice (left right : Program)
  | group (body : Program)

end

namespace Formula

/-- The equation between a variable and a number literal. -/
def varEq (name value : String) : Formula :=
  .cmp .eq (.var name) (.num value)

/-- Conjunction that drops `true`. -/
def both : Formula → Formula → Formula
  | .verum, g => g
  | f, .verum => f
  | f, g => .and f g

/-- Disjunction that drops `false`. -/
def either : Formula → Formula → Formula
  | .falsum, g => g
  | f, .falsum => f
  | f, g => .or f g

/-- The conjunction of all formulas, `true` if there are none. -/
def conj (fs : List Formula) : Formula :=
  fs.foldl both .verum

/-- The disjunction of all formulas, `false` if there are none. -/
def disj (fs : List Formula) : Formula :=
  fs.foldl either .falsum

/-- The operands of the conjunctions at the top; `true` contributes none. -/
def conjuncts : Formula → List Formula
  | .verum => []
  | .and lhs rhs => lhs.conjuncts ++ rhs.conjuncts
  | f => [f]

/-- Formulas that hold by their look: `true`, and a clause that reads `true`. -/
def isTriviallyTrue : Formula → Bool
  | .verum => true
  | .raw text => Text.trim text.toList == "true".toList
  | _ => false

/-- The formula with `x'` spelled `xder` for every `x` of `vars`, in terms and in clause text.
Programs are left alone: the derivatives in them belong to their equations. -/
def renamePrimes (vars : List String) : Formula → Formula
  | .verum => .verum
  | .falsum => .falsum
  | .cmp op lhs rhs => .cmp op (lhs.renamePrimes vars) (rhs.renamePrimes vars)
  | .not arg => .not (arg.renamePrimes vars)
  | .and lhs rhs => .and (lhs.renamePrimes vars) (rhs.renamePrimes vars)
  | .or lhs rhs => .or (lhs.renamePrimes vars) (rhs.renamePrimes vars)
  | .implies lhs rhs => .implies (lhs.renamePrimes vars) (rhs.renamePrimes vars)
  | .box program post => .box program post
  | .exist var body => .exist var (body.renamePrimes vars)
  | .pred name args => .pred name (args.map (·.renamePrimes vars))
  | .raw text => .raw (HybridObjects.renamePrimes vars text)
  | .hole id => .hole id

end Formula

namespace Program

/-- Sequential composition that drops `skip`. -/
def andThen : Program → Program → Program
  | .skip, q => q
  | p, .skip => p
  | p, q => .seq p q

/-- The choice between two programs, in braces so that it stays one operand of a sequence. -/
def branch (left right : Program) : Program :=
  .group (.choice left right)

/-- The sequence of all programs, `skip` if there are none. -/
def sequence (ps : List Program) : Program :=
  ps.foldl andThen .skip

/-- All variables take any value, one after the other. -/
def havocAll (vars : List String) : Program :=
  sequence (vars.map .havoc)

/-- The clock is set to zero, then the system evolves with the clock inside `domain`. -/
def timedEvolution (ode : Ode) (domain : Formula) : Program :=
  andThen (.assign clockVar (.num "0")) (.evolve ode.withClock domain)

end Program

/-! ## Folds -/

section Folds

variable {α : Type} {op : α → α → α}

/-- What holds of a combination of two values if and only if it holds of both, holds of a fold if
and only if it holds of all its parts. -/
theorem foldl_iff {P : α → Prop} (hop : ∀ a b, P (op a b) ↔ P a ∧ P b) (as : List α) :
    ∀ a, P (as.foldl op a) ↔ P a ∧ ∀ b ∈ as, P b := by
  induction as with
  | nil => simp
  | cons b as ih =>
    intro a
    rw [List.foldl_cons, ih, hop, List.forall_mem_cons, and_assoc]

/-- What is collected from a combination of two values one after the other, is collected from a fold
part by part. -/
theorem foldl_flatMap {β : Type} {f : α → List β} (hop : ∀ a b, f (op a b) = f a ++ f b)
    (as : List α) : ∀ a, f (as.foldl op a) = f a ++ as.flatMap f := by
  induction as with
  | nil => simp
  | cons b as ih =>
    intro a
    rw [List.foldl_cons, ih, hop, List.flatMap_cons, List.append_assoc]

end Folds

end HybridObjects
