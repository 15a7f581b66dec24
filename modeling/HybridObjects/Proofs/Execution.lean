import HybridObjects.Lowering.Block
import HybridObjects.Proofs.Paths
import HybridObjects.Proofs.Semantics

/-!
# HybridObjects.Proofs.Execution

What the code of a model does, as a big-step relation on stores. Fields and local variables are
cells of one store.

Suspensions are numbered in the order of the text, from a given number on, and suspension `n` waits
in the region that placeholder `n` describes. While a process waits, other processes may change the
shared variables. It resumes when its guard holds; then either the region kept its promise and the
invariant holds, or the contract flag is down.

* `Expr.value`, `Expr.truth`, `Guard.truth` — values of expressions, conditions and guards; none
  for what has no value of that kind.
* `Checks`, `Resumes`    — calls and creations, and suspensions.
* `Block.Exec`           — whole blocks. A return does not end its block.
-/

namespace HybridObjects

/-! ## Expressions -/

/-- The value of an arithmetic operator, none for the others. -/
def BinOp.arith (I : Interp) : BinOp → ℝ → ℝ → Option ℝ
  | .add, a, b => some (a + b)
  | .sub, a, b => some (a - b)
  | .mul, a, b => some (a * b)
  | .div, a, b => some (I.div a b)
  | .mod, _, _ | .lt, _, _ | .le, _, _ | .gt, _, _ | .ge, _, _ | .eq, _, _ | .ne, _, _
  | .and, _, _ | .or, _, _ => none

/-- The truth of a comparison, none for the other operators. -/
def BinOp.compare : BinOp → ℝ → ℝ → Option Prop
  | .lt, a, b => some (a < b)
  | .le, a, b => some (a ≤ b)
  | .gt, a, b => some (a > b)
  | .ge, a, b => some (a ≥ b)
  | .eq, a, b => some (a = b)
  | .ne, a, b => some (a ≠ b)
  | .add, _, _ | .sub, _, _ | .mul, _, _ | .div, _, _ | .mod, _, _ | .and, _, _ | .or, _, _ => none

/-- The value of an arithmetic expression. -/
def Expr.value (I : Interp) (s : Store) : Expr → Option ℝ
  | .int text => some (I.num text)
  | .float text => some (I.num text)
  | .field x => some (s.value x)
  | .var x => some (s.value x)
  | .binary op lhs rhs =>
    match lhs.value I s, rhs.value I s with
    | some a, some b => op.arith I a b
    | _, _ => none
  | .unary .neg arg => (arg.value I s).map fun a => -a
  | .derivative (.field x) => some (s.slope x)
  | .derivative (.var x) => some (s.slope x)
  | _ => none

/-- The truth of a condition. -/
def Expr.truth (I : Interp) (s : Store) : Expr → Option Prop
  | .binary .and lhs rhs =>
    match lhs.truth I s, rhs.truth I s with
    | some p, some q => some (p ∧ q)
    | _, _ => none
  | .binary .or lhs rhs =>
    match lhs.truth I s, rhs.truth I s with
    | some p, some q => some (p ∨ q)
    | _, _ => none
  | .binary op lhs rhs =>
    match lhs.value I s, rhs.value I s with
    | some a, some b => op.compare a b
    | _, _ => none
  | .unary .not arg => (arg.truth I s).map fun p => ¬ p
  | .construct "True" [] => some True
  | .construct "False" [] => some False
  | _ => none

/-- The truth of a guard. A duration guard holds when the clock has reached its least time, a claim
holds always. -/
def Guard.truth (I : Interp) (s : Store) : Guard → Option Prop
  | .cond e => e.truth I s
  | .differential e => e.truth I s
  | .and lhs rhs =>
    match lhs.truth I s, rhs.truth I s with
    | some p, some q => some (p ∧ q)
    | _, _ => none
  | .or lhs rhs =>
    match lhs.truth I s, rhs.truth I s with
    | some p, some q => some (p ∨ q)
    | _, _ => none
  | .duration min => (min.value I s).map fun least => least ≤ s.value clockVar
  | .claim _ => some True

/-! ## Statements -/

section

variable (scope : Scope) (I : Interp)

/-- A call or a creation with a precondition: nothing happens if it holds, and otherwise the
contract flag goes down. -/
inductive Checks (pre : Formula) : Store → Store → Prop where
  | kept {s : Store} : pre.Holds I s → Checks pre s s
  | broken {s : Store} : ¬ pre.Holds I s → Checks pre s (s.set contractVar (I.num "0"))

/-- A suspension until a guard holds. If the region of the suspension keeps the invariant, only
shared variables change and the invariant holds afterwards; if not, the contract flag is down. -/
inductive Resumes (n : Nat) (guard : Store → Prop) : Store → Store → Prop where
  | sound {s t : Store} : I.hole ⟨n⟩ s → Store.AgreeOff scope.shared s t → guard t →
      scope.invariant.Holds I t → Resumes n guard s t
  | unsound {s t : Store} : ¬ I.hole ⟨n⟩ s → Store.AgreeOff (contractVar :: scope.shared) s t →
      t.value contractVar = I.num "0" → guard t → Resumes n guard s t

inductive Effect.Acts (n : Nat) : Effect → Store → Store → Prop where
  | call {callee : Expr} {interface : Option String} {method : Signature} {args : List Expr}
      {found : Option Formula} {s t : Store} :
      scope.model.callPrecondition scope.owner callee interface method args = .ok found →
      Checks I (found.getD .verum) s t →
      Effect.Acts n (.asyncCall callee interface method args) s t
  | create {className : String} {args : List Expr} {pre : Formula} {s t : Store} :
      scope.model.creationPrecondition className args = .ok pre →
      Checks I pre s t → Effect.Acts n (.create className args) s t
  | get {future : Expr} {s t : Store} :
      Resumes scope I n (fun _ => True) s t → Effect.Acts n (.get future) s t

/-- An assignment to a variable. The result of an effect is any value. -/
inductive Rhs.StoredIn (n : Nat) (target : String) : Rhs → Store → Store → Prop where
  | value {e : Expr} {v : ℝ} {s : Store} : e.value I s = some v →
      Rhs.StoredIn n target (.pure e) s (s.set target v)
  | result {e : Effect} {v : ℝ} {s t : Store} : Effect.Acts scope I n e s t →
      Rhs.StoredIn n target (.effect e) s (t.set target v)

/-- What a statement without statements inside does. -/
inductive Stmt.Acts (n : Nat) : Stmt → Store → Store → Prop where
  | skip {s : Store} : Stmt.Acts n .skip s s
  | assign {target : Place} {value : Rhs} {s t : Store} :
      Rhs.StoredIn scope I n target.name value s t → Stmt.Acts n (.assign target value) s t
  | declare {name type : String} {value : Rhs} {s t : Store} :
      Rhs.StoredIn scope I n name value s t → Stmt.Acts n (.declare name type (some value)) s t
  | declareOnly {name type : String} {v : ℝ} {s : Store} :
      Stmt.Acts n (.declare name type none) s (s.set name v)
  | ret {e : Expr} {v : ℝ} {s : Store} : e.value I s = some v →
      Stmt.Acts n (.ret e) s (s.set resultVar v)
  | evalPure {e : Expr} {s : Store} : Stmt.Acts n (.eval (.pure e)) s s
  | evalEffect {e : Effect} {s t : Store} :
      Effect.Acts scope I n e s t → Stmt.Acts n (.eval (.effect e)) s t
  | await {g : Guard} {s t : Store} :
      Resumes scope I n (fun u => ∃ p, g.truth I u = some p ∧ p) s t → Stmt.Acts n (.await g) s t

/-- A block leads from one store to another, its suspensions being numbered from `n` on. -/
inductive Block.Exec : Nat → Block → Store → Store → Prop where
  | nil {n : Nat} {s : Store} : Block.Exec n [] s s
  | atom {n : Nat} {stmt : Stmt} {rest : Block} {s u t : Store} :
      Stmt.Acts scope I n stmt s u → Block.Exec (n + stmt.waits) rest u t →
      Block.Exec n (stmt :: rest) s t
  | condTrue {n : Nat} {test : Expr} {thenBranch rest : Block} {elseBranch : Option Block}
      {p : Prop} {s u t : Store} :
      test.truth I s = some p → p → Block.Exec n thenBranch s u →
      Block.Exec (n + (Stmt.cond test thenBranch elseBranch).waits) rest u t →
      Block.Exec n (.cond test thenBranch elseBranch :: rest) s t
  | condFalse {n : Nat} {test : Expr} {thenBranch rest : Block} {elseBranch : Option Block}
      {p : Prop} {s u t : Store} :
      test.truth I s = some p → ¬ p →
      Block.Exec (n + Block.waits thenBranch) (elseBranch.getD []) s u →
      Block.Exec (n + (Stmt.cond test thenBranch elseBranch).waits) rest u t →
      Block.Exec n (.cond test thenBranch elseBranch :: rest) s t
  | block {n : Nat} {body rest : Block} {s u t : Store} :
      Block.Exec n body s u → Block.Exec (n + (Stmt.block body).waits) rest u t →
      Block.Exec n (.block body :: rest) s t

end

end HybridObjects
