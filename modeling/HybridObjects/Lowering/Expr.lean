import HybridObjects.Logic.Formula
import HybridObjects.Model.Syntax

/-!
# HybridObjects.Lowering.Expr

Pure expressions as terms, conditions and guards as formulas. What has no counterpart in the logic
is refused; the error is the first expression, outermost and leftmost first, that has none.
-/

namespace HybridObjects

/-- The arithmetic operators of the logic. -/
def BinOp.toArith? : BinOp → Option ArithOp
  | .add => some .add
  | .sub => some .sub
  | .mul => some .mul
  | .div => some .div
  | .mod | .lt | .le | .gt | .ge | .eq | .ne | .and | .or => none

/-- The comparisons of the logic. -/
def BinOp.toCmp? : BinOp → Option CmpOp
  | .lt => some .lt
  | .le => some .le
  | .gt => some .gt
  | .ge => some .ge
  | .eq => some .eq
  | .ne => some .ne
  | .add | .sub | .mul | .div | .mod | .and | .or => none

/-- The term of an arithmetic expression: literals, fields, variables, the four operations, the
minus sign, and the derivative of a field or variable. -/
def Expr.toTerm : Expr → Except Expr Term
  | .int text => .ok (.num text)
  | .float text => .ok (.num text)
  | .field name => .ok (.var name)
  | .var name => .ok (.var name)
  | .binary op lhs rhs =>
    match op.toArith? with
    | none => .error (.binary op lhs rhs)
    | some op =>
      match lhs.toTerm with
      | .error e => .error e
      | .ok lhs =>
        match rhs.toTerm with
        | .error e => .error e
        | .ok rhs => .ok (.bin op lhs rhs)
  | .unary .neg arg =>
    match arg.toTerm with
    | .error e => .error e
    | .ok arg => .ok (.neg arg)
  | .derivative (.field name) => .ok (.primed name)
  | .derivative (.var name) => .ok (.primed name)
  | e => .error e

/-- The formula of a condition: the constants, comparisons of arithmetic expressions, and their
combinations by conjunction, disjunction and negation. -/
def Expr.toFormula : Expr → Except Expr Formula
  | .binary .and lhs rhs =>
    match lhs.toFormula with
    | .error e => .error e
    | .ok lhs =>
      match rhs.toFormula with
      | .error e => .error e
      | .ok rhs => .ok (.and lhs rhs)
  | .binary .or lhs rhs =>
    match lhs.toFormula with
    | .error e => .error e
    | .ok lhs =>
      match rhs.toFormula with
      | .error e => .error e
      | .ok rhs => .ok (.or lhs rhs)
  | .binary op lhs rhs =>
    match op.toCmp? with
    | none => .error (.binary op lhs rhs)
    | some op =>
      match lhs.toTerm with
      | .error e => .error e
      | .ok lhs =>
        match rhs.toTerm with
        | .error e => .error e
        | .ok rhs => .ok (.cmp op lhs rhs)
  | .unary .not arg =>
    match arg.toFormula with
    | .error e => .error e
    | .ok arg => .ok (.not arg)
  | .construct "True" [] => .ok .verum
  | .construct "False" [] => .ok .falsum
  | e => .error e

/-- The formula of a guard. A duration guard holds once the clock has reached its least time; a
claim holds always. -/
def Guard.toFormula : Guard → Except Expr Formula
  | .cond value => value.toFormula
  | .differential value => value.toFormula
  | .and lhs rhs =>
    match lhs.toFormula with
    | .error e => .error e
    | .ok lhs =>
      match rhs.toFormula with
      | .error e => .error e
      | .ok rhs => .ok (.and lhs rhs)
  | .or lhs rhs =>
    match lhs.toFormula with
    | .error e => .error e
    | .ok lhs =>
      match rhs.toFormula with
      | .error e => .error e
      | .ok rhs => .ok (.or lhs rhs)
  | .duration min =>
    match min.toTerm with
    | .error e => .error e
    | .ok min => .ok (.cmp .ge (.var clockVar) min)
  | .claim _ => .ok .verum

end HybridObjects
