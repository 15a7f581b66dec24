import HybridObjects.Text.Ident

/-!
# HybridObjects.Logic.Term

Terms of differential dynamic logic: real-valued expressions over program variables, number
literals and differential symbols. A number keeps the spelling it was written with.
-/

namespace HybridObjects

inductive ArithOp where
  | add
  | sub
  | mul
  | div
deriving DecidableEq

inductive CmpOp where
  | lt
  | le
  | gt
  | ge
  | eq
  | ne
deriving DecidableEq

/-- A term. `primed x` is the differential symbol `x'`. -/
inductive Term where
  | var (name : String)
  | num (text : String)
  | primed (name : String)
  | bin (op : ArithOp) (lhs rhs : Term)
  | neg (arg : Term)
deriving DecidableEq

namespace Term

/-- Atomic terms are single symbols. -/
def isAtomic : Term → Bool
  | .var _ | .num _ | .primed _ => true
  | .bin .. | .neg _ => false

/-- The term with `x'` replaced by the variable `xder` for every `x` of `vars`. -/
def renamePrimes (vars : List String) : Term → Term
  | .var name => .var name
  | .num text => .num text
  | .primed name => if vars.contains name then .var (derivativeName name) else .primed name
  | .bin op lhs rhs => .bin op (lhs.renamePrimes vars) (rhs.renamePrimes vars)
  | .neg arg => .neg (arg.renamePrimes vars)

end Term
end HybridObjects
