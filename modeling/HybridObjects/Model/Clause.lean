/-!
# HybridObjects.Model.Clause

The kinds of clauses that annotate models.
-/

namespace HybridObjects

/-- What a specification clause states: a precondition, a postcondition, an object invariant, or
the tactic by which an obligation is to be proved. -/
inductive Clause where
  | requires
  | ensures
  | objInv
  | tactic
deriving DecidableEq

/-- The constructor by which a model marks a clause. -/
def Clause.label : Clause → String
  | .requires => "Requires"
  | .ensures => "Ensures"
  | .objInv => "ObjInv"
  | .tactic => "Tactic"

end HybridObjects
