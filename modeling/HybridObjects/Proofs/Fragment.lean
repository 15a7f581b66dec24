import HybridObjects.Lowering.Expr

/-!
# HybridObjects.Proofs.Fragment

The part of the expression language that has a counterpart in the logic, as derivations: which term
an arithmetic expression denotes, and which formula a condition or a guard states. Facts about the
results of lowering an expression are proved by induction on these derivations.
-/

namespace HybridObjects

/-- An arithmetic expression and its term. -/
inductive Expr.Denotes : Expr → Term → Prop where
  | int (text : String) : Denotes (.int text) (.num text)
  | float (text : String) : Denotes (.float text) (.num text)
  | field (name : String) : Denotes (.field name) (.var name)
  | var (name : String) : Denotes (.var name) (.var name)
  | binary {op : BinOp} {o : ArithOp} {lhs rhs : Expr} {a b : Term} :
      op.toArith? = some o → Denotes lhs a → Denotes rhs b →
      Denotes (.binary op lhs rhs) (.bin o a b)
  | neg {arg : Expr} {a : Term} : Denotes arg a → Denotes (.unary .neg arg) (.neg a)
  | slopeOfField (name : String) : Denotes (.derivative (.field name)) (.primed name)
  | slopeOfVar (name : String) : Denotes (.derivative (.var name)) (.primed name)

/-- A condition and its formula. -/
inductive Expr.States : Expr → Formula → Prop where
  | verum : States (.construct "True" []) .verum
  | falsum : States (.construct "False" []) .falsum
  | cmp {op : BinOp} {o : CmpOp} {lhs rhs : Expr} {a b : Term} :
      op.toCmp? = some o → lhs.Denotes a → rhs.Denotes b →
      States (.binary op lhs rhs) (.cmp o a b)
  | and {lhs rhs : Expr} {f g : Formula} :
      States lhs f → States rhs g → States (.binary .and lhs rhs) (.and f g)
  | or {lhs rhs : Expr} {f g : Formula} :
      States lhs f → States rhs g → States (.binary .or lhs rhs) (.or f g)
  | not {arg : Expr} {f : Formula} : States arg f → States (.unary .not arg) (.not f)

/-- A guard and its formula. -/
inductive Guard.States : Guard → Formula → Prop where
  | cond {e : Expr} {f : Formula} : e.States f → States (.cond e) f
  | differential {e : Expr} {f : Formula} : e.States f → States (.differential e) f
  | and {lhs rhs : Guard} {f g : Formula} : States lhs f → States rhs g →
      States (.and lhs rhs) (.and f g)
  | or {lhs rhs : Guard} {f g : Formula} : States lhs f → States rhs g →
      States (.or lhs rhs) (.or f g)
  | duration {min : Expr} {a : Term} : min.Denotes a →
      States (.duration min) (.cmp .ge (.var clockVar) a)
  | claim (future : Expr) : States (.claim future) .verum

theorem Expr.denotes_of_toTerm {e : Expr} :
    ∀ {t : Term}, e.toTerm = .ok t → e.Denotes t := by
  fun_induction Expr.toTerm e with
  | case1 text => intro t h; cases h; exact .int text
  | case2 text => intro t h; cases h; exact .float text
  | case3 name => intro t h; cases h; exact .field name
  | case4 name => intro t h; cases h; exact .var name
  | case8 op lhs rhs o ho a ha b hb ihl ihr =>
    intro t h
    cases h
    exact .binary ho (ihl ha) (ihr hb)
  | case10 arg a ha ih => intro t h; cases h; exact .neg (ih ha)
  | case11 name => intro t h; cases h; exact .slopeOfField name
  | case12 name => intro t h; cases h; exact .slopeOfVar name
  | case5 | case6 | case7 | case9 | case13 => intro t h; cases h

theorem Expr.states_of_toFormula {e : Expr} :
    ∀ {f : Formula}, e.toFormula = .ok f → e.States f := by
  fun_induction Expr.toFormula e with
  | case3 lhs rhs f hf g hg ihl ihr => intro t h; cases h; exact .and (ihl hf) (ihr hg)
  | case6 lhs rhs f hf g hg ihl ihr => intro t h; cases h; exact .or (ihl hf) (ihr hg)
  | case10 op lhs rhs _ _ o ho a ha b hb =>
    intro t h
    cases h
    exact .cmp ho (Expr.denotes_of_toTerm ha) (Expr.denotes_of_toTerm hb)
  | case12 arg f hf ih => intro t h; cases h; exact .not (ih hf)
  | case13 => intro t h; cases h; exact .verum
  | case14 => intro t h; cases h; exact .falsum
  | case1 | case2 | case4 | case5 | case7 | case8 | case9 | case11 | case15 => intro t h; cases h

theorem Guard.states_of_toFormula {g : Guard} :
    ∀ {f : Formula}, g.toFormula = .ok f → g.States f := by
  fun_induction Guard.toFormula g with
  | case1 e => intro f h; exact .cond (Expr.states_of_toFormula h)
  | case2 e => intro f h; exact .differential (Expr.states_of_toFormula h)
  | case5 lhs rhs f hf g hg ihl ihr => intro t h; cases h; exact .and (ihl hf) (ihr hg)
  | case8 lhs rhs f hf g hg ihl ihr => intro t h; cases h; exact .or (ihl hf) (ihr hg)
  | case10 min a ha => intro t h; cases h; exact .duration (Expr.denotes_of_toTerm ha)
  | case11 future => intro t h; cases h; exact .claim future
  | case3 | case4 | case6 | case7 | case9 => intro t h; cases h

end HybridObjects
