/-!
# HybridObjects.Model.Syntax

Models of hybrid active objects, as a type checker leaves them: modules with interfaces, classes
and at most one main block. A physical class has continuous fields, each with its initial value
and its differential equation. Methods run as processes of their object and give up control only
where they await a guard or read a future.

* `Expr`, `Effect`, `Rhs`   — pure expressions, effects, and what may stand on a right-hand side.
* `Guard`, `Stmt`, `Block`  — suspension guards and statements.
* `Signature`, `Method`, `Interface`, `Class`, `Module`, `Model` — declarations.
-/

namespace HybridObjects

inductive BinOp where
  | add
  | sub
  | mul
  | div
  | mod
  | lt
  | le
  | gt
  | ge
  | eq
  | ne
  | and
  | or
deriving DecidableEq

/-- The name of an operator in models and messages. -/
def BinOp.label : BinOp → String
  | .add => "Add"
  | .sub => "Sub"
  | .mul => "Mul"
  | .div => "Div"
  | .mod => "Mod"
  | .lt => "Lt"
  | .le => "Le"
  | .gt => "Gt"
  | .ge => "Ge"
  | .eq => "Eq"
  | .ne => "Ne"
  | .and => "And"
  | .or => "Or"

inductive UnOp where
  | not
  | neg
deriving DecidableEq

/-- The name of an operator in models and messages. -/
def UnOp.label : UnOp → String
  | .not => "Not"
  | .neg => "Neg"

/-- A pure expression. Literals keep their spelling. -/
inductive Expr where
  | int (text : String)
  | float (text : String)
  | string (text : String)
  | field (name : String)
  | var (name : String)
  | this
  | binary (op : BinOp) (lhs rhs : Expr)
  | unary (op : UnOp) (arg : Expr)
  | derivative (arg : Expr)
  | construct (name : String) (args : List Expr)
  | apply (name : String) (args : List Expr)

def Expr.isThis : Expr → Bool
  | .this => true
  | _ => false

structure Param where
  name : String
  type : String
deriving DecidableEq

structure Signature where
  name : String
  params : List Param
deriving DecidableEq

/-- Signatures match if they agree on the name and the parameter types; the names of parameters do
not matter. -/
def Signature.matches (a b : Signature) : Bool :=
  a.name == b.name && a.params.map Param.type == b.params.map Param.type

/-- A side effect. The interface of a call is the static type of its callee, where known. -/
inductive Effect where
  | asyncCall (callee : Expr) (interface : Option String) (method : Signature) (args : List Expr)
  | syncCall (callee : Expr) (interface : Option String) (method : Signature) (args : List Expr)
  | create (className : String) (args : List Expr)
  | get (future : Expr)

/-- The right-hand side of an assignment, and what stands alone as a statement. -/
inductive Rhs where
  | pure (value : Expr)
  | effect (action : Effect)

/-- What an assignment writes. -/
inductive Place where
  | field (name : String)
  | var (name : String)
deriving DecidableEq

def Place.name : Place → String
  | .field name | .var name => name

/-- A suspension guard. `differential` is a condition on the continuous state, `duration` a least
time to wait, `claim` a future to be resolved. -/
inductive Guard where
  | cond (value : Expr)
  | differential (value : Expr)
  | and (lhs rhs : Guard)
  | or (lhs rhs : Guard)
  | duration (min : Expr)
  | claim (future : Expr)

/-- A statement. `duration` lets time pass without giving up control. -/
inductive Stmt where
  | skip
  | assign (target : Place) (value : Rhs)
  | declare (name type : String) (init : Option Rhs)
  | cond (test : Expr) (thenBranch : List Stmt) (elseBranch : Option (List Stmt))
  | loop (test : Expr) (body : List Stmt)
  | cases (subject : Expr) (branches : List (String × List Stmt))
  | block (body : List Stmt)
  | ret (value : Expr)
  | eval (value : Rhs)
  | await (guard : Guard)
  | duration (min max : Expr)
  | assert (claim : Expr)

abbrev Block := List Stmt

/-- An annotation: a value of a qualified type. -/
structure Annotation where
  type : String
  value : Expr

structure Method where
  sig : Signature
  body : Block
  annotations : List Annotation

/-- The guard of an `await` in first position, if it speaks of the continuous state or of time. -/
def Method.leadingGuard (m : Method) : Option Guard :=
  match m.body with
  | .await (.differential e) :: _ => some (.differential e)
  | .await (.duration e) :: _ => some (.duration e)
  | _ => none

/-- The statements after the leading guard, all of them if there is none. -/
def Method.afterGuard (m : Method) : Block :=
  match m.leadingGuard with
  | some _ => m.body.tail
  | none => m.body

/-- A method as an interface declares it, with its contract. -/
structure InterfaceMethod where
  sig : Signature
  annotations : List Annotation

structure Interface where
  name : String
  parents : List String
  methods : List InterfaceMethod

structure Field where
  name : String
  type : String
  init : Option Expr

/-- A differential equation; a well-formed one has the derivative of its own field on the left. -/
structure Equation where
  lhs : Expr
  rhs : Expr

structure PhysicalField where
  name : String
  initial : Expr
  ode : Equation

/-- The continuous part of a class; the object invariant is annotated here. -/
structure Physical where
  fields : List PhysicalField
  annotations : List Annotation

/-- A class. Its parameters are like discrete fields without an initial value. -/
structure Class where
  name : String
  params : List Param
  fields : List Field
  physical : Option Physical
  init : Option Block
  methods : List Method
  implements : List String
  annotations : List Annotation

structure Module where
  name : String
  interfaces : List Interface
  classes : List Class
  main : Option Block

structure Model where
  modules : List Module

end HybridObjects
