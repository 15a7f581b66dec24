import HybridObjects.Model.Syntax

/-!
# HybridObjects.Model.Walk

Depth-first walks over statements and expressions, and what they collect. A walk keeps a stack: it
takes the node on top, yields it, and puts its children on the stack in order, so that the last
child comes next.

* `Stmt.walk`, `Expr.walk`, `Block.stmts` — the walks.
* `Block.writesField`, `Block.calls`, `Block.selfCalls`, `Block.creations`, `Block.containsGet`,
  `Block.containsSyncCall`, `Block.containsDuration` — what the statements of a block do.
* `Block.localNames` — the local variables of a block in the order in which they are first met.
-/

namespace HybridObjects

namespace Expr

/-- The direct subexpressions. -/
def children : Expr → List Expr
  | .binary _ lhs rhs => [lhs, rhs]
  | .unary _ arg => [arg]
  | .derivative arg => [arg]
  | .construct _ args => args
  | .apply _ args => args
  | .int _ | .float _ | .string _ | .field _ | .var _ | .this => []

mutual

/-- The number of subexpressions, the expression itself included. -/
def size : Expr → Nat
  | .binary _ lhs rhs => lhs.size + rhs.size + 1
  | .unary _ arg => arg.size + 1
  | .derivative arg => arg.size + 1
  | .construct _ args => sizes args + 1
  | .apply _ args => sizes args + 1
  | .int _ | .float _ | .string _ | .field _ | .var _ | .this => 1

def sizes : List Expr → Nat
  | [] => 0
  | e :: es => e.size + sizes es

end

/-- The expressions met from a stack, at most the given number of them. -/
def walkFrom : Nat → List Expr → List Expr
  | 0, _ => []
  | _ + 1, [] => []
  | n + 1, e :: stack => e :: walkFrom n (e.children.reverse ++ stack)

/-- The expression and all of its subexpressions. -/
def walk (e : Expr) : List Expr :=
  walkFrom e.size [e]

end Expr

namespace Stmt

/-- The statements of all branches. -/
def branchStmts (branches : List (String × List Stmt)) : List Stmt :=
  branches.flatMap Prod.snd

/-- The statements directly inside a statement. -/
def children : Stmt → List Stmt
  | .cond _ thenBranch none => thenBranch
  | .cond _ thenBranch (some elseBranch) => thenBranch ++ elseBranch
  | .loop _ body => body
  | .cases _ branches => branchStmts branches
  | .block body => body
  | .skip | .assign .. | .declare .. | .ret _ | .eval _ | .await _ | .duration .. | .assert _ => []

mutual

/-- The number of statements inside a statement, itself included. -/
def size : Stmt → Nat
  | .cond _ thenBranch none => sizes thenBranch + 1
  | .cond _ thenBranch (some elseBranch) => sizes thenBranch + sizes elseBranch + 1
  | .loop _ body => sizes body + 1
  | .cases _ branches => branchSizes branches + 1
  | .block body => sizes body + 1
  | .skip | .assign .. | .declare .. | .ret _ | .eval _ | .await _ | .duration .. | .assert _ => 1

def sizes : List Stmt → Nat
  | [] => 0
  | s :: ss => s.size + sizes ss

def branchSizes : List (String × List Stmt) → Nat
  | [] => 0
  | (_, body) :: branches => sizes body + branchSizes branches

end

/-- The statements met from a stack, at most the given number of them. -/
def walkFrom : Nat → List Stmt → List Stmt
  | 0, _ => []
  | _ + 1, [] => []
  | n + 1, s :: stack => s :: walkFrom n (s.children.reverse ++ stack)

/-- The statement and all statements inside it. -/
def walk (s : Stmt) : List Stmt :=
  walkFrom s.size [s]

/-- The effect of the statement itself. -/
def effect? : Stmt → Option Effect
  | .assign _ (.effect e) => some e
  | .declare _ _ (some (.effect e)) => some e
  | .eval (.effect e) => some e
  | _ => none

end Stmt

/-- The expressions directly in an effect. -/
def Effect.exprs : Effect → List Expr
  | .asyncCall callee _ _ args => callee :: args
  | .syncCall callee _ _ args => callee :: args
  | .create _ args => args
  | .get future => [future]

/-- The expressions directly in a right-hand side. -/
def Rhs.exprs : Rhs → List Expr
  | .pure value => [value]
  | .effect e => e.exprs

/-- The expressions of a guard from left to right. -/
def Guard.exprs : Guard → List Expr
  | .cond value | .differential value | .claim value | .duration value => [value]
  | .and lhs rhs | .or lhs rhs => lhs.exprs ++ rhs.exprs

namespace Stmt

/-- The expressions of the statement itself, not those of statements inside it. -/
def exprs : Stmt → List Expr
  | .assign _ value => value.exprs
  | .eval value => value.exprs
  | .declare _ _ (some value) => value.exprs
  | .cond test _ _ => [test]
  | .loop test _ => [test]
  | .cases subject _ => [subject]
  | .ret value => [value]
  | .assert claim => [claim]
  | .await guard => guard.exprs
  | .duration min max => [min, max]
  | .skip | .declare _ _ none | .block _ => []

/-- Whether a process may give up control here: at an `await` and where it reads a future. -/
def isSuspension (s : Stmt) : Bool :=
  match s with
  | .await _ => true
  | _ =>
    match s.effect? with
    | some (.get _) => true
    | _ => false

/-- The signature that a statement calls, on any object and in any way. -/
def call? (s : Stmt) : Option Signature :=
  match s.effect? with
  | some (.asyncCall _ _ method _) => some method
  | some (.syncCall _ _ method _) => some method
  | _ => none

/-- The signature that a statement calls on `this`. -/
def selfCall? (s : Stmt) : Option Signature :=
  match s.effect? with
  | some (.asyncCall .this _ method _) => some method
  | some (.syncCall .this _ method _) => some method
  | _ => none

/-- The class of which a statement creates an object. -/
def creation? (s : Stmt) : Option String :=
  match s.effect? with
  | some (.create className _) => some className
  | _ => none

def writesField : Stmt → Bool
  | .assign (.field _) _ => true
  | _ => false

def isGet (s : Stmt) : Bool :=
  match s.effect? with
  | some (.get _) => true
  | _ => false

def isSyncCall (s : Stmt) : Bool :=
  match s.effect? with
  | some (.syncCall ..) => true
  | _ => false

def isDuration : Stmt → Bool
  | .duration .. => true
  | _ => false

/-- The local variable that a statement declares or assigns. -/
def boundName? : Stmt → Option String
  | .declare name _ _ => some name
  | .assign (.var name) _ => some name
  | _ => none

/-- The local variables that a statement binds or uses itself, in order. -/
def names (s : Stmt) : List String :=
  s.boundName?.toList ++
    (s.exprs.flatMap Expr.walk).filterMap fun e =>
      match e with
      | .var name => some name
      | _ => none

end Stmt

namespace Block

/-- All statements of a block, those inside others included. -/
def stmts (b : Block) : List Stmt :=
  b.flatMap Stmt.walk

def writesField (b : Block) : Bool :=
  b.stmts.any Stmt.writesField

/-- The signatures of all calls. -/
def calls (b : Block) : List Signature :=
  b.stmts.filterMap Stmt.call?

/-- The signatures of the calls on `this`. -/
def selfCalls (b : Block) : List Signature :=
  b.stmts.filterMap Stmt.selfCall?

/-- The classes of which objects are created. -/
def creations (b : Block) : List String :=
  b.stmts.filterMap Stmt.creation?

def containsGet (b : Block) : Bool :=
  b.stmts.any Stmt.isGet

def containsSyncCall (b : Block) : Bool :=
  b.stmts.any Stmt.isSyncCall

def containsDuration (b : Block) : Bool :=
  b.stmts.any Stmt.isDuration

end Block

/-- The list of the first occurrences. -/
def firstOccurrences (names : List String) : List String :=
  names.foldl (fun seen name => if seen.contains name then seen else seen ++ [name]) []

/-- The local variables of a block, declared, assigned or used, in the order in which they are
first met. -/
def Block.localNames (b : Block) : List String :=
  firstOccurrences (b.stmts.flatMap Stmt.names)

end HybridObjects
