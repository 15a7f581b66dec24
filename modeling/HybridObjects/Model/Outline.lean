import HybridObjects.Model.Syntax
import HybridObjects.Text.Outline

/-!
# HybridObjects.Model.Outline

Outlines of expressions, effects, guards and statements, as error messages show them.
-/

namespace HybridObjects

mutual

def Expr.outline : Expr → Outline
  | .int text => .node "IntLiteral" [.text text]
  | .float text => .node "FloatLiteral" [.text text]
  | .string text => .node "StringLiteral" [.text text]
  | .field name => .node "FieldUse" [.text name]
  | .var name => .node "VarUse" [.text name]
  | .this => .node "This" []
  | .binary op lhs rhs =>
    .record "Binary" [("op", .node op.label []), ("lhs", lhs.outline), ("rhs", rhs.outline)]
  | .unary op arg => .record "Unary" [("op", .node op.label []), ("operand", arg.outline)]
  | .derivative arg => .node "Derivative" [arg.outline]
  | .construct name args =>
    .record "DataConstructor"
      [("constructor", .text name), ("args", .list (Expr.outlines args))]
  | .apply name args =>
    .record "FnApp" [("name", .text name), ("args", .list (Expr.outlines args))]

def Expr.outlines : List Expr → List Outline
  | [] => []
  | e :: es => e.outline :: Expr.outlines es

end

def Param.outline (p : Param) : Outline :=
  .record "Param" [("name", .text p.name), ("ty", .text p.type)]

def Signature.outline (sig : Signature) : Outline :=
  .record "MethodSig" [("name", .text sig.name), ("params", .list (sig.params.map Param.outline))]

/-- The parts of a call. -/
def Effect.callOutline (callee : Expr) (interface : Option String) (method : Signature)
    (args : List Expr) : List (String × Outline) :=
  [("callee", callee.outline), ("callee_interface", .option (interface.map .text)),
    ("method", method.outline), ("args", .list (Expr.outlines args))]

def Effect.outline : Effect → Outline
  | .asyncCall callee interface method args =>
    .record "AsyncCall" (Effect.callOutline callee interface method args)
  | .syncCall callee interface method args =>
    .record "SyncCall" (Effect.callOutline callee interface method args)
  | .create className args =>
    .record "New" [("class", .text className), ("args", .list (Expr.outlines args))]
  | .get future => .node "Get" [future.outline]

def Rhs.outline : Rhs → Outline
  | .pure value => .node "Pure" [value.outline]
  | .effect action => .node "Effect" [action.outline]

def Place.outline : Place → Outline
  | .field name => .node "Field" [.text name]
  | .var name => .node "Var" [.text name]

def Guard.outline : Guard → Outline
  | .cond value => .node "Exp" [value.outline]
  | .differential value => .node "Differential" [value.outline]
  | .and lhs rhs => .node "And" [lhs.outline, rhs.outline]
  | .or lhs rhs => .node "Or" [lhs.outline, rhs.outline]
  | .duration min => .record "Duration" [("min", min.outline)]
  | .claim future => .node "Claim" [future.outline]

/-- The outline of a block with the given statements. -/
def Outline.block (stmts : List Outline) : Outline :=
  .record "Block" [("stmts", .list stmts)]

mutual

def Stmt.outline : Stmt → Outline
  | .skip => .node "Skip" []
  | .assign target value =>
    .record "Assign" [("target", target.outline), ("value", value.outline)]
  | .declare name type init =>
    .record "VarDecl"
      [("name", .text name), ("ty", .text type), ("init", .option (init.map Rhs.outline))]
  | .cond test thenBranch none =>
    .record "If" [("cond", test.outline), ("then_branch", .block (Stmt.outlines thenBranch)),
      ("else_branch", .option none)]
  | .cond test thenBranch (some elseBranch) =>
    .record "If" [("cond", test.outline), ("then_branch", .block (Stmt.outlines thenBranch)),
      ("else_branch", .option (some (.block (Stmt.outlines elseBranch))))]
  | .loop test body =>
    .record "While" [("cond", test.outline), ("body", .block (Stmt.outlines body))]
  | .cases subject branches =>
    .record "Case"
      [("scrutinee", subject.outline), ("branches", .list (Stmt.branchOutlines branches))]
  | .block body => .node "Block" [.block (Stmt.outlines body)]
  | .ret value => .node "Return" [value.outline]
  | .eval value => .node "Expression" [value.outline]
  | .await guard => .node "Await" [guard.outline]
  | .duration min max => .record "Duration" [("min", min.outline), ("max", max.outline)]
  | .assert claim => .node "Assert" [claim.outline]

def Stmt.outlines : List Stmt → List Outline
  | [] => []
  | s :: ss => s.outline :: Stmt.outlines ss

def Stmt.branchOutlines : List (String × List Stmt) → List Outline
  | [] => []
  | (pattern, body) :: branches =>
    .record "CaseBranch" [("pattern", .text pattern), ("body", .block (Stmt.outlines body))] ::
      Stmt.branchOutlines branches

end

end HybridObjects
