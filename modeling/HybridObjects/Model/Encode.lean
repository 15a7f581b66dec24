import HybridObjects.Json.Basic
import HybridObjects.Model.Syntax

/-!
# HybridObjects.Model.Encode

Models to JSON, in the canonical spelling: every declaration is an object with all of its fields,
an absent part is null, a variant without content is a string.
-/

namespace HybridObjects

namespace Json

/-- A variant with content. -/
def variant (tag : String) (content : Json) : Json :=
  .obj [(tag, content)]

/-- Null for absence. -/
def ofOption {α : Type} (value : α → Json) : Option α → Json
  | none => .null
  | some a => value a

def ofList {α : Type} (item : α → Json) (items : List α) : Json :=
  .arr (items.map item)

end Json

open Json (variant ofOption ofList)

def BinOp.toJson (op : BinOp) : Json :=
  .str op.label

def UnOp.toJson (op : UnOp) : Json :=
  .str op.label

mutual

def Expr.toJson : Expr → Json
  | .int text => variant "IntLiteral" (.str text)
  | .float text => variant "FloatLiteral" (.str text)
  | .string text => variant "StringLiteral" (.str text)
  | .field name => variant "FieldUse" (.str name)
  | .var name => variant "VarUse" (.str name)
  | .this => .str "This"
  | .binary op lhs rhs =>
    variant "Binary" (.obj [("op", op.toJson), ("lhs", lhs.toJson), ("rhs", rhs.toJson)])
  | .unary op arg => variant "Unary" (.obj [("op", op.toJson), ("operand", arg.toJson)])
  | .derivative arg => variant "Derivative" arg.toJson
  | .construct name args =>
    variant "DataConstructor"
      (.obj [("constructor", .str name), ("args", .arr (Expr.listToJson args))])
  | .apply name args =>
    variant "FnApp" (.obj [("name", .str name), ("args", .arr (Expr.listToJson args))])

def Expr.listToJson : List Expr → List Json
  | [] => []
  | e :: es => e.toJson :: Expr.listToJson es

end

def Param.toJson (p : Param) : Json :=
  .obj [("name", .str p.name), ("ty", .str p.type)]

def Signature.toJson (sig : Signature) : Json :=
  .obj [("name", .str sig.name), ("params", ofList Param.toJson sig.params)]

/-- The content of a call. -/
def Effect.callToJson (callee : Expr) (interface : Option String) (method : Signature)
    (args : List Expr) : Json :=
  .obj [("callee", callee.toJson), ("callee_interface", ofOption .str interface),
    ("method", method.toJson), ("args", ofList Expr.toJson args)]

def Effect.toJson : Effect → Json
  | .asyncCall callee interface method args =>
    variant "AsyncCall" (Effect.callToJson callee interface method args)
  | .syncCall callee interface method args =>
    variant "SyncCall" (Effect.callToJson callee interface method args)
  | .create className args =>
    variant "New" (.obj [("class", .str className), ("args", ofList Expr.toJson args)])
  | .get future => variant "Get" future.toJson

def Rhs.toJson : Rhs → Json
  | .pure value => variant "Pure" value.toJson
  | .effect e => variant "Effect" e.toJson

def Place.toJson : Place → Json
  | .field name => variant "Field" (.str name)
  | .var name => variant "Var" (.str name)

def Guard.toJson : Guard → Json
  | .cond value => variant "Exp" value.toJson
  | .differential value => variant "Differential" value.toJson
  | .and lhs rhs => variant "And" (.arr [lhs.toJson, rhs.toJson])
  | .or lhs rhs => variant "Or" (.arr [lhs.toJson, rhs.toJson])
  | .duration min => variant "Duration" (.obj [("min", min.toJson)])
  | .claim future => variant "Claim" future.toJson

mutual

def Stmt.toJson : Stmt → Json
  | .skip => .str "Skip"
  | .assign target value =>
    variant "Assign" (.obj [("target", target.toJson), ("value", value.toJson)])
  | .declare name type init =>
    variant "VarDecl"
      (.obj [("name", .str name), ("ty", .str type), ("init", ofOption Rhs.toJson init)])
  | .cond test thenBranch none =>
    variant "If" (.obj [("cond", test.toJson), ("then_branch", .arr (Stmt.listToJson thenBranch)),
      ("else_branch", .null)])
  | .cond test thenBranch (some elseBranch) =>
    variant "If" (.obj [("cond", test.toJson), ("then_branch", .arr (Stmt.listToJson thenBranch)),
      ("else_branch", .arr (Stmt.listToJson elseBranch))])
  | .loop test body =>
    variant "While" (.obj [("cond", test.toJson), ("body", .arr (Stmt.listToJson body))])
  | .cases subject branches =>
    variant "Case"
      (.obj [("scrutinee", subject.toJson), ("branches", .arr (Stmt.branchesToJson branches))])
  | .block body => variant "Block" (.arr (Stmt.listToJson body))
  | .ret value => variant "Return" value.toJson
  | .eval value => variant "Expression" value.toJson
  | .await guard => variant "Await" guard.toJson
  | .duration min max =>
    variant "Duration" (.obj [("min", min.toJson), ("max", max.toJson)])
  | .assert claim => variant "Assert" claim.toJson

def Stmt.listToJson : List Stmt → List Json
  | [] => []
  | s :: ss => s.toJson :: Stmt.listToJson ss

def Stmt.branchesToJson : List (String × List Stmt) → List Json
  | [] => []
  | (pattern, body) :: branches =>
    .obj [("pattern", .str pattern), ("body", .arr (Stmt.listToJson body))] ::
      Stmt.branchesToJson branches

end

def Block.toJson (b : Block) : Json :=
  .arr (Stmt.listToJson b)

def Annotation.toJson (a : Annotation) : Json :=
  .obj [("ty", .str a.type), ("value", a.value.toJson)]

def Method.toJson (m : Method) : Json :=
  .obj [("sig", m.sig.toJson), ("body", Block.toJson m.body),
    ("annotations", ofList Annotation.toJson m.annotations)]

def InterfaceMethod.toJson (m : InterfaceMethod) : Json :=
  .obj [("sig", m.sig.toJson), ("annotations", ofList Annotation.toJson m.annotations)]

def Interface.toJson (i : Interface) : Json :=
  .obj [("name", .str i.name), ("extends", ofList .str i.parents),
    ("methods", ofList InterfaceMethod.toJson i.methods)]

def Field.toJson (f : Field) : Json :=
  .obj [("name", .str f.name), ("ty", .str f.type), ("init", ofOption Expr.toJson f.init)]

def Equation.toJson (e : Equation) : Json :=
  .obj [("lhs", e.lhs.toJson), ("rhs", e.rhs.toJson)]

def PhysicalField.toJson (f : PhysicalField) : Json :=
  .obj [("name", .str f.name), ("initial", f.initial.toJson), ("ode", f.ode.toJson)]

def Physical.toJson (p : Physical) : Json :=
  .obj [("fields", ofList PhysicalField.toJson p.fields),
    ("annotations", ofList Annotation.toJson p.annotations)]

def Class.toJson (c : Class) : Json :=
  .obj [("name", .str c.name), ("params", ofList Param.toJson c.params),
    ("fields", ofList Field.toJson c.fields), ("physical", ofOption Physical.toJson c.physical),
    ("init_block", ofOption Block.toJson c.init), ("methods", ofList Method.toJson c.methods),
    ("implements", ofList .str c.implements),
    ("annotations", ofList Annotation.toJson c.annotations)]

def Module.toJson (m : Module) : Json :=
  .obj [("name", .str m.name), ("interfaces", ofList Interface.toJson m.interfaces),
    ("classes", ofList Class.toJson m.classes), ("main_block", ofOption Block.toJson m.main)]

def Model.toJson (m : Model) : Json :=
  .obj [("modules", ofList Module.toJson m.modules)]

end HybridObjects
