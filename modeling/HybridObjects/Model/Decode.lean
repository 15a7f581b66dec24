import HybridObjects.Json.Decode
import HybridObjects.Json.Reader
import HybridObjects.Model.Syntax

/-!
# HybridObjects.Model.Decode

Models from JSON. Every declaration is a record and every alternative a variant, in the sense of
`HybridObjects.Json.Decode`; a block is a plain array of statements.

The readers of expressions, guards and statements recurse on a bound for the nesting of the value;
`Expr.ofJson`, `Guard.ofJson` and `Stmt.ofJson` take the depth of the value itself, which is
always enough.
-/

namespace HybridObjects

open Json (Fault asString asList asOption asRecord asVariant noContent content pairContent)

def BinOp.ofJson (j : Json) : Except Fault BinOp := do
  let (tag, body) ← asVariant j
  match tag with
  | "Add" => noContent .add body
  | "Sub" => noContent .sub body
  | "Mul" => noContent .mul body
  | "Div" => noContent .div body
  | "Mod" => noContent .mod body
  | "Lt" => noContent .lt body
  | "Le" => noContent .le body
  | "Gt" => noContent .gt body
  | "Ge" => noContent .ge body
  | "Eq" => noContent .eq body
  | "Ne" => noContent .ne body
  | "And" => noContent .and body
  | "Or" => noContent .or body
  | _ => .error (.unknownVariant tag)

def UnOp.ofJson (j : Json) : Except Fault UnOp := do
  let (tag, body) ← asVariant j
  match tag with
  | "Not" => noContent .not body
  | "Neg" => noContent .neg body
  | _ => .error (.unknownVariant tag)

/-- Reads an expression whose nesting is at most the given bound. -/
def Expr.ofJsonWithin : Nat → Json → Except Fault Expr
  | 0, _ => .error (.expected "less nesting")
  | n + 1, j => do
    let (tag, body) ← asVariant j
    match tag with
    | "IntLiteral" => .int <$> content asString body
    | "FloatLiteral" => .float <$> content asString body
    | "StringLiteral" => .string <$> content asString body
    | "FieldUse" => .field <$> content asString body
    | "VarUse" => .var <$> content asString body
    | "This" => noContent .this body
    | "Binary" => do
      let r ← content (asRecord ["op", "lhs", "rhs"]) body
      let op ← r.require "op" BinOp.ofJson
      let lhs ← r.require "lhs" (Expr.ofJsonWithin n)
      let rhs ← r.require "rhs" (Expr.ofJsonWithin n)
      return .binary op lhs rhs
    | "Unary" => do
      let r ← content (asRecord ["op", "operand"]) body
      let op ← r.require "op" UnOp.ofJson
      let arg ← r.require "operand" (Expr.ofJsonWithin n)
      return .unary op arg
    | "Derivative" => .derivative <$> content (Expr.ofJsonWithin n) body
    | "DataConstructor" => do
      let r ← content (asRecord ["constructor", "args"]) body
      let name ← r.require "constructor" asString
      let args ← r.withDefault "args" [] (asList (Expr.ofJsonWithin n))
      return .construct name args
    | "FnApp" => do
      let r ← content (asRecord ["name", "args"]) body
      let name ← r.require "name" asString
      let args ← r.withDefault "args" [] (asList (Expr.ofJsonWithin n))
      return .apply name args
    | _ => .error (.unknownVariant tag)

def Expr.ofJson (j : Json) : Except Fault Expr :=
  Expr.ofJsonWithin (j.depth + 1) j

def Param.ofJson (j : Json) : Except Fault Param := do
  let r ← asRecord ["name", "ty"] j
  let name ← r.require "name" asString
  let type ← r.withDefault "ty" "" asString
  return ⟨name, type⟩

def Signature.ofJson (j : Json) : Except Fault Signature := do
  let r ← asRecord ["name", "params"] j
  let name ← r.require "name" asString
  let params ← r.withDefault "params" [] (asList Param.ofJson)
  return ⟨name, params⟩

/-- The content of a call: callee, static interface, signature and arguments. -/
def Effect.callOfJson (j : Json) :
    Except Fault (Expr × Option String × Signature × List Expr) := do
  let r ← asRecord ["callee", "callee_interface", "method", "args"] j
  let callee ← r.require "callee" Expr.ofJson
  let interface ← r.optional "callee_interface" asString
  let method ← r.require "method" Signature.ofJson
  let args ← r.withDefault "args" [] (asList Expr.ofJson)
  return (callee, interface, method, args)

def Effect.ofJson (j : Json) : Except Fault Effect := do
  let (tag, body) ← asVariant j
  match tag with
  | "AsyncCall" => do
    let (callee, interface, method, args) ← content Effect.callOfJson body
    return .asyncCall callee interface method args
  | "SyncCall" => do
    let (callee, interface, method, args) ← content Effect.callOfJson body
    return .syncCall callee interface method args
  | "New" => do
    let r ← content (asRecord ["class", "args"]) body
    let className ← r.require "class" asString
    let args ← r.withDefault "args" [] (asList Expr.ofJson)
    return .create className args
  | "Get" => .get <$> content Expr.ofJson body
  | _ => .error (.unknownVariant tag)

def Rhs.ofJson (j : Json) : Except Fault Rhs := do
  let (tag, body) ← asVariant j
  match tag with
  | "Pure" => .pure <$> content Expr.ofJson body
  | "Effect" => .effect <$> content Effect.ofJson body
  | _ => .error (.unknownVariant tag)

def Place.ofJson (j : Json) : Except Fault Place := do
  let (tag, body) ← asVariant j
  match tag with
  | "Field" => .field <$> content asString body
  | "Var" => .var <$> content asString body
  | _ => .error (.unknownVariant tag)

/-- Reads a guard whose nesting is at most the given bound. -/
def Guard.ofJsonWithin : Nat → Json → Except Fault Guard
  | 0, _ => .error (.expected "less nesting")
  | n + 1, j => do
    let (tag, body) ← asVariant j
    match tag with
    | "Exp" => .cond <$> content Expr.ofJson body
    | "Differential" => .differential <$> content Expr.ofJson body
    | "And" => do
      let (lhs, rhs) ← pairContent (Guard.ofJsonWithin n) body
      return .and lhs rhs
    | "Or" => do
      let (lhs, rhs) ← pairContent (Guard.ofJsonWithin n) body
      return .or lhs rhs
    | "Duration" => do
      let r ← content (asRecord ["min"]) body
      .duration <$> r.require "min" Expr.ofJson
    | "Claim" => .claim <$> content Expr.ofJson body
    | _ => .error (.unknownVariant tag)

def Guard.ofJson (j : Json) : Except Fault Guard :=
  Guard.ofJsonWithin (j.depth + 1) j

/-- Reads a branch of a case distinction, its body by `block`. -/
def branchOfJson (block : Json → Except Fault Block) (j : Json) :
    Except Fault (String × Block) := do
  let r ← asRecord ["pattern", "body"] j
  let pattern ← r.require "pattern" asString
  let body ← r.require "body" block
  return (pattern, body)

/-- Reads a statement whose nesting is at most the given bound. -/
def Stmt.ofJsonWithin : Nat → Json → Except Fault Stmt
  | 0, _ => .error (.expected "less nesting")
  | n + 1, j => do
    let (tag, body) ← asVariant j
    match tag with
    | "Skip" => noContent .skip body
    | "Assign" => do
      let r ← content (asRecord ["target", "value"]) body
      let target ← r.require "target" Place.ofJson
      let value ← r.require "value" Rhs.ofJson
      return .assign target value
    | "VarDecl" => do
      let r ← content (asRecord ["name", "ty", "init"]) body
      let name ← r.require "name" asString
      let type ← r.withDefault "ty" "" asString
      let init ← r.optional "init" Rhs.ofJson
      return .declare name type init
    | "If" => do
      let r ← content (asRecord ["cond", "then_branch", "else_branch"]) body
      let test ← r.require "cond" Expr.ofJson
      let thenBranch ← r.require "then_branch" (asList (Stmt.ofJsonWithin n))
      let elseBranch ← r.optional "else_branch" (asList (Stmt.ofJsonWithin n))
      return .cond test thenBranch elseBranch
    | "While" => do
      let r ← content (asRecord ["cond", "body"]) body
      let test ← r.require "cond" Expr.ofJson
      let body ← r.require "body" (asList (Stmt.ofJsonWithin n))
      return .loop test body
    | "Case" => do
      let r ← content (asRecord ["scrutinee", "branches"]) body
      let subject ← r.require "scrutinee" Expr.ofJson
      let branches ←
        r.require "branches" (asList (branchOfJson (asList (Stmt.ofJsonWithin n))))
      return .cases subject branches
    | "Block" => .block <$> content (asList (Stmt.ofJsonWithin n)) body
    | "Return" => .ret <$> content Expr.ofJson body
    | "Expression" => .eval <$> content Rhs.ofJson body
    | "Await" => .await <$> content Guard.ofJson body
    | "Duration" => do
      let r ← content (asRecord ["min", "max"]) body
      let min ← r.require "min" Expr.ofJson
      let max ← r.require "max" Expr.ofJson
      return .duration min max
    | "Assert" => .assert <$> content Expr.ofJson body
    | _ => .error (.unknownVariant tag)

def Stmt.ofJson (j : Json) : Except Fault Stmt :=
  Stmt.ofJsonWithin (j.depth + 1) j

def Block.ofJson (j : Json) : Except Fault Block :=
  asList Stmt.ofJson j

def Annotation.ofJson (j : Json) : Except Fault Annotation := do
  let r ← asRecord ["ty", "value"] j
  let type ← r.require "ty" asString
  let value ← r.require "value" Expr.ofJson
  return ⟨type, value⟩

def Method.ofJson (j : Json) : Except Fault Method := do
  let r ← asRecord ["sig", "body", "annotations"] j
  let sig ← r.require "sig" Signature.ofJson
  let body ← r.require "body" Block.ofJson
  let annotations ← r.withDefault "annotations" [] (asList Annotation.ofJson)
  return ⟨sig, body, annotations⟩

def InterfaceMethod.ofJson (j : Json) : Except Fault InterfaceMethod := do
  let r ← asRecord ["sig", "annotations"] j
  let sig ← r.require "sig" Signature.ofJson
  let annotations ← r.withDefault "annotations" [] (asList Annotation.ofJson)
  return ⟨sig, annotations⟩

def Interface.ofJson (j : Json) : Except Fault Interface := do
  let r ← asRecord ["name", "extends", "methods"] j
  let name ← r.require "name" asString
  let parents ← r.withDefault "extends" [] (asList asString)
  let methods ← r.withDefault "methods" [] (asList InterfaceMethod.ofJson)
  return ⟨name, parents, methods⟩

def Field.ofJson (j : Json) : Except Fault Field := do
  let r ← asRecord ["name", "ty", "init"] j
  let name ← r.require "name" asString
  let type ← r.withDefault "ty" "" asString
  let init ← r.optional "init" Expr.ofJson
  return ⟨name, type, init⟩

def Equation.ofJson (j : Json) : Except Fault Equation := do
  let r ← asRecord ["lhs", "rhs"] j
  let lhs ← r.require "lhs" Expr.ofJson
  let rhs ← r.require "rhs" Expr.ofJson
  return ⟨lhs, rhs⟩

def PhysicalField.ofJson (j : Json) : Except Fault PhysicalField := do
  let r ← asRecord ["name", "initial", "ode"] j
  let name ← r.require "name" asString
  let initial ← r.require "initial" Expr.ofJson
  let ode ← r.require "ode" Equation.ofJson
  return ⟨name, initial, ode⟩

def Physical.ofJson (j : Json) : Except Fault Physical := do
  let r ← asRecord ["fields", "annotations"] j
  let fields ← r.withDefault "fields" [] (asList PhysicalField.ofJson)
  let annotations ← r.withDefault "annotations" [] (asList Annotation.ofJson)
  return ⟨fields, annotations⟩

def Class.ofJson (j : Json) : Except Fault Class := do
  let r ← asRecord
    ["name", "params", "fields", "physical", "init_block", "methods", "implements", "annotations"] j
  let name ← r.require "name" asString
  let params ← r.withDefault "params" [] (asList Param.ofJson)
  let fields ← r.withDefault "fields" [] (asList Field.ofJson)
  let physical ← r.optional "physical" Physical.ofJson
  let init ← r.optional "init_block" Block.ofJson
  let methods ← r.withDefault "methods" [] (asList Method.ofJson)
  let implements ← r.withDefault "implements" [] (asList asString)
  let annotations ← r.withDefault "annotations" [] (asList Annotation.ofJson)
  return ⟨name, params, fields, physical, init, methods, implements, annotations⟩

def Module.ofJson (j : Json) : Except Fault Module := do
  let r ← asRecord ["name", "interfaces", "classes", "main_block"] j
  let name ← r.require "name" asString
  let interfaces ← r.withDefault "interfaces" [] (asList Interface.ofJson)
  let classes ← r.withDefault "classes" [] (asList Class.ofJson)
  let main ← r.optional "main_block" Block.ofJson
  return ⟨name, interfaces, classes, main⟩

def Model.ofJson (j : Json) : Except Fault Model := do
  let r ← asRecord ["modules"] j
  let modules ← r.withDefault "modules" [] (asList Module.ofJson)
  return ⟨modules⟩

/-- The model that a JSON text describes. -/
def Model.ofText (text : String) : Except Fault Model :=
  match Json.read? text with
  | some j => Model.ofJson j
  | none => .error .syntaxFault

end HybridObjects
