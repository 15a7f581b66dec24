import HybridObjects.Files.Tree
import HybridObjects.Logic.Formula
import HybridObjects.Model.Clause
import HybridObjects.Model.Outline

/-!
# HybridObjects.Error

Why an obligation cannot be generated. Each cause has one text.
-/

namespace HybridObjects

inductive Error where
  | moduleNotFound (name : String)
  | classNotFound (name : String)
  | methodNotFound (name : String)
  | invalidPath (path : String)
  | notPhysical (className : String)
  | noMainBlock
  /-- A specification that is not a constructor, met while looking for a clause. -/
  | notAClause (clause : Clause) (found : Expr)
  /-- A clause that is not applied to one string literal. -/
  | notOneText (clause : Clause) (found : List Expr)
  /-- An equation that does not define the derivative of its own field. -/
  | foreignEquation (className fieldName : String) (lhs : Expr)
  | unsupportedExpr (e : Expr)
  | unsupportedStmt (s : Stmt)
  | unsupportedEffect (e : Effect)
  | unresolved (id : Placeholder)
  | file (fault : FileFault)

def Error.message : Error → String
  | .moduleNotFound name => "module `" ++ name ++ "` not found"
  | .classNotFound name => "class `" ++ name ++ "` not found"
  | .methodNotFound name => "method `" ++ name ++ "` not found"
  | .invalidPath path => "invalid qualified name `" ++ path ++ "`"
  | .notPhysical className =>
    "class `" ++ className ++ "` has no physical block; discrete classes are not supported"
  | .noMainBlock => "model contains no main block"
  | .notAClause clause found =>
    "malformed annotation: expected a specification constructor while looking for " ++
      clause.label ++ ", found " ++ found.outline.spell
  | .notOneText clause found =>
    "malformed annotation: " ++ clause.label ++ " expects a single string literal, found " ++
      (Outline.list (found.map Expr.outline)).spell
  | .foreignEquation className fieldName lhs =>
    "malformed model: the equation of `" ++ className ++ "." ++ fieldName ++ "` must define `" ++
      fieldName ++ "'`, found left side " ++ lhs.outline.spell
  | .unsupportedExpr e => "translation not supported: " ++ e.outline.spell
  | .unsupportedStmt s => "translation not supported: " ++ s.outline.spell
  | .unsupportedEffect e => "translation not supported: " ++ e.outline.spell
  | .unresolved id => "placeholder " ++ id.name ++ " has no region entry"
  | .file fault => fault.message

end HybridObjects
