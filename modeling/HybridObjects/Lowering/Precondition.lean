import HybridObjects.Logic.Printer
import HybridObjects.Lowering.Expr
import HybridObjects.Model.Lookup
import HybridObjects.Model.Spec

/-!
# HybridObjects.Lowering.Precondition

What a call or a creation has to establish: the `Requires` clause of the callee with the arguments
in the place of the parameters. Arguments for parameters that the clause does not mention do not
matter, not even if they have no counterpart in the logic.
-/

namespace HybridObjects

/-- The replacements of parameters by the texts of their arguments. An argument that is no term is
refused only if the clause text mentions its parameter. -/
def bindArguments (text : String) (sub : Substitution) :
    List String → List Expr → Except Error Substitution
  | formal :: formals, arg :: args =>
    match arg.toTerm with
    | .ok term => bindArguments text (sub.insert formal term.text) formals args
    | .error e =>
      if mentions text formal then .error (.unsupportedExpr e)
      else bindArguments text sub formals args
  | _, _ => .ok sub

/-- The precondition of annotations with parameters replaced by arguments; none if the annotations
have none. -/
def instantiate (annotations : List Annotation) (formals : List String) (args : List Expr) :
    Except Error (Option Formula) :=
  match clauseOf .requires .conjoin annotations with
  | .error e => .error e
  | .ok none => .ok none
  | .ok (some text) =>
    match bindArguments text [] formals args with
    | .error e => .error e
    | .ok sub => .ok (some (.raw (substitute sub text)))

/-- The precondition of a signature with the given annotations. -/
def Signature.instantiate (sig : Signature) (annotations : List Annotation) (args : List Expr) :
    Except Error (Option Formula) :=
  HybridObjects.instantiate annotations (sig.params.map Param.name) args

namespace Model

/-- The precondition of the declaration that a method of a class implements. -/
def declaredPrecondition (m : Model) (c : Class) (method : Signature) (args : List Expr) :
    Except Error (Option Formula) :=
  match m.contractOf? c method with
  | some declared => declared.sig.instantiate declared.annotations args
  | none => .ok none

/-- The precondition of a call on `this` inside a class: that of the declaration if it has one, else
that of the method itself. -/
def selfCallPrecondition (m : Model) (c : Class) (method : Signature) (args : List Expr) :
    Except Error (Option Formula) :=
  match m.declaredPrecondition c method args with
  | .error e => .error e
  | .ok (some pre) => .ok (some pre)
  | .ok none =>
    match c.methodBySig? method with
    | some target => target.sig.instantiate target.annotations args
    | none => .ok none

/-- The precondition of a call on another object, found through the static interface. -/
def otherCallPrecondition (m : Model) (interface : Option String) (method : Signature)
    (args : List Expr) : Except Error (Option Formula) :=
  match interface with
  | none => .ok none
  | some interface =>
    match m.declared? interface method with
    | none => .ok none
    | some declared => declared.sig.instantiate declared.annotations args

/-- The precondition of a call, in a class or outside of all classes. -/
def callPrecondition (m : Model) (c : Option Class) (callee : Expr) (interface : Option String)
    (method : Signature) (args : List Expr) : Except Error (Option Formula) :=
  if callee.isThis then
    match c with
    | some c => m.selfCallPrecondition c method args
    | none => .ok none
  else m.otherCallPrecondition interface method args

/-- The precondition of the creation of an object, `true` if its class has none. -/
def creationPrecondition (m : Model) (className : String) (args : List Expr) :
    Except Error Formula :=
  match m.findClassByName className with
  | .error e => .error e
  | .ok c =>
    match instantiate c.annotations (c.params.map Param.name) args with
    | .error e => .error e
    | .ok pre => .ok (pre.getD .verum)

end Model
end HybridObjects
