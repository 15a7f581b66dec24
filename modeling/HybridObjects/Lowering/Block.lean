import HybridObjects.Log
import HybridObjects.Lowering.Precondition
import HybridObjects.Model.CallSet

/-!
# HybridObjects.Lowering.Block

Statements as hybrid programs. Besides its program, every statement has the set of self-calls that
are certainly pending after it.

A suspension mints a placeholder for the formula of the region in which the object waits: if it
holds, the state changes arbitrarily and the process goes on with its guard and the invariant;
if not, the contract flag is cleared. A call or a creation clears the contract flag unless its
precondition holds.

The state of a lowering holds the suspensions met so far and the log. It outlives errors: what was
minted before an error stays minted.
-/

namespace HybridObjects

/-- What is known where a process gives up control: the guard it waits for, the self-calls pending
then, and whether it waits for a future. -/
structure Suspension where
  guard : Formula
  calls : CallSet
  blockingRead : Bool

/-- The suspensions met so far, the i-th one with placeholder i, and the log. -/
structure LoweringState where
  suspensions : List Suspension
  log : Log

def LoweringState.empty : LoweringState :=
  ⟨[], []⟩

/-- Computations that keep their state when they fail. -/
abbrev Lowering := EStateM Error LoweringState

/-- A program and the self-calls that are certainly pending after it. -/
structure Lowered where
  program : Program
  calls : CallSet

/-- Where statements stand: in a class or in the main block, under an invariant, with the variables
that other processes may change. -/
structure Scope where
  model : Model
  owner : Option Class
  invariant : Formula
  shared : List String

namespace Lowering

/-- Mints the placeholder of a suspension. -/
def mint (s : Suspension) : Lowering Placeholder := fun state =>
  .ok ⟨state.suspensions.length⟩ { state with suspensions := state.suspensions ++ [s] }

def note (text : String) : Lowering Unit := fun state =>
  .ok () { state with log := state.log ++ [⟨.debug, .statements, text⟩] }

/-- The value of a computation that writes nothing down. -/
def lift {α : Type} : Except Error α → Lowering α
  | .ok a => pure a
  | .error e => throw e

/-- The value of a computation that refuses expressions. -/
def liftExpr {α : Type} : Except Expr α → Lowering α
  | .ok a => pure a
  | .error e => throw (.unsupportedExpr e)

end Lowering

open Lowering (mint note lift liftExpr)

/-- The contract flag is cleared unless the precondition holds. -/
def contractCheck (pre : Formula) : Program :=
  .branch (.seq (.test pre) .skip) (.andThen (.test (.not pre)) (.assign contractVar (.num "0")))

namespace Scope

/-- The program of a suspension with the given placeholder. -/
def resumption (scope : Scope) (id : Placeholder) (guard : Formula) : Program :=
  .branch
    (.sequence [.test (.hole id), .havocAll scope.shared, .test (guard.both scope.invariant)])
    (.sequence [.test (.not (.hole id)), .havocAll scope.shared,
      .assign contractVar (.num "0"), .test guard])

/-- A suspension: the pending calls are recorded, and none is pending afterwards. -/
def suspend (scope : Scope) (guard : Formula) (calls : CallSet) (blockingRead : Bool) :
    Lowering Lowered := do
  let id ← mint ⟨guard, calls, blockingRead⟩
  note ("minted placeholder " ++ id.name ++ " for suspension on " ++ guard.text)
  return ⟨scope.resumption id guard, .empty⟩

/-- The check of a call; a call on `this` is pending afterwards. -/
def lowerCall (scope : Scope) (callee : Expr) (interface : Option String) (method : Signature)
    (args : List Expr) (calls : CallSet) : Lowering Lowered := do
  let found ← lift (scope.model.callPrecondition scope.owner callee interface method args)
  let pre ←
    match found with
    | some pre => pure pre
    | none =>
      note ("no precondition found for call to " ++ method.name)
      pure Formula.verum
  return ⟨contractCheck pre, if callee.isThis then calls.insert method else calls⟩

def lowerEffect (scope : Scope) (effect : Effect) (calls : CallSet) : Lowering Lowered :=
  match effect with
  | .asyncCall callee interface method args => scope.lowerCall callee interface method args calls
  | .create className args => do
    let pre ← lift (scope.model.creationPrecondition className args)
    return ⟨contractCheck pre, calls⟩
  | .get _ => scope.suspend .verum calls true
  | .syncCall .. => throw (.unsupportedEffect effect)

/-- An assignment. The result of an effect may be anything. -/
def lowerAssign (scope : Scope) (target : String) (value : Rhs) (calls : CallSet) :
    Lowering Lowered :=
  match value with
  | .pure e => do
    let term ← liftExpr e.toTerm
    return ⟨.assign target term, calls⟩
  | .effect e => do
    let lowered ← scope.lowerEffect e calls
    return ⟨lowered.program.andThen (.havoc target), lowered.calls⟩

mutual

/-- The program of a statement. Loops, case distinctions, durations and assertions have none. -/
def lowerStmt (scope : Scope) : Stmt → CallSet → Lowering Lowered
  | .skip, calls => pure ⟨.skip, calls⟩
  | .assign target value, calls => scope.lowerAssign target.name value calls
  | .declare name _ (some value), calls => scope.lowerAssign name value calls
  | .declare name _ none, calls => pure ⟨.havoc name, calls⟩
  | .cond test thenBranch none, calls => do
    let test ← liftExpr test.toFormula
    let thenPart ← lowerStmts scope thenBranch calls .skip
    let program := Program.branch (.andThen (.test test) thenPart.program) (.test (.not test))
    return ⟨program, thenPart.calls.inter calls⟩
  | .cond test thenBranch (some elseBranch), calls => do
    let test ← liftExpr test.toFormula
    let thenPart ← lowerStmts scope thenBranch calls .skip
    let elsePart ← lowerStmts scope elseBranch calls .skip
    let program := Program.branch (.andThen (.test test) thenPart.program)
      (.andThen (.test (.not test)) elsePart.program)
    return ⟨program, thenPart.calls.inter elsePart.calls⟩
  | .block body, calls => lowerStmts scope body calls .skip
  | .ret value, calls => do
    let term ← liftExpr value.toTerm
    return ⟨.assign resultVar term, calls⟩
  | .eval (.pure _), calls => pure ⟨.skip, calls⟩
  | .eval (.effect e), calls => scope.lowerEffect e calls
  | .await guard, calls => do
    let guard ← liftExpr guard.toFormula
    scope.suspend guard calls false
  | .loop test body, _ => throw (.unsupportedStmt (.loop test body))
  | .cases subject branches, _ => throw (.unsupportedStmt (.cases subject branches))
  | .duration min max, _ => throw (.unsupportedStmt (.duration min max))
  | .assert claim, _ => throw (.unsupportedStmt (.assert claim))

/-- The program of the statements after those whose program is `before`. -/
def lowerStmts (scope : Scope) : List Stmt → CallSet → Program → Lowering Lowered
  | [], calls, before => pure ⟨before, calls⟩
  | s :: rest, calls, before => do
    let lowered ← lowerStmt scope s calls
    lowerStmts scope rest lowered.calls (before.andThen lowered.program)

end

/-- The program of a block, with the self-calls pending before it. -/
def lowerBlock (scope : Scope) (b : Block) (calls : CallSet) : Lowering Lowered :=
  scope.lowerStmts b calls .skip

end Scope
end HybridObjects
