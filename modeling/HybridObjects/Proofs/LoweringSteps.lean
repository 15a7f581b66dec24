import HybridObjects.Proofs.Placeholders

/-!
# HybridObjects.Proofs.LoweringSteps

What a lowering inherits from its steps. A lowering is put together from values, errors, minted
placeholders and notes; the traversal of a statement adds nothing to them. So a property that all of
these have, and that passes from two computations to the one after the other, holds of the lowering
of every statement and block.

* `Lowering.Inherited` — such a property.
* `Lowering.Inherited.lowerStmt`, `Lowering.Inherited.lowerStmts` — the traversal, once for all.
* `Scope.settles_lowerStmts` — lowering never fails for want of a formula.
-/

namespace HybridObjects

/-- A property of computations that lowerings inherit from their steps. No step looks up the formula
of a placeholder, so none fails for want of one. -/
structure Lowering.Inherited (C : {α : Type} → Lowering α → Prop) : Prop where
  pure : ∀ {α : Type} (a : α), C (Pure.pure a : Lowering α)
  throw : ∀ {α : Type} {e : Error}, e.Plain → C (MonadExcept.throw e : Lowering α)
  bind : ∀ {α β : Type} {x : Lowering α} {f : α → Lowering β},
    C x → (∀ a, C (f a)) → C (x >>= f)
  mint : ∀ entry : Suspension, C (Lowering.mint entry)
  note : ∀ text : String, C (Lowering.note text)

namespace Lowering.Inherited

variable {C : {α : Type} → Lowering α → Prop} (hC : Inherited C)

include hC

theorem lift {α : Type} {P : α → Prop} {x : Except Error α} (h : Answers x P) :
    C (Lowering.lift x) := by
  cases x with
  | ok a => exact hC.pure a
  | error e => exact hC.throw (h.error rfl)

theorem liftExpr {α : Type} (x : Except Expr α) : C (Lowering.liftExpr x) := by
  cases x with
  | ok a => exact hC.pure a
  | error e => exact hC.throw (Error.plain_unsupportedExpr e)

variable (scope : Scope)

theorem suspend (guard : Formula) (calls : CallSet) (blocking : Bool) :
    C (scope.suspend guard calls blocking) :=
  hC.bind (hC.mint _) fun _ => hC.bind (hC.note _) fun _ => hC.pure _

theorem lowerEffect (e : Effect) (calls : CallSet) : C (scope.lowerEffect e calls) := by
  cases e with
  | asyncCall callee interface method args =>
    refine hC.bind (hC.lift (Model.answers_callPrecondition ..)) fun found => ?_
    cases found with
    | some pre => exact hC.pure _
    | none => exact hC.bind (hC.note _) fun _ => hC.pure _
  | syncCall callee interface method args => exact hC.throw (by rintro id ⟨⟩)
  | create className args =>
    exact hC.bind (hC.lift (Model.answers_creationPrecondition ..)) fun _ => hC.pure _
  | get future => exact hC.suspend scope .verum calls true

theorem lowerAssign (target : String) (value : Rhs) (calls : CallSet) :
    C (scope.lowerAssign target value calls) := by
  cases value with
  | pure e => exact hC.bind (hC.liftExpr _) fun _ => hC.pure _
  | effect e => exact hC.bind (hC.lowerEffect scope e calls) fun _ => hC.pure _

mutual

theorem lowerStmt : ∀ (s : Stmt) (calls : CallSet), C (scope.lowerStmt s calls) := by
  intro s calls
  match s with
  | .skip | .declare name type none | .eval (.pure e) => exact hC.pure _
  | .assign target value => exact hC.lowerAssign scope target.name value calls
  | .declare name type (some value) => exact hC.lowerAssign scope name value calls
  | .cond test thenBranch none =>
    exact hC.bind (hC.liftExpr _) fun _ =>
      hC.bind (lowerStmts thenBranch calls .skip) fun _ => hC.pure _
  | .cond test thenBranch (some elseBranch) =>
    exact hC.bind (hC.liftExpr _) fun _ =>
      hC.bind (lowerStmts thenBranch calls .skip) fun _ =>
        hC.bind (lowerStmts elseBranch calls .skip) fun _ => hC.pure _
  | .block body => exact lowerStmts body calls .skip
  | .ret e => exact hC.bind (hC.liftExpr _) fun _ => hC.pure _
  | .eval (.effect e) => exact hC.lowerEffect scope e calls
  | .await g => exact hC.bind (hC.liftExpr _) fun guard => hC.suspend scope guard calls false
  | .loop .. | .cases .. | .duration .. | .assert _ => exact hC.throw (by rintro id ⟨⟩)

theorem lowerStmts : ∀ (b : Block) (calls : CallSet) (before : Program),
    C (scope.lowerStmts b calls before) := by
  intro b calls before
  match b with
  | [] => exact hC.pure _
  | s :: rest => exact hC.bind (lowerStmt s calls) fun _ => lowerStmts rest _ _

end

end Lowering.Inherited

theorem Scope.settles_lowerStmts (scope : Scope) (b : Block) (calls : CallSet) (before : Program) :
    Settles (scope.lowerStmts b calls before) fun _ => True := by
  have hsettles : Lowering.Inherited fun x => Settles x fun _ => True := {
    pure := fun _ => .pure trivial
    throw := fun h => .throw h
    bind := fun hx hf => .bind hx fun a _ => hf a
    mint := fun _ => ⟨fun _ => trivial, by rintro st e st' ⟨⟩⟩
    note := fun text => Lowering.settles_note text }
  exact hsettles.lowerStmts scope b calls before

end HybridObjects
