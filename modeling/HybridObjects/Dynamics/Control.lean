import HybridObjects.Model.Lookup
import HybridObjects.Model.Walk

/-!
# HybridObjects.Dynamics.Control

Which methods control a class. In a controllable class the method `run` only dispatches, and the
other methods never block once their leading guard has been passed. A controller waits for its
leading guard, acts without giving up control, and calls itself again.
-/

namespace HybridObjects

/-- A statement that only makes an asynchronous call. -/
def Stmt.isDispatch : Stmt → Bool
  | .eval (.effect (.asyncCall ..)) => true
  | _ => false

/-- Whether a method, past its leading guard, neither reads a future, lets time pass, calls
synchronously nor calls `run`. -/
def Method.isPrompt (m : Method) (run : Signature) : Bool :=
  let rest : Block := m.afterGuard
  !rest.containsGet && !rest.containsDuration && !rest.containsSyncCall &&
    !rest.calls.any fun sig => sig.matches run

/-- A class is controllable if its `run` only dispatches and its other methods are prompt. -/
def Class.isControllable (c : Class) : Bool :=
  match c.runMethod? with
  | none => false
  | some run =>
    run.body.all Stmt.isDispatch &&
      (c.methods.filter fun m => !m.sig.matches run.sig).all fun m => m.isPrompt run.sig

/-- The list without the signatures that an earlier one matches. -/
def dropMatching (sigs : List Signature) : List Signature :=
  sigs.foldl
    (fun seen sig => if seen.any fun s => s.matches sig then seen else seen ++ [sig]) []

/-- The signatures called on `this` by the initializer and by `run`. -/
def Class.reachableFromInit (c : Class) : List Signature :=
  let initCalls :=
    match c.init with
    | some b => b.selfCalls
    | none => []
  let runCalls :=
    match c.runMethod? with
    | some run => Block.selfCalls run.body
    | none => []
  dropMatching (initCalls ++ runCalls)

/-- Whether a statement is an asynchronous call on `this` of a signature. -/
def Stmt.callsBack (sig : Signature) : Stmt → Bool
  | .eval (.effect (.asyncCall .this _ method _)) => method.matches sig
  | _ => false

/-- The statements between the first one and the last one. -/
def Block.middle (b : Block) : Block :=
  b.tail.dropLast

/-- A controller has a leading guard, is among the reachable signatures, ends by calling itself on
`this`, and does not suspend in between. -/
def Method.isController (m : Method) (reachable : List Signature) : Bool :=
  m.leadingGuard.isSome && (reachable.any fun sig => sig.matches m.sig) &&
    (match m.body.getLast? with
      | some last => last.callsBack m.sig
      | none => false) &&
    !(Block.stmts (Block.middle m.body)).any Stmt.isSuspension

end HybridObjects
