import HybridObjects.Obligation.Contract

/-!
# HybridObjects.Obligation.Progress

Zeno freedom: after every controller, time passes before the controlled region is reached again,
and no other method disturbs the controlled state.
-/

namespace HybridObjects

/-- What remains of the check for Zeno freedom: obligations for the prover, and the methods other
than controllers that change the state. -/
structure ZenoCheck where
  obligations : List Obligation
  violations : List String

def ZenoCheck.isViolated (check : ZenoCheck) : Bool :=
  !check.violations.isEmpty

/-- Whether a block assigns a field or creates an object. -/
def Block.changesState (b : Block) : Bool :=
  b.writesField || !b.creations.isEmpty

namespace Profile

/-- The obligation of a controller: for some positive time after it has run, no controller guard
holds. -/
def zenoObligation (p : Profile) (m : Method) : Logged Obligation := do
  let c := p.owner
  let requires ← Logged.lift (p.clauseOf m .requires)
  let pre := p.methodPrecondition requires
  let (program, _, _) ← p.methodProgram m
  let bounded := Formula.cmp .le (.var clockVar) (.var zenoVar)
  let program := program.andThen (.timedEvolution p.ode bounded)
  let positive := Formula.cmp .gt (.var zenoVar) (.num "0")
  let leaves := Formula.box program (.not p.controllerRegion)
  let parameters := p.methodParameters m
  let tactic ← Logged.lift (tacticOf c.annotations)
  let problem : Problem :=
    { parameters := parameters
      predicates := [definePredicate "pre" pre parameters]
      declared := parameters ++ [zenoVar]
      statement := .implies (applyPredicate parameters "pre")
        (.exist zenoVar (positive.both leaves))
      tactic := tactic }
  return ⟨c.name, "zeno_" ++ m.sig.name, some problem⟩

/-- The check of the given methods. -/
def checkMethods (p : Profile) : List Method → Logged ZenoCheck
  | [] => return ⟨[], []⟩
  | m :: methods => do
    if p.isController m.sig then
      let obligation ← p.zenoObligation m
      let rest ← p.checkMethods methods
      return { rest with obligations := obligation :: rest.obligations }
    else if Block.changesState m.body then
      Logged.note .warn .progress
        (p.owner.name ++ "." ++ m.sig.name ++ " is not a controller but changes the object state")
      let rest ← p.checkMethods methods
      return { rest with violations := m.sig.name :: rest.violations }
    else p.checkMethods methods

/-- The check of a class. A class without controllers is free of Zeno behaviour. -/
def zenoCheck (p : Profile) : Logged ZenoCheck := do
  if p.controllers.isEmpty then
    Logged.note .info .progress
      ("class " ++ p.owner.name ++ " has no controllers, Zeno freedom holds vacuously")
    return ⟨[], []⟩
  p.checkMethods p.owner.methods

end Profile
end HybridObjects
