import HybridObjects.Dynamics.Profile
import HybridObjects.Obligation.Problem

/-!
# HybridObjects.Obligation.Contract

Contract obligations: for the methods and the initializer of a physical class, and for the main
block. Each has the form `pre -> [program](post & [region] invariant)`: the code keeps its
contract, and the invariant holds until the next event. The main block has no continuous state;
there only the contract flag is at stake.

* `Profile.methodObligation`, `Profile.initObligation`, `Model.mainObligation`.
* `Profile.clauseOf` — the clause of a method that its obligation assumes or proves.
-/

namespace HybridObjects

/-- The ghost variables followed by further variables, without repetition. -/
def programVariables (names : List String) : List String :=
  firstOccurrences (ghostVars ++ names)

/-- All that another process may change while this one is suspended. -/
def Class.sharedVariables (c : Class) : List String :=
  firstOccurrences (c.fieldNames ++ [resultVar, clockVar])

/-- The tactic of annotations, the last one if there are several. -/
def tacticOf (annotations : List Annotation) : Except Error String :=
  match HybridObjects.clauseOf .tactic .last annotations with
  | .error e => .error e
  | .ok text => .ok (text.getD defaultTactic)

/-- The replacements of the parameter names of a declaration by those of an implementation. -/
def parameterRenaming (sub : Substitution) : List Param → List Param → Substitution
  | formal :: formals, actual :: actuals =>
    if formal.name = actual.name then parameterRenaming sub formals actuals
    else parameterRenaming (sub.insert formal.name actual.name) formals actuals
  | _, _ => sub

/-- The program of a block, and the suspensions in it. -/
def Scope.lower (scope : Scope) (b : Block) : Logged (Lowered × List Suspension) := fun log =>
  match scope.lowerBlock b .empty ⟨[], log⟩ with
  | .ok lowered state => .ok (lowered, state.suspensions) state.log
  | .error e state => .error e state.log

/-- The program with its placeholders resolved. -/
def Program.close (p : Program) (resolution : Resolution) : Except Error Program :=
  match p.resolve resolution with
  | .ok p => .ok p
  | .error id => .error (.unresolved id)

/-- The condition under which a method starts: its leading guard. -/
def Method.entry (m : Method) : Except Error Formula :=
  match m.leadingGuard with
  | none => .ok .verum
  | some guard =>
    match guard.toFormula with
    | .ok f => .ok f
    | .error e => .error (.unsupportedExpr e)

namespace Profile

/-- The clause of the declaration that a method implements, in the names of the method's own
parameters. -/
def declaredClause (p : Profile) (m : Method) (clause : Clause) :
    Except Error (Option Formula) :=
  match p.model.contractOf? p.owner m.sig with
  | none => .ok none
  | some declared =>
    match HybridObjects.clauseOf clause .conjoin declared.annotations with
    | .error e => .error e
    | .ok none => .ok none
    | .ok (some text) =>
      let sub := parameterRenaming [] declared.sig.params m.sig.params
      .ok (some (.raw (substitute sub text)))

/-- The clause of a method: that of the declaration it implements if it has one, else its own, else
`true`. -/
def clauseOf (p : Profile) (m : Method) (clause : Clause) : Except Error Formula :=
  match p.declaredClause m clause with
  | .error e => .error e
  | .ok (some f) => .ok f
  | .ok none => clauseFormula clause m.annotations

/-- Where the code of the class stands. -/
def scope (p : Profile) : Scope :=
  ⟨p.model, some p.owner, p.invariant, p.owner.sharedVariables⟩

/-- The formulas for the suspensions of the code of the class. -/
def resolutions (p : Profile) (suspensions : List Suspension) : Except Error Resolution :=
  resolveAll (p.waiting p.invariant) suspensions

/-- The problem that `program` leads from `pre` to `post`, and that the invariant holds in the
region after it. -/
def contractProblem (p : Profile) (parameters : List String) (pre post : Formula)
    (program : Program) (tail : CallSet) (tactic : String) : Except Error Problem :=
  match p.region .verum tail with
  | .error e => .error e
  | .ok region =>
    let after := (applyPredicate parameters "post").both (.box region p.invariant)
    .ok
      { parameters := parameters
        predicates := [definePredicate "pre" pre parameters, definePredicate "post" post parameters]
        declared := parameters
        statement := .implies (applyPredicate parameters "pre") (.box program after)
        tactic := tactic }

/-- What holds when a method starts, apart from its leading guard. -/
def methodPrecondition (p : Profile) (requires : Formula) : Formula :=
  .conj [p.invariant, .varEq contractVar "1", .varEq clockVar "0", requires]

/-- The program of a method with its placeholders resolved, the self-calls pending after it, and the
number of its suspensions. -/
def methodProgram (p : Profile) (m : Method) : Logged (Program × CallSet × Nat) := do
  let (lowered, suspensions) ← p.scope.lower m.afterGuard
  let entry ← Logged.lift m.entry
  let resolution ← Logged.lift (p.resolutions suspensions)
  let program := Program.andThen (.test entry) lowered.program
  let program ← Logged.lift (program.close resolution)
  return (program, lowered.calls, resolution.length)

/-- The variables of the obligations of a method. -/
def methodParameters (p : Profile) (m : Method) : List String :=
  programVariables
    (p.owner.fieldNames ++ Block.localNames m.body ++ m.sig.params.map Param.name)

/-- Whether a method can be left out: it writes no field, calls nothing, creates nothing and
ensures nothing. -/
def isTrivial (body : Block) (ensures : Formula) : Bool :=
  !body.writesField && body.calls.isEmpty && body.creations.isEmpty && ensures.isTriviallyTrue

/-- The obligation of a method. -/
def methodObligation (p : Profile) (m : Method) : Logged Obligation := do
  let c := p.owner
  let ensures ← Logged.lift (p.clauseOf m .ensures)
  if isTrivial m.body ensures then
    Logged.note .info .contracts ("skipping " ++ c.name ++ "." ++ m.sig.name ++
      ": it writes no field, calls nothing, creates nothing and ensures nothing")
    return ⟨c.name, m.sig.name, none⟩
  let requires ← Logged.lift (p.clauseOf m .requires)
  let post := Formula.conj [.varEq contractVar "1", p.invariant, ensures]
  let (program, tail, resolved) ← p.methodProgram m
  Logged.note .debug .contracts (c.name ++ "." ++ m.sig.name ++ ": " ++ toString resolved ++
    " placeholders resolved, tail calls " ++
    (Outline.list (tail.members.map fun sig => .text sig.name)).spell)
  let tactic ← Logged.lift (tacticOf m.annotations)
  let problem ← Logged.lift
    (p.contractProblem (p.methodParameters m) (p.methodPrecondition requires) post program tail
      tactic)
  return ⟨c.name, m.sig.name, some problem⟩

/-- The equations between fields and their initial values. -/
def initialValues : List (String × Expr) → Except Error (List Formula)
  | [] => .ok []
  | (name, value) :: rest =>
    match value.toTerm with
    | .error e => .error (.unsupportedExpr e)
    | .ok value =>
      match initialValues rest with
      | .error e => .error e
      | .ok equations => .ok (.cmp .eq (.var name) value :: equations)

/-- The fields of a class that have initial values. -/
def initializedFields (c : Class) : List (String × Expr) :=
  (c.fields.filterMap fun f => f.init.map (f.name, ·)) ++
    c.physicalFields.map fun f => (f.name, f.initial)

/-- The obligation of the initializer: from the initial values on, it keeps the contract and
establishes the invariant. -/
def initObligation (p : Profile) : Logged Obligation := do
  let c := p.owner
  let initial ← Logged.lift (initialValues (initializedFields c))
  let pre := Formula.conj (.varEq contractVar "1" :: initial ++ [p.precondition])
  let body : Block := c.init.getD []
  let (lowered, suspensions) ← p.scope.lower body
  let resolution ← Logged.lift (p.resolutions suspensions)
  let program ← Logged.lift (lowered.program.close resolution)
  let tail :=
    match c.runMethod? with
    | some run => lowered.calls.insert run.sig
    | none => lowered.calls
  let tactic ← Logged.lift (tacticOf c.annotations)
  let problem ← Logged.lift
    (p.contractProblem (programVariables (c.fieldNames ++ body.localNames)) pre
      (.varEq contractVar "1") program tail tactic)
  return ⟨c.name, "init", some problem⟩

end Profile

/-- The obligation of the main block: every object is created with the precondition of its class
satisfied. Waiting takes place in no region. -/
def Model.mainObligation (m : Model) : Logged Obligation := do
  let some body := m.mainBlock? | throw .noMainBlock
  let scope : Scope := ⟨m, none, .verum, [resultVar, clockVar]⟩
  let (lowered, suspensions) ← scope.lower body
  let resolution ← Logged.lift (resolveAll (fun _ => .ok .verum) suspensions)
  let program ← Logged.lift (lowered.program.close resolution)
  let contract := Formula.varEq contractVar "1"
  let problem : Problem :=
    { parameters := []
      predicates := []
      declared := programVariables body.localNames
      statement := .implies contract (.box program contract)
      tactic := defaultTactic }
  return ⟨"main", "main", some problem⟩

end HybridObjects
