import HybridObjects.Dynamics.Control
import HybridObjects.Logic.Resolution
import HybridObjects.Lowering.Block

/-!
# HybridObjects.Dynamics.Profile

What all obligations of a physical class share: its differential equations, its invariant and
precondition, its controllers, and the regions in which it evolves between two events.

* `Strategy`           — how precisely the region is described.
* `Profile.of`         — the profile of a class, or why it has none.
* `Profile.domain`     — the evolution domain of a continuous step with pending self-calls.
* `Profile.region`     — the continuous step itself.
* `Profile.waiting`    — the formula for the placeholder of a suspension.
-/

namespace HybridObjects

/-- How precisely evolution domains are described. `basic` is no restriction, `uniform` excludes
the guards of the pending self-calls, `controlled` also excludes the guards of all controllers. -/
inductive Strategy where
  | basic
  | uniform
  | controlled
deriving DecidableEq

def Strategy.label : Strategy → String
  | .basic => "basic"
  | .uniform => "uniform"
  | .controlled => "controlled"

def Strategy.ofLabel? (s : String) : Option Strategy :=
  [Strategy.basic, .uniform, .controlled].find? fun strategy => strategy.label == s

/-- Computations that write to the log and keep it when they fail. -/
abbrev Logged := EStateM Error Log

namespace Logged

def note (level : Level) (component : Component) (text : String) : Logged Unit := fun log =>
  .ok () (log ++ [⟨level, component, text⟩])

/-- The value of a computation that writes nothing down. -/
def lift {α : Type} : Except Error α → Logged α
  | .ok a => pure a
  | .error e => throw e

end Logged

structure Profile where
  model : Model
  owner : Class
  /-- The strategy in effect. -/
  strategy : Strategy
  ode : Ode
  invariant : Formula
  precondition : Formula
  controllers : List Signature
  controllerGuards : List Formula

/-- The equation of a continuous field. Its left side must be the derivative of the field. -/
def PhysicalField.equation (className : String) (f : PhysicalField) :
    Except Error (String × Term) :=
  let own :=
    match f.ode.lhs with
    | .derivative (.field name) => name == f.name
    | _ => false
  if own then
    match f.ode.rhs.toTerm with
    | .ok rhs => .ok (f.name, rhs)
    | .error e => .error (.unsupportedExpr e)
  else .error (.foreignEquation className f.name f.ode.lhs)

/-- The equations of a list of continuous fields. -/
def equationsOf (className : String) : List PhysicalField → Except Error (List (String × Term))
  | [] => .ok []
  | f :: fields =>
    match f.equation className with
    | .error e => .error e
    | .ok equation =>
      match equationsOf className fields with
      | .error e => .error e
      | .ok equations => .ok (equation :: equations)

/-- The methods with a leading guard among a list of methods, with the formulas of their guards. -/
def leadingGuards : List Method → Except Error (List (Signature × Formula))
  | [] => .ok []
  | m :: methods =>
    match m.leadingGuard with
    | none => leadingGuards methods
    | some guard =>
      match guard.toFormula with
      | .error e => .error (.unsupportedExpr e)
      | .ok guard =>
        match leadingGuards methods with
        | .error e => .error e
        | .ok rest => .ok ((m.sig, guard) :: rest)

/-- The controllers of a class with the formulas of their guards. A class that is not controllable
has none. -/
def Class.controllers (c : Class) : Except Error (List (Signature × Formula)) :=
  if c.isControllable then
    let reachable := c.reachableFromInit
    leadingGuards (c.methods.filter fun m => m.isController reachable)
  else .ok []

namespace Profile

/-- The disjunction of the guards of all controllers. -/
def controllerRegion (p : Profile) : Formula :=
  .disj p.controllerGuards

def isController (p : Profile) (sig : Signature) : Bool :=
  p.controllers.any fun c => c.matches sig

/-- The negated continuous leading guards of the methods that pending calls will run. -/
def excludedGuards (c : Class) : List Signature → Except Error (List Formula)
  | [] => .ok []
  | sig :: sigs =>
    match (c.methodBySig? sig).bind Method.leadingGuard with
    | some (.differential cond) =>
      match cond.toFormula with
      | .error e => .error (.unsupportedExpr e)
      | .ok guard =>
        match excludedGuards c sigs with
        | .error e => .error e
        | .ok guards => .ok (.not guard :: guards)
    | _ => excludedGuards c sigs

/-- The domain that excludes the guards of pending calls and imposes a further condition. -/
def uniformDomain (p : Profile) (extra : Formula) (calls : CallSet) : Except Error Formula :=
  match excludedGuards p.owner calls.members with
  | .error e => .error e
  | .ok guards => .ok ((Formula.conj guards).both extra)

/-- The evolution domain of a continuous step with pending self-calls. -/
def domain (p : Profile) (extra : Formula) (calls : CallSet) : Except Error Formula :=
  match p.strategy with
  | .basic => .ok .verum
  | .uniform => p.uniformDomain extra calls
  | .controlled =>
    match p.uniformDomain extra calls with
    | .error e => .error e
    | .ok domain => .ok (domain.both (.not p.controllerRegion))

/-- The continuous step with pending self-calls, timed by the clock. -/
def region (p : Profile) (extra : Formula) (calls : CallSet) : Except Error Program :=
  match p.domain extra calls with
  | .error e => .error e
  | .ok domain => .ok (.timedEvolution p.ode domain)

/-- The formula for the placeholder of a suspension: the invariant holds throughout the region. -/
def waiting (p : Profile) (invariant : Formula) (s : Suspension) : Except Error Formula :=
  match p.region s.guard s.calls with
  | .error e => .error e
  | .ok region => .ok (.box region invariant)

/-- The strategy in effect for a class. Without controllers there is nothing to control. -/
def effective (requested : Strategy) (controllable : Bool) (controllers : List Signature) :
    Strategy :=
  match requested with
  | .controlled => if controllable && !controllers.isEmpty then .controlled else .uniform
  | other => other

/-- What the log says when another strategy than the requested one is in effect. -/
def fallbackNote (className : String) (requested : Strategy) (controllable : Bool)
    (controllers : List Signature) : Option String :=
  match requested with
  | .controlled =>
    if !controllable then
      some ("class " ++ className ++ " is not controllable, falling back to uniform regions")
    else if controllers.isEmpty then
      some ("class " ++ className ++ " has no controller methods, falling back to uniform regions")
    else none
  | _ => none

/-- The profile of a class. -/
def of (model : Model) (c : Class) (requested : Strategy) : Logged Profile := do
  let some physical := c.physical | throw (.notPhysical c.name)
  let equations ← Logged.lift (equationsOf c.name physical.fields)
  let invariant ← Logged.lift (clauseFormula .objInv physical.annotations)
  let precondition ← Logged.lift (clauseFormula .requires c.annotations)
  let controllable := c.isControllable
  Logged.note .debug .analysis
    ("class " ++ c.name ++ " is controllable: " ++ (if controllable then "true" else "false"))
  let controllers ← Logged.lift c.controllers
  let names := controllers.map Prod.fst
  if let some text := fallbackNote c.name requested controllable names then
    Logged.note .info .analysis text
  let profile : Profile :=
    { model := model, owner := c, strategy := effective requested controllable names,
      ode := ⟨equations⟩, invariant := invariant, precondition := precondition,
      controllers := names, controllerGuards := controllers.map Prod.snd }
  if profile.strategy = .controlled then
    Logged.note .info .analysis
      ("controlled region of " ++ c.name ++ ": " ++ profile.controllerRegion.text)
  return profile

end Profile

/-- Formulas for the suspensions of a lowering, the i-th for placeholder i, from number `n` on. -/
def resolveFrom (answer : Suspension → Except Error Formula) (n : Nat) :
    List Suspension → Except Error Resolution
  | [] => .ok []
  | s :: rest =>
    match answer s with
    | .error e => .error e
    | .ok f =>
      match resolveFrom answer (n + 1) rest with
      | .error e => .error e
      | .ok resolution => .ok ((⟨n⟩, f) :: resolution)

/-- Formulas for the suspensions of a lowering. -/
def resolveAll (answer : Suspension → Except Error Formula) (suspensions : List Suspension) :
    Except Error Resolution :=
  resolveFrom answer 0 suspensions

end HybridObjects
