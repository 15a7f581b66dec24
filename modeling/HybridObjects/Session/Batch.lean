import HybridObjects.Obligation.Progress
import HybridObjects.Prover.Backend
import HybridObjects.Session.Settings
import HybridObjects.Session.Target

/-!
# HybridObjects.Session.Batch

Runs: the obligations of a target are generated, written to the output directory and submitted to a
backend, one after the other. A failure of one obligation is logged and makes its verdict `not
proved`; the others are not affected.

* `Report`     — the outcomes of a run, and their text.
* `Batch.run`  — a run.
-/

namespace HybridObjects

structure Outcome where
  name : String
  verdict : Verdict
  /-- Where the artifact was written, if there is one. -/
  artifact : Option Path
deriving DecidableEq

structure Report where
  outcomes : List Outcome
deriving DecidableEq

namespace Report

/-- A run succeeds if all of its obligations are proved. -/
def isSuccess (r : Report) : Bool :=
  r.outcomes.all fun o => o.verdict.isProved

/-- The paths submitted to the backend, in order. -/
def submitted (r : Report) : List Path :=
  r.outcomes.filterMap Outcome.artifact

/-- A text in a colour of the terminal, or as it is. -/
def paint (colored : Bool) (code text : String) : String :=
  if colored then "\x1b[" ++ code ++ "m" ++ text ++ "\x1b[0m" else text

/-- The colour of a verdict. -/
def color : Verdict → String
  | .proved => "32"
  | .notProved => "31"
  | .notChecked => "33"

/-- The text of a report: a line for each outcome, then the summary. -/
def text (colored : Bool) (r : Report) : String :=
  let lines := r.outcomes.map fun o =>
    o.name ++ ": " ++ paint colored (color o.verdict) o.verdict.label ++ "\n"
  let summary :=
    if r.isSuccess then paint colored "1;32" "all obligations proved"
    else paint colored "1;31" "some obligations are not proved"
  "".intercalate lines ++ summary

end Report

/-- Computations on the world that keep it when they fail. -/
abbrev Run := EStateM Error World

namespace Run

def note (level : Level) (text : String) : Run Unit := fun w =>
  .ok () (w.note level .batch text)

/-- A computation that only writes to the log. -/
def logged {α : Type} (x : Logged α) : Run α := fun w =>
  match x w.log with
  | .ok a log => .ok a { w with log := log }
  | .error e log => .error e { w with log := log }

def lift {α : Type} : Except Error α → Run α
  | .ok a => pure a
  | .error e => throw e

/-- A change of the files. -/
def changeFiles (change : FileTree.Change) : Run Unit := fun w =>
  match change w.files with
  | .ok _ files => .ok () { w with files := files }
  | .error fault files => .error (.file fault) { w with files := files }

/-- Writes a text to a file. -/
def writeFile (path : Path) (text : String) : Run Unit := fun w =>
  match w.files.write path text with
  | .ok files => .ok () { w with files := files }
  | .error fault => .error (.file fault) w

end Run

/-- What the obligations of a run have in common. -/
structure Batch where
  model : Model
  settings : Settings
  backend : Backend

namespace Batch

/-- Writes an obligation to its file and submits it. One without a problem is proved. -/
def discharge (b : Batch) (o : Obligation) : Run (Verdict × Option Path) :=
  match o.problem with
  | none => pure (.proved, none)
  | some problem => do
    let path := Path.join b.settings.outputDir o.relativePath
    Run.changeFiles (FileTree.makeDirectories path)
    let text ←
      match problem.text with
      | .ok text => pure text
      | .error id => throw (.unresolved id)
    Run.writeFile path text
    Run.note .debug ("wrote " ++ path)
    fun w =>
      let (verdict, w) := b.backend path w
      .ok (verdict, some path) w

/-- An outcome, noted in the log. -/
def conclude (name : String) (verdict : Verdict) (artifact : Option Path) (w : World) :
    Outcome × World :=
  (⟨name, verdict, artifact⟩,
    w.note .info .batch ("verification result for " ++ name ++ ": " ++ verdict.label))

/-- The outcome of one obligation, whether it can be generated or not. -/
def check (b : Batch) (name : String) (obligation : Logged Obligation) (w : World) :
    Outcome × World :=
  let attempt : Run (Verdict × Option Path) := Run.logged obligation >>= b.discharge
  match attempt w with
  | .ok (verdict, artifact) w => conclude name verdict artifact w
  | .error e w =>
    conclude name .notProved none
      (w.note .error .batch ("cannot generate the obligation for " ++ name ++ ": " ++ e.message))

/-- The outcomes of several checks, each in the world that the one before it leaves. -/
def checkAll {α : Type} (step : α → World → List Outcome × World) :
    List α → World → List Outcome × World
  | [], w => ([], w)
  | a :: as, w =>
    let (first, w) := step a w
    let (rest, w) := checkAll step as w
    (first ++ rest, w)

def checkInit (b : Batch) (p : Profile) (w : World) : List Outcome × World :=
  let (outcome, w) := b.check (p.owner.name ++ ".<init>") p.initObligation w
  ([outcome], w)

def checkMethod (b : Batch) (p : Profile) (m : Method) (w : World) : List Outcome × World :=
  let (outcome, w) := b.check (p.owner.name ++ "." ++ m.sig.name) (p.methodObligation m) w
  ([outcome], w)

/-- The initializer and all methods of a class. -/
def checkClass (b : Batch) (p : Profile) (w : World) : List Outcome × World :=
  let (first, w) := b.checkInit p w
  let (rest, w) := checkAll (b.checkMethod p) p.owner.methods w
  (first ++ rest, w)

def checkMain (b : Batch) (w : World) : List Outcome × World :=
  let (outcome, w) := b.check "<main>" b.model.mainObligation w
  ([outcome], w)

/-- The Zeno freedom of a class. Methods that disturb the controlled state count as an obligation
that is not proved. -/
def checkZeno (b : Batch) (p : Profile) (w : World) : List Outcome × World :=
  let className := p.owner.name
  match Run.logged p.zenoCheck w with
  | .error e w =>
    let w := w.note .error .batch
      ("cannot generate Zeno obligations for " ++ className ++ ": " ++ e.message)
    let (outcome, w) := conclude (className ++ ".<zeno>") .notProved none w
    ([outcome], w)
  | .ok zeno w =>
    let (violated, w) :=
      if zeno.isViolated then
        let w := w.note .error .batch (className ++ " is not Zeno-free: " ++
          ", ".intercalate zeno.violations ++ " change the state outside of controllers")
        let (outcome, w) := conclude (className ++ ".<zeno>") .notProved none w
        ([outcome], w)
      else ([], w)
    let (rest, w) :=
      checkAll
        (fun o w =>
          let (outcome, w) := b.check o.qualifiedName (pure o) w
          ([outcome], w))
        zeno.obligations w
    (violated ++ rest, w)

/-- A class of a run over all classes. Discrete classes are skipped, and a class without a profile
counts as an obligation that is not proved. -/
def checkMember (b : Batch) (moduleName : String) (c : Class) (w : World) :
    List Outcome × World :=
  let qualified := moduleName ++ "." ++ c.name
  if c.isPhysical then
    match Run.logged (Profile.of b.model c b.settings.regions) w with
    | .ok p w => b.checkClass p w
    | .error e w =>
      let w := w.note .error .batch ("cannot analyze class " ++ qualified ++ ": " ++ e.message)
      let (outcome, w) := conclude qualified .notProved none w
      ([outcome], w)
  else ([], w.note .warn .batch ("skipping discrete class " ++ qualified))

/-- All classes of all user modules, then the main block. -/
def checkFull (b : Batch) (w : World) : List Outcome × World :=
  let (classes, w) :=
    checkAll (fun (mod : Module) w => checkAll (b.checkMember mod.name) mod.classes w)
      b.model.userModules w
  let (main, w) :=
    if b.model.mainBlock?.isSome then b.checkMain w
    else ([], w.note .warn .batch "model contains no main block")
  (classes ++ main, w)

/-- The profile of a class under the settings of the run. -/
def profile (b : Batch) (c : Class) : Run Profile :=
  Run.logged (Profile.of b.model c b.settings.regions)

/-- The report of checks that cannot fail. -/
def report (checks : World → List Outcome × World) : Run Report := fun w =>
  let (outcomes, w) := checks w
  .ok ⟨outcomes⟩ w

/-- A run. It fails only if its target cannot be found or its class has no profile. -/
def run (b : Batch) : Target → Run Report
  | .method path => do
    let (c, m) ← Run.lift (b.model.findMethod path)
    let p ← b.profile c
    report (b.checkMethod p m)
  | .initializer path => do
    let c ← Run.lift (b.model.findClass path)
    let p ← b.profile c
    report (b.checkInit p)
  | .wholeClass path => do
    let c ← Run.lift (b.model.findClass path)
    let p ← b.profile c
    report (b.checkClass p)
  | .zeno path => do
    let c ← Run.lift (b.model.findClass path)
    let p ← b.profile c
    report (b.checkZeno p)
  | .main =>
    if b.model.mainBlock?.isSome then report b.checkMain else throw .noMainBlock
  | .full => report b.checkFull

end Batch
end HybridObjects
