import HybridObjects.Files.Tree
import HybridObjects.Log
import HybridObjects.Prover.Command
import HybridObjects.Prover.Settings
import HybridObjects.Prover.Verdict

/-!
# HybridObjects.Prover.Backend

Backends decide artifacts that have been written to files. The prover's backend runs it on the
file and reads the verdict off its output; any trouble on the way means `not proved`.
-/

namespace HybridObjects

/-- The files and the log that a run works on. -/
structure World where
  files : FileTree
  log : Log

def World.note (w : World) (level : Level) (component : Component) (text : String) : World :=
  { w with log := w.log ++ [⟨level, component, text⟩] }

/-- A backend answers the path of an artifact. -/
abbrev Backend := Path → World → Verdict × World

namespace Backend

/-- The backend of runs that only generate artifacts. -/
def none : Backend := fun _ w => (.notChecked, w)

/-- Writes the output of the prover beside the artifact, if it is to be kept. -/
def keepLog (s : ProverSettings) (artifact : Path) (output : CommandOutput) (w : World) :
    World :=
  if s.keepLogs then
    let file := s.logFile artifact
    let w := w.note .debug .prover ("writing prover log to " ++ file)
    match w.files.write file (output.stdout ++ output.stderr) with
    | .ok files => { w with files := files }
    | .error fault => w.note .warn .prover ("cannot write " ++ file ++ ": " ++ fault.message)
  else w

/-- The verdict on an artifact by what running the prover on it gave. -/
def judge (s : ProverSettings) (artifact : Path) (result : CommandResult) (w : World) :
    Verdict × World :=
  match result with
  | .timedOut =>
    (.notProved, w.note .warn .prover ("KeYmaera X exceeded hard timeout of " ++
      toString s.timeoutSecs ++ "s on " ++ artifact))
  | .refused fault =>
    (.notProved, w.note .warn .prover ("cannot execute KeYmaera X: " ++ fault.message))
  | .finished output =>
    let w := keepLog s artifact output w
    if output.status.isSuccess then (.ofOutput output.stdout, w)
    else
      (.notProved, w.note .warn .prover ("KeYmaera X exited with " ++ output.status.text ++
        " on " ++ artifact))

/-- The backend of the prover. -/
def prover (launcher : Launcher) (s : ProverSettings) : Backend := fun artifact w =>
  if s.isConfigured then
    let command := s.command artifact
    let w := w.note .info .prover ("running KeYmaera X on " ++ artifact)
    let w := w.note .debug .prover ("command line: " ++ " ".intercalate command)
    let limit := if s.timeoutSecs = 0 then Option.none else some (s.timeoutSecs * 1000)
    judge s artifact (launcher w.files command limit) w
  else
    (.notChecked,
      w.note .warn .prover ("no KeYmaera X jar configured, " ++ artifact ++ " is not checked"))

end Backend
end HybridObjects
