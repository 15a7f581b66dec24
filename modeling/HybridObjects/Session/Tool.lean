import HybridObjects.Session.Arguments
import HybridObjects.Session.Batch
import HybridObjects.Session.Loading

/-!
# HybridObjects.Session.Tool

The tool as a function of its arguments and the files it finds: it answers with an exit code, the
texts on its two outputs, and the files it leaves.
-/

namespace HybridObjects

/-- What a session of the tool leaves. -/
structure Exit where
  code : Nat
  stdout : String
  stderr : String
  files : FileTree

namespace Tool

def version : String := "0.1.0"

/-- The exit code of a command line with a fault. -/
def usageCode : Nat := 2

/-- How the tool is called. -/
def usage : String :=
  "Usage: chisel <--method <MODULE.CLASS.METHOD>|--init <MODULE.CLASS>|--class <MODULE.CLASS>|" ++
    "--zeno <MODULE.CLASS>|--main|--full> [--regions <basic|uniform|controlled>] [--out <DIR>] " ++
    "[--keymaera <JAR>] [--timeout <SECONDS>] [--config <FILE>] [--verbose] <FILES>...\n"

/-- The lines of the log that a verbosity shows on one of the outputs. Errors are on the second
one. -/
def shown (verbosity : Verbosity) (errors : Bool) (log : Log) : String :=
  let entries := log.filter fun entry =>
    verbosity.admits entry.level && (entry.level == .error) == errors
  "".intercalate (entries.map fun entry => entry.line ++ "\n")

/-- Loads the model, chooses the backend and runs the target. -/
def execute (launcher : Launcher) (paths : List Path) (target : Target) (settings : Settings) :
    SessionM Report := do
  SessionM.note .debug .commandLine ("Chisel CLI version: " ++ version)
  let model ← Model.loadAll paths
  let backend ←
    if settings.prover.isConfigured then pure (Backend.prover launcher settings.prover)
    else do
      SessionM.note .info .session "no KeYmaera X jar given, obligations are generated only"
      pure Backend.none
  SessionM.note .info .session ("writing obligations to " ++ settings.outputDir)
  fun w =>
    match Batch.run ⟨model, settings, backend⟩ target w with
    | .ok report w => .ok report w
    | .error e w => .error (.of e) w

/-- A session with a target and settings. -/
def session (launcher : Launcher) (files : FileTree) (paths : List Path) (target : Target)
    (settings : Settings) : Exit :=
  let finish (code : Nat) (text : String) (w : World) : Exit :=
    { code := code
      stdout := shown settings.verbosity false w.log ++ text ++ "\n"
      stderr := shown settings.verbosity true w.log
      files := w.files }
  match execute launcher paths target settings ⟨files, []⟩ with
  | .ok report w => finish (if report.isSuccess then 0 else 1) (report.text false) w
  | .error failure w => finish 1 failure.story w

/-- The target and the settings that arguments ask for. -/
def plan (files : FileTree) (a : Arguments) : Except Failure (Target × Settings) := do
  let target ← a.selection.target
  let settings ← a.overrides.settings files
  return (target, settings)

/-- The tool on a command line. -/
def run (launcher : Launcher) (files : FileTree) (args : List String) : Exit :=
  match Arguments.parse args with
  | .error .help => ⟨0, usage, "", files⟩
  | .error .version => ⟨0, "chisel " ++ version ++ "\n", "", files⟩
  | .error (.fault f) => ⟨usageCode, "", "error: " ++ f.message ++ "\n\n" ++ usage, files⟩
  | .ok a =>
    match plan files a with
    | .error failure => ⟨1, failure.story ++ "\n", "", files⟩
    | .ok (target, settings) => session launcher files a.files target settings

end Tool
end HybridObjects
