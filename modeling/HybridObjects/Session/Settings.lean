import HybridObjects.Dynamics.Profile
import HybridObjects.Prover.Settings
import HybridObjects.Session.Failure
import HybridObjects.Toml.Document

/-!
# HybridObjects.Session.Settings

The settings of a session. They have defaults, a file may set them, and the command line overrides
some of them.
-/

namespace HybridObjects

structure Settings where
  outputDir : Path
  verbosity : Verbosity
  regions : Strategy
  prover : ProverSettings

namespace Settings

def default : Settings :=
  ⟨"chisel-out", .info, .basic, .default⟩

def toJson (s : Settings) : Json :=
  .obj [("output_dir", .str s.outputDir), ("verbosity_level", .str s.verbosity.label),
    ("regions", .str s.regions.label), ("keymaera", s.prover.toJson)]

/-- A choice in a configuration: its name, or a table with an empty table under its name. -/
def choice? : Toml → Option String
  | .str s => some s
  | .table [(name, .table [])] => some name
  | _ => none

/-- The settings of a table, which has no other keys than the names of settings. -/
def ofEntries? (entries : List (String × Toml)) : Option Settings := do
  let entries ←
    Toml.asRecord? ["output_dir", "verbosity_level", "regions", "keymaera"] (.table entries)
  let outputDir ← Toml.entryOr entries "output_dir" default.outputDir Toml.asString?
  let verbosity ← Toml.entryOr entries "verbosity_level" default.verbosity fun v =>
    (choice? v).bind Verbosity.ofLabel?
  let regions ← Toml.entryOr entries "regions" default.regions fun v =>
    (choice? v).bind Strategy.ofLabel?
  let prover ← Toml.entryOr entries "keymaera" default.prover ProverSettings.ofToml?
  return ⟨outputDir, verbosity, regions, prover⟩

/-- The settings that a configuration text describes. -/
def ofText? (text : String) : Option Settings :=
  (Toml.read? text).bind ofEntries?

/-- The settings of a configuration file. -/
def ofFile (files : FileTree) (path : Path) : Except Failure Settings :=
  match files.read path with
  | .error fault => .error (.unreadableConfig path fault)
  | .ok text =>
    match ofText? text with
    | none => .error (.malformedConfig path)
    | some settings => .ok settings

end Settings

/-- What the command line says about settings. -/
structure Overrides where
  config : Option Path
  regions : Option Strategy
  out : Option Path
  jar : Option String
  timeout : Option Nat
  /-- How often more output was asked for. -/
  verbose : Nat

namespace Overrides

/-- The verbosity after asking for more. -/
def verbosity (count : Nat) (configured : Verbosity) : Verbosity :=
  match count with
  | 0 => configured
  | 1 => .debug
  | _ => .trace

/-- The settings of the configuration file, if there is one, as overridden. -/
def settings (o : Overrides) (files : FileTree) : Except Failure Settings := do
  let base ←
    match o.config with
    | some path => Settings.ofFile files path
    | none => pure .default
  let prover := { base.prover with
    jar := o.jar.getD base.prover.jar, timeoutSecs := o.timeout.getD base.prover.timeoutSecs }
  return ⟨o.out.getD base.outputDir, verbosity o.verbose base.verbosity,
    o.regions.getD base.regions, prover⟩

end Overrides
end HybridObjects
