/-!
# HybridObjects.Log

A log of what the tool does. Every entry has a level and names the part of the tool that wrote it; a
session shows the entries up to its verbosity.
-/

namespace HybridObjects

inductive Level where
  | error
  | warn
  | info
  | debug
deriving DecidableEq

/-- How much is shown: nothing, or the entries up to a level; `trace` shows all. -/
inductive Verbosity where
  | off
  | error
  | warn
  | info
  | debug
  | trace
deriving DecidableEq

/-- The parts of the tool that write to the log. -/
inductive Component where
  | commandLine
  | session
  | batch
  | models
  | analysis
  | statements
  | contracts
  | progress
  | prover
deriving DecidableEq

structure LogEntry where
  level : Level
  component : Component
  text : String
deriving DecidableEq

abbrev Log := List LogEntry

def Level.label : Level → String
  | .error => "ERROR"
  | .warn => "WARN"
  | .info => "INFO"
  | .debug => "DEBUG"

def Verbosity.label : Verbosity → String
  | .off => "OFF"
  | .error => "ERROR"
  | .warn => "WARN"
  | .info => "INFO"
  | .debug => "DEBUG"
  | .trace => "TRACE"

/-- Whether entries of a level are shown. -/
def Verbosity.admits : Verbosity → Level → Bool
  | .off, _ => false
  | .error, l => l == .error
  | .warn, l => l == .error || l == .warn
  | .info, l => l != .debug
  | .debug, _ => true
  | .trace, _ => true

/-- The verbosity of a name, in letters of either case. -/
def Verbosity.ofLabel? (s : String) : Option Verbosity :=
  [Verbosity.off, .error, .warn, .info, .debug, .trace].find? fun v =>
    v.label.toList == s.toList.map Char.toUpper

/-- The name of a part of the tool in the entries that are shown. -/
def Component.label : Component → String
  | .commandLine => "chisel"
  | .session => "chisel::prove"
  | .batch => "chisel::driver"
  | .models => "hybrid_model"
  | .analysis => "hybrid_dl::analysis"
  | .statements => "hybrid_dl::translation::statement"
  | .contracts => "hybrid_dl::obligation::class"
  | .progress => "hybrid_dl::obligation::zeno"
  | .prover => "keymaera_backend::keymaera_wrapper"

/-- An entry as it is shown. Details that help to find faults name their part of the tool. -/
def LogEntry.line (r : LogEntry) : String :=
  match r.level with
  | .debug => "[DEBUG] (1) " ++ r.component.label ++ ": " ++ r.text
  | level => "[" ++ level.label ++ "] " ++ r.text

end HybridObjects
