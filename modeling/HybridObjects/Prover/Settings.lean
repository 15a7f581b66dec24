import HybridObjects.Files.Path
import HybridObjects.Json.Decode
import HybridObjects.Json.Printer
import HybridObjects.Toml.Basic

/-!
# HybridObjects.Prover.Settings

How the prover is run: its settings, their JSON and TOML forms, and the command line for an
artifact.
-/

namespace HybridObjects

/-- Settings of the prover. Without a jar nothing is checked; a time limit of zero is none. -/
structure ProverSettings where
  javaExe : String
  jar : String
  /-- Flags in front of those that are always given. -/
  flags : List String
  timeoutSecs : Nat
  /-- Whether the output of the prover is kept beside the artifact. -/
  keepLogs : Bool
deriving DecidableEq

namespace ProverSettings

def default : ProverSettings :=
  ⟨"", "", [], 60, true⟩

def isConfigured (s : ProverSettings) : Bool :=
  !s.jar.isEmpty

/-- The command line by which an artifact is checked. -/
def command (s : ProverSettings) (artifact : Path) : List String :=
  let java := if s.javaExe.isEmpty then "java" else s.javaExe
  [java, "-jar", s.jar] ++ s.flags ++ ["-prove", artifact]

/-- The file that keeps the output for an artifact. -/
def logFile (_ : ProverSettings) (artifact : Path) : Path :=
  artifact ++ ".log"

/-- The names of the settings in configurations. -/
def keys : List String :=
  ["java_exe", "keymaera_jar", "keymaera_flags", "hard_timeout_secs", "keep_logs"]

def toJson (s : ProverSettings) : Json :=
  .obj [("java_exe", .str s.javaExe), ("keymaera_jar", .str s.jar),
    ("keymaera_flags", .arr (s.flags.map .str)),
    ("hard_timeout_secs", .num (toString s.timeoutSecs)), ("keep_logs", .bool s.keepLogs)]

/-- The settings of a record; settings that it leaves out have their defaults, and it has no other
members. -/
def ofJson (j : Json) : Except Json.Fault ProverSettings := do
  let r ← Json.asExactRecord keys j
  let javaExe ← r.withDefault "java_exe" default.javaExe Json.asString
  let jar ← r.withDefault "keymaera_jar" default.jar Json.asString
  let flags ← r.withDefault "keymaera_flags" default.flags (Json.asList Json.asString)
  let timeoutSecs ← r.withDefault "hard_timeout_secs" default.timeoutSecs Json.asWord
  let keepLogs ← r.withDefault "keep_logs" default.keepLogs Json.asBool
  return ⟨javaExe, jar, flags, timeoutSecs, keepLogs⟩

end ProverSettings

namespace Toml

def asString? : Toml → Option String
  | .str s => some s
  | _ => none

def asBool? : Toml → Option Bool
  | .bool b => some b
  | _ => none

def asNat? : Toml → Option Nat
  | .int n => if 0 ≤ n then some n.toNat else none
  | _ => none

def asStrings? : Toml → Option (List String)
  | .arr items => items.mapM asString?
  | _ => none

/-- The entry of a key read by `value`, or the default. -/
def entryOr {α : Type} (entries : List (String × Toml)) (key : String) (default : α)
    (value : Toml → Option α) : Option α :=
  match entries.lookup key with
  | some v => value v
  | none => some default

/-- The entries of a table that has no other keys than the given ones, or those of an array that
lists values in the order of the keys. -/
def asRecord? (keys : List String) : Toml → Option (List (String × Toml))
  | .table entries => if entries.all fun entry => keys.contains entry.1 then some entries else none
  | .arr items => some (keys.zip items)
  | _ => none

end Toml

/-- The settings of a table. -/
def ProverSettings.ofToml? (v : Toml) : Option ProverSettings := do
  let entries ← Toml.asRecord? keys v
  let javaExe ← Toml.entryOr entries "java_exe" default.javaExe Toml.asString?
  let jar ← Toml.entryOr entries "keymaera_jar" default.jar Toml.asString?
  let flags ← Toml.entryOr entries "keymaera_flags" default.flags Toml.asStrings?
  let timeoutSecs ← Toml.entryOr entries "hard_timeout_secs" default.timeoutSecs Toml.asNat?
  let keepLogs ← Toml.entryOr entries "keep_logs" default.keepLogs Toml.asBool?
  return ⟨javaExe, jar, flags, timeoutSecs, keepLogs⟩

end HybridObjects
