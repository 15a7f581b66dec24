import HybridObjects.Files.Tree

/-!
# HybridObjects.Prover.Command

Results of running commands. A launcher answers a command line and a time limit, given the files
that are there.

* `Launcher`       — what answers command lines.
* `Host`           — what runs programs, to their end.
* `Host.launcher`  — runs programs on a host and gives up those that take too long.
-/

namespace HybridObjects

/-- How a command has ended: by itself, with a code, or by a signal. -/
inductive ExitStatus where
  | code (n : Nat)
  | signal (n : Nat)
deriving DecidableEq

namespace ExitStatus

/-- The signals that end a command which does not care for them. -/
def signals : List (Nat × String) :=
  [(1, "HUP"), (2, "INT"), (3, "QUIT"), (6, "ABRT"), (9, "KILL"), (10, "USR1"), (11, "SEGV"),
   (12, "USR2"), (13, "PIPE"), (14, "ALRM"), (15, "TERM")]

def isSuccess (s : ExitStatus) : Bool :=
  s == .code 0

def text : ExitStatus → String
  | .code n => "exit status: " ++ toString n
  | .signal n =>
    let name := ((signals.lookup n).map fun name => " (SIG" ++ name ++ ")").getD ""
    "signal: " ++ toString n ++ name

end ExitStatus

/-- What a command that has finished leaves. -/
structure CommandOutput where
  status : ExitStatus
  stdout : String
  stderr : String
deriving DecidableEq

/-- Why a command cannot be started. -/
inductive LaunchFault where
  | emptyCommand
  | nullInArgument
  | argumentTooLong
  | file (fault : FileFault)
deriving DecidableEq

def LaunchFault.message : LaunchFault → String
  | .emptyCommand => "empty command line"
  | .nullInArgument => "nul byte found in provided data"
  | .argumentTooLong => "Argument list too long (os error 7)"
  | .file fault => fault.message

inductive CommandResult where
  | finished (output : CommandOutput)
  | timedOut
  | refused (fault : LaunchFault)
deriving DecidableEq

/-- Runs a command line, for at most the given number of milliseconds if there is a limit. -/
abbrev Launcher := FileTree → List String → Option Nat → CommandResult

/-- A program that has been run: what it leaves, and the milliseconds until nothing can write to its
output any more. -/
structure ProgramRun where
  output : CommandOutput
  elapsed : Nat

/-- What runs programs: given the files that are there, it starts a program with some arguments and
waits for it, or says why it cannot be started. -/
abbrev Host := FileTree → String → List String → Except LaunchFault ProgramRun

/-- Runs the program that a command line names with the other words as its arguments. A program that
takes as long as the limit or longer is given up. -/
def Host.launcher (host : Host) : Launcher
  | _, [], _ => .refused .emptyCommand
  | files, name :: args, limit =>
    match host files name args with
    | .error fault => .refused fault
    | .ok run =>
      if limit.all fun limit => run.elapsed < limit then .finished run.output else .timedOut

end HybridObjects
