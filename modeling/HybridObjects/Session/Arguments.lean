import HybridObjects.Session.Settings
import HybridObjects.Session.Target

/-!
# HybridObjects.Session.Arguments

The command line. Arguments are files, flags, and values of flags:

* a flag has a long name (`--out`) and often a letter (`-o`);
* the letters of several flags may share one dash;
* a value stands in the next argument, after an equals sign, or right behind the letter of its
  flag;
* after `--` all arguments are files.

The arguments are read from left to right, and the first fault ends the reading. Asking for help or
for the version ends it too.
-/

namespace HybridObjects

/-- The flags of the command line. -/
inductive Flag where
  | method
  | initializer
  | wholeClass
  | zeno
  | main
  | full
  | regions
  | out
  | jar
  | timeout
  | config
  | verbose
  | help
  | version
deriving DecidableEq

namespace Flag

def all : List Flag :=
  [method, initializer, wholeClass, zeno, main, full, regions, out, jar, timeout, config, verbose,
    help, version]

/-- The long name, without its dashes. -/
def name : Flag → String
  | method => "method"
  | initializer => "init"
  | wholeClass => "class"
  | zeno => "zeno"
  | main => "main"
  | full => "full"
  | regions => "regions"
  | out => "out"
  | jar => "keymaera"
  | timeout => "timeout"
  | config => "config"
  | verbose => "verbose"
  | help => "help"
  | version => "version"

/-- The letter of a flag, if it has one. -/
def letter? : Flag → Option Char
  | method => some 'm'
  | initializer => some 'i'
  | wholeClass => some 'c'
  | zeno => some 'z'
  | out => some 'o'
  | timeout => some 't'
  | verbose => some 'v'
  | help => some 'h'
  | version => some 'V'
  | _ => none

/-- Whether a flag has a value. -/
def takesValue : Flag → Bool
  | main | full | verbose | help | version => false
  | _ => true

/-- Whether a flag chooses the target of the run. -/
def isTarget : Flag → Bool
  | method | initializer | wholeClass | zeno | main | full => true
  | _ => false

def ofName? (name : List Char) : Option Flag :=
  all.find? fun flag => flag.name.toList == name

def ofLetter? (letter : Char) : Option Flag :=
  all.find? fun flag => flag.letter? == some letter

end Flag

/-- The largest time limit. -/
def maxTimeout : Nat := 18446744073709551615

/-- The number that a text of decimal digits, with a plus sign in front or not, stands for. -/
def readTimeout? (text : String) : Option Nat :=
  let digits :=
    match text.toList with
    | '+' :: digits => digits
    | digits => digits
  let value := digits.foldl (fun n c => n * 10 + (c.toNat - '0'.toNat)) 0
  if !digits.isEmpty && digits.all Char.isDigit && value ≤ maxTimeout then some value else none

/-- Whether a flag can have a value. -/
def Flag.admits (flag : Flag) (value : String) : Bool :=
  match flag with
  | .regions => (Strategy.ofLabel? value).isSome
  | .out | .config => !value.isEmpty
  | .timeout => (readTimeout? value).isSome
  | _ => true

/-- What is wrong with a command line. -/
inductive UsageFault where
  | unknownFlag (arg : String)
  | noValue (flag : Flag)
  | needlessValue (flag : Flag)
  | badValue (flag : Flag) (value : String)
  | badFile
  | repeated (flag : Flag)
  | noFile
  | noTarget
  | severalTargets
deriving DecidableEq

def UsageFault.message : UsageFault → String
  | .unknownFlag arg => "unknown flag " ++ arg
  | .noValue flag => "a value is required for --" ++ flag.name
  | .needlessValue flag => "--" ++ flag.name ++ " has no value"
  | .badValue flag value => "invalid value '" ++ value ++ "' for --" ++ flag.name
  | .badFile => "a file has no name"
  | .repeated flag => "--" ++ flag.name ++ " cannot be used several times"
  | .noFile => "no model file given"
  | .noTarget => "no run target given"
  | .severalTargets => "more than one run target given"

/-- What ends the reading of the arguments early. -/
inductive Stop where
  | fault (f : UsageFault)
  | help
  | version
deriving DecidableEq

/-- The arguments read so far: the files, and the flags with their values, the latest first. A flag
without a value has the empty text. -/
structure Arguments where
  files : List Path
  flags : List (Flag × String)

namespace Arguments

def has (a : Arguments) (flag : Flag) : Bool :=
  a.flags.any fun given => given.1 == flag

def value? (a : Arguments) (flag : Flag) : Option String :=
  a.flags.lookup flag

def count (a : Arguments) (flag : Flag) : Nat :=
  (a.flags.filter fun given => given.1 == flag).length

/-- A flag with its value is added. Only `verbose` may be given several times. -/
def addFlag (a : Arguments) (flag : Flag) (value : String) : Except Stop Arguments :=
  if flag = .help then .error .help
  else if flag = .version then .error .version
  else if a.has flag && flag != .verbose then .error (.fault (.repeated flag))
  else if flag.admits value then .ok { a with flags := (flag, value) :: a.flags }
  else .error (.fault (.badValue flag value))

def addFile (a : Arguments) (file : Path) : Except Stop Arguments :=
  if file.isEmpty then .error (.fault .badFile) else .ok { a with files := file :: a.files }

/-- Reads the letters behind one dash. The result names the flag whose value is in the next
argument, if there is one. -/
def readLetters (a : Arguments) : List Char → Except Stop (Arguments × Option Flag)
  | [] => .ok (a, none)
  | c :: cs =>
    match Flag.ofLetter? c with
    | none => .error (.fault (.unknownFlag (String.ofList ['-', c])))
    | some flag =>
      if flag.takesValue then
        match cs with
        | [] => .ok (a, some flag)
        | '=' :: value => do return (← a.addFlag flag (String.ofList value), none)
        | value => do return (← a.addFlag flag (String.ofList value), none)
      else do
        let a ← a.addFlag flag ""
        a.readLetters cs

/-- Reads what stands behind two dashes: the name of a flag, and its value after an equals sign if
there is one. -/
def readName (a : Arguments) (text : List Char) : Except Stop (Arguments × Option Flag) :=
  let (name, rest) := text.span fun c => c != '='
  match Flag.ofName? name, rest with
  | none, _ => .error (.fault (.unknownFlag (String.ofList ('-' :: '-' :: text))))
  | some flag, [] =>
    if flag.takesValue then .ok (a, some flag)
    else do return (← a.addFlag flag "", none)
  | some flag, _ :: value =>
    if flag.takesValue then do return (← a.addFlag flag (String.ofList value), none)
    else .error (.fault (.needlessValue flag))

/-- Whether an argument is read as flags, so that it cannot be a value. -/
def isFlags (arg : String) : Bool :=
  match arg.toList with
  | '-' :: _ :: _ => true
  | _ => false

/-- Reads arguments that are all files. -/
def readFiles (a : Arguments) : List String → Except Stop Arguments
  | [] => .ok a
  | arg :: args => do
    let a ← a.addFile arg
    a.readFiles args

/-- Reads the arguments. `waiting` is the flag whose value comes next. -/
def read (a : Arguments) (waiting : Option Flag) : List String → Except Stop Arguments
  | [] =>
    match waiting with
    | some flag => .error (.fault (.noValue flag))
    | none => .ok a
  | arg :: args =>
    match waiting with
    | some flag =>
      if isFlags arg then .error (.fault (.noValue flag))
      else do
        let a ← a.addFlag flag arg
        a.read none args
    | none =>
      match arg.toList with
      | ['-', '-'] => a.readFiles args
      | '-' :: '-' :: text => do
        let (a, waiting) ← a.readName text
        a.read waiting args
      | '-' :: c :: cs => do
        let (a, waiting) ← a.readLetters (c :: cs)
        a.read waiting args
      | _ => do
        let a ← a.addFile arg
        a.read none args

def selection (a : Arguments) : Selection where
  method := a.value? .method
  initializer := a.value? .initializer
  wholeClass := a.value? .wholeClass
  zeno := a.value? .zeno
  main := a.has .main
  full := a.has .full

def overrides (a : Arguments) : Overrides where
  config := a.value? .config
  regions := (a.value? .regions).bind Strategy.ofLabel?
  out := a.value? .out
  jar := a.value? .jar
  timeout := (a.value? .timeout).bind readTimeout?
  verbose := a.count .verbose

/-- The targets among the flags. -/
def targets (a : Arguments) : List (Flag × String) :=
  a.flags.filter fun given => given.1.isTarget

/-- The arguments of a command line with at least one file and exactly one target. -/
def parse (args : List String) : Except Stop Arguments := do
  let a ← read ⟨[], []⟩ none args
  if a.targets.isEmpty then .error (.fault .noTarget)
  else if 1 < a.targets.length then .error (.fault .severalTargets)
  else if a.files.isEmpty then .error (.fault .noFile)
  else return { a with files := a.files.reverse }

end Arguments
end HybridObjects
