import Corun.Config.Parse
import Corun.Json.Decode
import Corun.Simulation.Clock
import Corun.Text.Plain

namespace Corun.CommandLine
open Os

inductive Flag where
  | help
  | verbose
  | listMonitors
deriving DecidableEq

def Flag.long : Flag → String
  | help => "--help"
  | verbose => "--verbose"
  | listMonitors => "--list-monitors"

def Flag.ofLong? (text : String) : Option Flag :=
  [Flag.help, .verbose, .listMonitors].find? fun f => f.long == text

def Flag.ofShort? : Char → Option Flag
  | 'h' => some help
  | 'v' => some verbose
  | _ => none

inductive Misuse where
  | unexpected (arg : String)
  | repeated (flag : Flag)
  | valueGiven (flag : Flag) (value : String)
  | emptyPath
deriving DecidableEq

def Misuse.message : Misuse → String
  | unexpected arg => s!"unexpected argument '{arg}' found"
  | repeated flag => s!"the argument '{flag.long}' cannot be used multiple times"
  | valueGiven flag value =>
    s!"unexpected value '{value}' for '{flag.long}' found; no more were expected"
  | emptyPath => "a value is required for '[CONFIG]' but none was supplied"

structure Args where
  flags : List Flag := []
  config : Option String := none
deriving DecidableEq

namespace Args

def has (flag : Flag) (a : Args) : Bool := a.flags.contains flag

/-- A path may not be empty. It is looked at when the next flag comes up, or else at the end. -/
def checkPath (a : Args) : Except Misuse Unit :=
  if a.config = some "" then .error .emptyPath else .ok ()

def addFlag (flag : Flag) (a : Args) : Except Misuse Args := do
  a.checkPath
  if a.has flag then throw (.repeated flag)
  return { a with flags := a.flags ++ [flag] }

def addOperand (text : String) (a : Args) : Except Misuse Args :=
  match a.config with
  | none => .ok { a with config := some text }
  | some _ => .error (.unexpected text)

def addLong (text : String) (a : Args) : Except Misuse Args :=
  match text.splitOn "=" with
  | [] => .error (.unexpected text)
  | name :: values =>
    match Flag.ofLong? name, values with
    | none, _ => .error (.unexpected name)
    | some flag, [] => a.addFlag flag
    | some flag, values => .error (.valueGiven flag ("=".intercalate values))

def addShort (letters : List Char) (a : Args) : Except Misuse Args :=
  letters.foldlM (fun a c => match Flag.ofShort? c with
    | some flag => a.addFlag flag
    | none => .error (.unexpected ("-" ++ c.toString))) a

def add (text : String) (a : Args) : Except Misuse Args :=
  match text.toList with
  | '-' :: '-' :: _ => a.addLong text
  | '-' :: c :: cs => a.addShort (c :: cs)
  | _ => a.addOperand text

def read (a : Args) : List String → Except Misuse Args
  | [] => a.checkPath.map fun _ => a
  | "--" :: operands => do
    let a ← operands.foldlM (fun a text => a.addOperand text) a
    a.checkPath
    return a
  | text :: more => do read (← a.add text) more

end Args

def help : String :=
  "Benchmark execution harness\n\nUsage: cohort [OPTIONS] [CONFIG]\n\nArguments:\n"
    ++ "  [CONFIG]  Configuration file\n\nOptions:\n"
    ++ "  -h, --help           Print help\n"
    ++ "  -v, --verbose        Log debug messages\n"
    ++ "      --list-monitors  List the available execution monitors\n"

structure Response where
  exit : Nat
  output : String := ""
  logs : List LogLine := []
  misuse : Option Misuse := none

/-- What is logged at a level. Logs and complaints go to a reader that is no terminal. -/
def Response.logged (level : Level) (r : Response) : List String :=
  (r.logs.filter fun l => l.level = level).map fun l => Text.plain l.text

def Response.complaint? (r : Response) : Option String :=
  r.misuse.map fun m => Text.plain ("error: " ++ m.message)

/-- The exit status of a program that fails, of one that is used wrongly, and of one that panics. -/
def failure : Nat := 1
def misused : Nat := 2
def panicked : Nat := 101

def closingLine : Run.Outcome → LogLine
  | .completed b pid t => .info s!"first to finish: {b.label} (pid {pid}), {t.text}"
  | .timedOut => .info "time limit reached before any benchmark finished"

def ofFailure (f : Failure) : Response := { exit := failure, logs := [.error f.message] }

def ofAccount (a : Run.Account) : Response :=
  let logs := Note.logs a.notes
  match a.result with
  | some (.ok outcome) => { exit := 0, output := a.output, logs := logs ++ [closingLine outcome] }
  | some (.error (.failed f)) =>
    { exit := failure, output := a.output, logs := logs ++ [.error f.message] }
  | _ => { exit := panicked, output := a.output, logs }

def runConfig (host : Host) (path : String) (content : Except FileFault String) : Response :=
  match Config.load Json.streaming path content with
  | .error f => ofFailure f
  | .ok c =>
    match Run.performConfig host c with
    | .error f => ofFailure (f.within .settingUp)
    | .ok account => ofAccount account

inductive Request where
  | listMonitors
  | help
  | run (path : String)
deriving DecidableEq

/-- Listing the monitors goes before help. -/
def request (a : Args) : Request :=
  if a.has .listMonitors then .listMonitors
  else match a.config with
    | some path => if a.has .help then .help else .run path
    | none => .help

def configPath? (args : List String) : Option String :=
  match (Args.read {} args).map request with
  | .ok (.run path) => some path
  | _ => none

def respond (host : Host) (content : String → Except FileFault String) (args : List String) :
    Response :=
  match Args.read {} args with
  | .error m => { exit := misused, misuse := some m }
  | .ok a =>
    match request a with
    | .listMonitors =>
      { exit := 0, output := String.join ((Strategy.keys host.scheduler).map (· ++ "\n")) }
    | .help => { exit := failure, output := help ++ "\n" }
    | .run path => runConfig host path (content path)

end Corun.CommandLine
