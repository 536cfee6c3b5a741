import Corun.Benchmark
import Corun.Counter.Mode

namespace Corun.Config

structure BenchmarkEntry where
  name : String
  command : String
deriving DecidableEq

structure Manager where
  kind : String
  killMode : Child.KillMode
  /-- Milliseconds. -/
  timeLimit : Option Nat
  benchmarks : List BenchmarkEntry
deriving DecidableEq

structure Monitor where
  kind : String
  /-- Milliseconds. -/
  samplingLength : Nat
  /-- The counter backend, if it is not the one that the kind implies. -/
  backend : Option String
  readMode : Counter.Mode
  attach : Bool
  cpus : Option (List Nat)
deriving DecidableEq

def simpleManager : String := "simple"

def Monitor.default : Monitor :=
  { kind := "simple", samplingLength := 1000, backend := none, readMode := .relative,
    attach := true, cpus := none }

def Monitor.ofKind (kind : String) : Monitor := { Monitor.default with kind }

/-- Benchmarks get their places in the document as ids. -/
def benchmarksFrom (id : Nat) : List BenchmarkEntry → Except Failure (List Benchmark)
  | [] => .ok []
  | entry :: more =>
    match Benchmark.ofCommand id entry.name entry.command with
    | .error f => .error (f.within (.validating entry.name))
    | .ok b => (benchmarksFrom (id + 1) more).map (b :: ·)

def Manager.resolved (m : Manager) : Except Failure (List Benchmark) := benchmarksFrom 0 m.benchmarks

end Corun.Config

namespace Corun

structure Config where
  manager : Config.Manager
  monitor : Config.Monitor
deriving DecidableEq

namespace Config

inductive Violation where
  | unknownManager (kind : String)
  | noBenchmarks
  | zeroSamplingLength
  | zeroTimeLimit
deriving DecidableEq

def Violation.message : Violation → String
  | unknownManager kind => "unknown execution manager " ++ Text.quoted kind
  | noBenchmarks => "no benchmarks given"
  | zeroSamplingLength => "sampling_length must be positive"
  | zeroTimeLimit => "time_limit must be positive"

def violation? (c : Config) : Option Violation :=
  if c.manager.kind ≠ simpleManager then some (.unknownManager c.manager.kind)
  else if c.manager.benchmarks = [] then some .noBenchmarks
  else if c.monitor.samplingLength = 0 then some .zeroSamplingLength
  else if c.manager.timeLimit = some 0 then some .zeroTimeLimit
  else none

def validate (c : Config) : Except Failure Unit :=
  match c.violation? with
  | some v => .error (.ofCause (.invalidConfig v.message))
  | none => c.manager.resolved.map fun _ => ()

end Config

end Corun
