import Corun.Config.Basic
import Corun.Counter.Sampler
import Corun.Cpu.Hopper
import Corun.Os.Affinity
import Corun.Strategy.Script

namespace Corun.Strategy
open Os

inductive Any where
  /-- Ticks, and leaves everything else alone. -/
  | bare
  | simple (interval : Nat)
  | hopper (h : Cpu.Hopper)
  | idleSampler (s : Counter.Sampler Counter.Idle)
  | deniedSampler (s : Counter.Sampler Counter.Denied)
  | scriptedSampler (s : Counter.Sampler Counter.Script)
  | script (s : Script)

namespace Any

def name : Any → String
  | bare => "bare"
  | simple _ => "simple"
  | hopper h => Strategy.name h
  | idleSampler s => Strategy.name s
  | deniedSampler s => Strategy.name s
  | scriptedSampler s => Strategy.name s
  | script s => Strategy.name s

def tick : Any → Step Any Unit
  | hopper h => (Strategy.tick h).onto hopper
  | idleSampler s => (Strategy.tick s).onto idleSampler
  | deniedSampler s => (Strategy.tick s).onto deniedSampler
  | scriptedSampler s => (Strategy.tick s).onto scriptedSampler
  | script s => (Strategy.tick s).onto script
  | s => pass s

def handle (a : Announcement) : Any → Step Any Dispatch
  | bare => .done bare .ignored []
  | simple i => .done (simple i) .handled [.info s!"monitoring process {a.pid}"]
  | hopper h => (Strategy.handle a h).onto hopper
  | idleSampler s => (Strategy.handle a s).onto idleSampler
  | deniedSampler s => (Strategy.handle a s).onto deniedSampler
  | scriptedSampler s => (Strategy.handle a s).onto scriptedSampler
  | script s => (Strategy.handle a s).onto script

def discard : Any → Result Unit × List Note
  | idleSampler s => Strategy.discard s
  | deniedSampler s => Strategy.discard s
  | scriptedSampler s => Strategy.discard s
  | _ => (.ok (), [])

def interval : Any → Nat
  | bare => 0
  | simple i => i
  | hopper h => Strategy.interval h
  | idleSampler s => Strategy.interval s
  | deniedSampler s => Strategy.interval s
  | scriptedSampler s => Strategy.interval s
  | script s => Strategy.interval s

def hook (f : Script → Step Script Unit) : Any → Step Any Unit
  | script s => (f s).onto script
  | s => pass s

instance : Strategy Any where
  name := name
  setUp := hook Strategy.setUp
  prepare := hook Strategy.prepare
  tick := tick
  asides
    | script s => Strategy.asides s
    | _ => []
  handle := handle
  finalize := hook Strategy.finalize
  discard := discard
  interval := interval

end Any

def sampler [Counter.Source κ] (name backend : String) (counter : κ) (c : Config.Monitor) :
    Except Failure (Counter.Sampler κ) :=
  (Counter.Sampler.create name (c.backend.getD backend) fun _ => counter).map fun s =>
    { s with interval := c.samplingLength, mode := c.readMode, attach := c.attach }

def denied (c : Config.Monitor) : Except Failure Any :=
  (sampler "pmc-sampler[linux]" "linux" (⟨⟩ : Counter.Denied) c).map Any.deniedSampler

def idle (c : Config.Monitor) : Except Failure Any :=
  (sampler "pmc-sampler[dummy]" "dummy" (⟨⟩ : Counter.Idle) c).map Any.idleSampler

def hopperOn (scheduler : Scheduler) (c : Config.Monitor) : Except Failure Any := do
  let cpus ← match c.cpus with
    | some cpus => pure cpus
    | none => scheduler.affinity 0
  let h ← Cpu.Hopper.create c.samplingLength cpus fun _ => scheduler.bind
  return .hopper h

def catalogue (scheduler : Scheduler) : List (String × (Config.Monitor → Except Failure Any)) :=
  [("cpu-hopper", hopperOn scheduler), ("pmc-sampler", denied), ("pmc-sampler[dummy]", idle),
   ("pmc-sampler[linux]", denied), ("simple", fun c => .ok (.simple c.samplingLength))]

def keys (scheduler : Scheduler) : List String := (catalogue scheduler).map Prod.fst

def ofConfig (scheduler : Scheduler) (c : Config.Monitor) : Except Failure Any :=
  match (catalogue scheduler).lookup c.kind with
  | some create => create c
  | none => .error (.ofCause (.unknownMonitor c.kind))

end Corun.Strategy
