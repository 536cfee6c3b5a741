import Corun.Run.Preparation
import Corun.Run.State
import Corun.Simulation.Child
import Corun.Simulation.Host
import Corun.Simulation.Lossy

namespace Corun.Run
open Os Child Program

variable {σ : Type} [Strategy σ]

structure Clock (σ : Type) where
  run : Run σ
  tree : FileTree
  /-- Milliseconds. -/
  now : Nat
  limit : Nat
  jobs : List (Nat × Job) := []
  /-- When the tick ends that the worker is inside. -/
  tickEnd : Nat := 0
  pollEnd : Nat := 0
  deadline : Nat := 0

inductive Clock.Event where
  | step (a : Action)
  | job (k : Nat)

namespace Clock

def pollTime : Nat := 100

def isPolling (r : Run σ) : Bool :=
  match r.position with
  | .polling => true
  | _ => false

def isIdle (r : Run σ) : Bool := isPolling r && r.watch.published.isEmpty && !r.watch.tasks.isEmpty

def tickTime? (r : Run σ) : Option Nat :=
  match r.supervisor.worker with
  | .ticking s => some (Strategy.interval s)
  | _ => none

def publishing (r : Run σ) : List Action :=
  r.watch.tasks.filterMap fun (pid, task) => match task with
    | .publishing _ => some (.publish pid)
    | _ => none

def childActions (c : Clock σ) (k : Nat) (g : Gated) : List Gated.Action :=
  (((c.jobs.lookup k).bind g.jobMove?).map Gated.Action.child).toList
    ++ g.promptActions (g.refusal? c.tree)

def prompt (c : Clock σ) : List Action :=
  let r := c.run
  (if isIdle r then [] else [.manage])
    ++ (r.children.zipIdx.flatMap fun (g, k) => (c.childActions k g).map (Action.child k))
    ++ publishing r
    ++ (if (tickTime? r).isSome then [] else [.work])
    ++ [.alarm .work, .alarm .expire]

/-- When jobs go on, which nobody looks at once the run is over. -/
def jobEvents (c : Clock σ) : List (Nat × Event) :=
  if hasReturned c.run then []
  else c.jobs.filterMap fun (k, j) => j.nextTime?.map fun t => (t, .job k)

def events (c : Clock σ) : List (Nat × Event) :=
  let r := c.run
  c.jobEvents
    ++ (if (tickTime? r).isSome then [(c.tickEnd, .step .work)] else [])
    ++ (if r.alarm.any fun a => !a.passed then [(c.deadline, .step (.alarm .pass))] else [])
    ++ (if isIdle r then [(c.pollEnd, .step .manage)] else [])

/-- The earliest event; of several, the first. -/
def nextEvent? (c : Clock σ) : Option (Nat × Event) :=
  c.events.foldl (fun best e => match best with
    | none => some e
    | some b => if e.1 < b.1 then some e else some b) none

def jobsAfter (c : Clock σ) (r : Run σ) (entries : List Entry) : List (Nat × Job) :=
  r.children.zipIdx.filterMap fun (g, k) =>
    (g.jobAfter c.tree c.now (entriesOf k entries) (c.jobs.lookup k)).map fun j => (k, j)

def absorb (c : Clock σ) (r : Run σ) (entries : List Entry) : Clock σ :=
  let tickEnd := match tickTime? c.run, tickTime? r with
    | none, some t => c.now + t
    | _, _ => c.tickEnd
  { c with
    run := r
    jobs := if entries.isEmpty then c.jobs else c.jobsAfter r entries
    tickEnd
    pollEnd := if isPolling r && !isPolling c.run then c.now + pollTime else c.pollEnd
    deadline := if r.alarm.isSome && c.run.alarm.isNone then c.now + c.limit else c.deadline }

def take (a : Action) (c : Clock σ) : Option (Clock σ × List Entry) :=
  (step c.run a).map fun (r, entries) => (c.absorb r entries, entries)

def stepOnce (c : Clock σ) : Option (Clock σ × List Entry) :=
  match c.prompt.findSome? (c.take ·) with
  | some change => some change
  | none => do
    let (time, e) ← c.nextEvent?
    let c := { c with now := max c.now time }
    match e with
    | .step a => c.take a
    | .job k =>
      return ({ c with jobs := c.jobs.map fun (i, j) => (i, if i = k then j.next else j) }, [])

/-- Goes on until nothing happens any more, but at most so many steps. The entries seen are passed along,
the latest first. -/
def goOn : Nat → Clock σ → List Entry → Clock σ × List Entry
  | 0, c, seen => (c, seen.reverse)
  | steps + 1, c, seen =>
    match c.stepOnce with
    | none => (c, seen.reverse)
    | some (c, entries) => goOn steps c (entries.reverse ++ seen)

/-- More steps than any run takes that comes to an end in reasonable time. -/
def manySteps : Nat := 10000000

/-- More than happens in a job that outlives its run, and for how long it is looked at. -/
def manyEvents : Nat := 100000
def patience : Nat := 60000

def output (c : Clock σ) : String :=
  let writes := c.jobs.flatMap fun (_, j) => (j.goOn (c.now + patience) manyEvents).output
  Text.Lossy.text ((writes.mergeSort fun a b => a.1 ≤ b.1).flatMap Prod.snd)

end Clock

structure Account where
  /-- Nothing if the run never comes back. -/
  result : Option (Result Outcome)
  notes : List Note
  output : String

def noteOf? : Entry → Option Note
  | .log line => some (.log line)
  | .supervisor (.note n) => some n
  | _ => none

def result? (entries : List Entry) : Option (Result Outcome) :=
  entries.findSome? fun
    | .returned r => some r
    | _ => none

def pidOf (k : Nat) : Pid := firstFreePid + k

def forkOf (tree : FileTree) (benchmarks : List Benchmark) (killMode : KillMode) (k : Nat) :
    Except Failure Pid :=
  match benchmarks[k]? with
  | some b => (Gated.ofCommand b.path b.operands killMode).fork tree.contains (pidOf k)
  | none => .error (.ofCause .noBenchmarks)

def perform (tree : FileTree) (benchmarks : List Benchmark) (killMode : KillMode)
    (limit : Option Nat) (strategy : σ) : Account :=
  let run := create benchmarks killMode limit.isSome (forkOf tree benchmarks killMode) strategy
  let clock : Clock σ := { run, tree, now := 0, limit := limit.getD 0 }
  let (clock, entries) := clock.goOn Clock.manySteps []
  ⟨result? entries, entries.filterMap noteOf?, clock.output⟩

def performConfig (host : Host) (c : Config) : Except Failure Account :=
  (prepareConfig host.scheduler c).map fun (benchmarks, strategy) =>
    perform host.tree benchmarks c.manager.killMode c.manager.timeLimit strategy

end Corun.Run
