import Corun.Simulation.Program.Launch
import Corun.Simulation.Shell.Turn

namespace Corun.Program
open Os Shell

namespace World

def stepOf (pid : Pid) (k : World) : Option World :=
  match k.proc? pid with
  | none => none
  | some p =>
    if p.condition ≠ .running then none
    else match p.image with
      | .shell s => Turn.step p s k
      | .task t => t.step p k

/-- Takes at most so many steps of a process, and says whether all of them were taken. -/
def burst (pid : Pid) : Nat → World → World × Bool
  | 0, k => (k, true)
  | steps + 1, k =>
    match stepOf pid k with
    | some k => burst pid steps k
    | none => (k, false)

end World

structure Job where
  world : World
  leader : Pid
  isSettled : Bool := false
  busy : List (Pid × Nat) := []

namespace Job

/-- What a process does in a millisecond: so many bursts of so many steps. -/
def bursts : Nat := 40
def stepsPerBurst : Nat := 200

/-- A process that was busy for so long goes on like that, as far as anybody can tell. -/
def mostBusy : Nat := 100

def isLively (j : Job) (pid : Pid) : Bool :=
  ((j.busy.lookup pid).getD 0) < mostBusy
    || (j.world.proc? pid).any fun p => !p.pending.isEmpty

def round (pids : List Pid) (k : World) : World × List Pid :=
  pids.foldl (fun (k, eager) pid =>
    match stepsPerBurst, World.stepOf pid k with
    | _, none => (k, eager)
    | steps, some k =>
      let (k, isEager) := World.burst pid steps k
      (k, if isEager then eager ++ [pid] else eager)) (k, [])

def canStep (k : World) (pids : List Pid) : Bool := pids.any fun pid => (World.stepOf pid k).isSome

def pids (k : World) : List Pid := (k.procs.filter fun p => !p.hasEnded).map Proc.pid

/-- Lets the processes take turns until none can go on, or a millisecond is over. -/
def rounds (isLively : Pid → Bool) : Nat → World → World
  | 0, k => k
  | n + 1, k =>
    let lively := (pids k).filter isLively
    if canStep k lively then rounds isLively n (round lively k).1 else k

def settle (j : Job) : Job :=
  let k := rounds j.isLively bursts j.world
  let still := (pids k).filter fun pid => (World.stepOf pid k).isSome
  { j with world := k, isSettled := true, busy := still.map fun pid => (pid, (j.busy.lookup pid).getD 0 + 1) }

def isBusy (j : Job) : Bool := j.busy.any fun b => b.2 < mostBusy

/-- When something happens next, if nobody interferes. -/
def nextTime? (j : Job) : Option Nat :=
  if !j.isSettled then some j.world.now
  else
    let wakes := j.world.procs.filterMap fun p =>
      if p.condition = .running then p.image.wakeTime? else none
    (wakes ++ if j.isBusy then [j.world.now + 1] else []).min?

def setTime (time : Nat) (j : Job) : Job :=
  { j with world := { j.world with now := max time j.world.now } }

def next (j : Job) : Job :=
  match j.nextTime? with
  | some time => (j.setTime time).settle
  | none => j

def goOn (deadline : Nat) : Nat → Job → Job
  | 0, j => j
  | events + 1, j =>
    match j.nextTime? with
    | some time => if time ≤ deadline then goOn deadline events j.next else j
    | none => j

def status? (j : Job) : Option WaitStatus := (j.world.proc? j.leader).bind Proc.status?

def reaped (j : Job) : Job :=
  match j.world.reap? Kernel.owner j.leader with
  | some (_, world) => { j with world }
  | none => j

/-- Whether there are others in the group that the first process led. -/
def hasFollowers (j : Job) : Bool :=
  j.world.procs.any fun p => p.group == j.leader && p.pid != j.leader

def kill (wholeGroup : Bool) (j : Job) : Job :=
  let pids := if wholeGroup then (j.world.procs.filter fun p => p.group == j.leader).map Proc.pid
    else [j.leader]
  let world := pids.foldl (fun k pid => k.post Signal.kill.number pid) j.world
  { j with world, isSettled := false }

def output (j : Job) : List (Nat × List UInt8) := j.world.written.reverse

def environment : Environment := [("HOME", "/root"), ("PATH", Scope.usualPath)]

def worldFor (tree : FileTree) (leadsGroup : Bool) (pid : Pid) (now : Nat) : World :=
  let descriptor (number : Nat) : Descriptor := { number, file := number }
  let p : Proc Image :=
    { pid, parent := Kernel.owner, group := if leadsGroup then pid else Kernel.ownerGroup
      image := .task (.exits 0), descriptors := [descriptor 0, descriptor 1, descriptor 2]
      ignored := [Signal.pipe.number], directory := tree.working }
  { now, tree, procs := [p], nextPid := pid + 1, nextName := 3
    files := [(0, { target := .device .null, canRead := true }),
      (1, { target := .outlet false, canWrite := true }),
      (2, { target := .outlet true, canWrite := true })] }

def start (tree : FileTree) (leadsGroup : Bool) (pid : Pid) (path : String) (args : List String)
    (now : Nat) : Except Errno Job :=
  (World.execute pid path args environment (worldFor tree leadsGroup pid now)).map fun world =>
    { world, leader := pid }

end Job

end Corun.Program
