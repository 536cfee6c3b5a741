import Corun.Simulation.Kernel
import Corun.Simulation.Shell.Session

namespace Corun.Program
open Os Shell

structure Stream where
  source : Option Nat := none
  names : List String := []
  /-- Lines, or bytes, that may still be passed on. -/
  left : Option Nat := none
  countsLines : Bool := false
  held : List UInt8 := []
  status : Nat := 0

structure Guard where
  command : Pid
  deadline : Option Nat
  signal : Nat
  /-- How long after the signal the command is killed. -/
  patience : Option Nat := none
  coversGroup : Bool := true
  /-- Whether the status is that of the command in any case. -/
  isFaithful : Bool := false
  isOverdue : Bool := false

inductive Task where
  | exits (status : Nat)
  | writes (bytes : List UInt8) (status : Nat)
  /-- Sleeps until some time, or without an end. -/
  | sleeps (until? : Option Nat)
  | repeats (bytes : List UInt8)
  | streams (s : Stream)
  | guards (g : Guard)

inductive Image where
  | shell (s : Session)
  | task (t : Task)

abbrev World := Kernel Image

def Image.wakeTime? : Image → Option Nat
  | .task (.sleeps until?) => until?
  | .task (.guards g) => g.deadline
  | _ => none

namespace World

def exit (pid : Pid) (status : Nat) (k : World) : World := k.finish pid (.exited (status % 256))

def setImage (pid : Pid) (i : Image) (k : World) : World := k.update pid fun p => { p with image := i }

def setTask (pid : Pid) (t : Task) (k : World) : World := setImage pid (.task t) k

inductive Wrote where
  | rest (bytes : List UInt8)
  | waits
  | fails

/-- Writes on a descriptor. Whoever writes where nobody reads gets a signal. -/
def offer (pid : Pid) (number : Nat) (bytes : List UInt8) (k : World) : Wrote × World :=
  match Kernel.write pid number bytes k with
  | (.done rest, k) => (.rest rest, k)
  | (.waits, k) => (.waits, k)
  | (.fails e, k) => (.fails, if e = .brokenPipe then k.post Signal.pipe.number pid else k)

end World

namespace Stream

def takeIn (bytes : List UInt8) (s : Stream) : Stream :=
  match s.left with
  | none => { s with held := bytes }
  | some left =>
    if s.countsLines then
      let (taken, left) := lines left bytes
      { s with held := taken, left := some left }
    else
      let taken := bytes.take left
      { s with held := taken, left := some (left - taken.length) }
where
  lines : Nat → List UInt8 → List UInt8 × Nat
    | 0, _ => ([], 0)
    | left, [] => ([], left)
    | left + 1, b :: bytes =>
      let (taken, rest) := lines (if b = 10 then left else left + 1) bytes
      (b :: taken, rest)

def chunk : Nat := 65536

def openNext (pid : Pid) (s : Stream) (k : World) : World :=
  match s.names with
  | [] => World.exit pid s.status k
  | "-" :: names => World.setTask pid (.streams { s with names, source := some 0 }) k
  | name :: names =>
    match k.openPath pid name { reads := true } with
    | .ok (file, k) =>
      let number := ((k.proc? pid).map (Proc.freeNumber 3)).getD 3
      World.setTask pid (.streams { s with names, source := some number }) (k.point pid number file)
    | .error _ => World.setTask pid (.streams { s with names, status := 1 }) k

def readMore (pid : Pid) (number : Nat) (s : Stream) (k : World) : Option World :=
  let close (status : Nat) (k : World) : World :=
    World.setTask pid (.streams { s with source := none, status })
      (if number = 0 then k else k.close pid number)
  match k.read pid number chunk with
  | (.waits, _) => none
  | (.fails _, k) => some (close 1 k)
  | (.done [], k) => some (close s.status k)
  | (.done bytes, k) => some (World.setTask pid (.streams (s.takeIn bytes)) k)

def step (pid : Pid) (s : Stream) (k : World) : Option World :=
  if s.held ≠ [] then
    match World.offer pid 1 s.held k with
    | (.rest rest, k) => some (World.setTask pid (.streams { s with held := rest }) k)
    | (.waits, _) => none
    | (.fails, k) => some (World.exit pid 1 k)
  else if s.left = some 0 then some (World.exit pid s.status k)
  else match s.source with
    | some number => s.readMore pid number k
    | none => some (s.openNext pid k)

end Stream

namespace Guard

def timedOut : Nat := 124

def pass (pid : Pid) (n : Nat) (g : Guard) (k : World) : World :=
  let k := k.post n g.command
  if !g.coversGroup then k
  else
    let k := k.update pid fun p => { p with ignored := n :: p.ignored }
    let k := (k.send pid n 0).toOption.getD k
    if n = Signal.kill.number ∨ n = Signal.continued.number then k
    else (k.send pid Signal.continued.number 0).toOption.getD k

def conclude (pid : Pid) (status : WaitStatus) (g : Guard) (k : World) : World :=
  match status with
  | .exited n => World.exit pid (if g.isOverdue && !g.isFaithful then timedOut else n) k
  | .killed n =>
    if !g.isOverdue then k.finish pid (.killed n)
    else
      let isPlain := g.isFaithful || n = Signal.kill.number
      World.exit pid (if isPlain then 128 + n else timedOut) k

def step (p : Proc Image) (g : Guard) (k : World) : Option World :=
  match k.reap? p.pid g.command with
  | some (status, k) => some (g.conclude p.pid status k)
  | none =>
    match p.pending with
    | n :: _ => some (g.pass p.pid n (k.update p.pid fun p => { p with pending := p.pending.erase n }))
    | [] =>
      if g.deadline.any (· ≤ k.now) then
        let next := { g with
          isOverdue := true, deadline := g.patience.map (k.now + ·), patience := none
          signal := Signal.kill.number }
        some (g.pass p.pid g.signal (World.setTask p.pid (.guards next) k))
      else none

end Guard

def Task.step (p : Proc Image) (t : Task) (k : World) : Option World :=
  match t with
  | .exits status => some (World.exit p.pid status k)
  | .writes [] status => some (World.exit p.pid status k)
  | .writes bytes status =>
    match World.offer p.pid 1 bytes k with
    | (.rest rest, k) => some (World.setTask p.pid (.writes rest status) k)
    | (.waits, _) => none
    | (.fails, k) => some (World.exit p.pid 1 k)
  | .sleeps until? => if until?.any (· ≤ k.now) then some (World.exit p.pid 0 k) else none
  | .repeats bytes =>
    match World.offer p.pid 1 bytes k with
    | (.rest _, k) => some k
    | (.waits, _) => none
    | (.fails, k) => some (World.exit p.pid 1 k)
  | .streams s => s.step p.pid k
  | .guards g => g.step p k

end Corun.Program
