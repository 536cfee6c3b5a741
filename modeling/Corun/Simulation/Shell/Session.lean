import Corun.Simulation.Kernel
import Corun.Simulation.Shell.Expansion

namespace Corun.Shell
open Os

structure Standing where
  /-- Whether its failure is looked at, so that the shell does not give up over it. -/
  isTested : Bool := false
  isLast : Bool := false

def Standing.inner (s : Standing) : Standing := { s with isLast := false }

def Standing.tested : Standing := { isTested := true }

structure Backup where
  /-- Descriptors, and where what they led to is kept. -/
  descriptors : List (Nat × Option Nat) := []
  entries : List (String × Option Variable) := []

def Backup.isEmpty (b : Backup) : Bool := b.descriptors.isEmpty && b.entries.isEmpty

structure Ready where
  fields : List String
  given : List (String × Word)
  backup : Backup
  status : Nat
  standing : Standing

inductive Pursuit where
  | simple (given : List (String × Word)) (words : List Word) (redirects : List Redirect)
      (s : Standing)
  /-- The same command later on, when the values of its assignments are due. -/
  | assigning (r : Ready)
  | redirected (c : Command) (redirects : List Redirect) (s : Standing)
  | nested (c : Command) (redirects : List Redirect) (s : Standing)
  | background (c : Command) (redirects : List Redirect)
  | iteration (name : String) (words : List Word) (body : Command) (s : Standing)
  | selection (w : Word) (clauses : List (List Word × Command)) (s : Standing)

inductive Leave where
  | exits (status : Nat)
  | breaks (loops : Nat)
  | continues (loops : Nat)
  | returns (status : Nat)

inductive Origin where
  | given
  | called
  | file
  | trap
deriving DecidableEq

inductive Frame where
  /-- The rest of a script, the status of the part that was run, and where the whole of it stands. -/
  | script (rest : List Char) (origin : Origin) (status : Nat) (s : Standing)
  | sequel (c : Command) (s : Standing)
  /-- Goes on only after a success, or only after a failure. -/
  | sequelIf (success : Bool) (c : Command) (s : Standing)
  | negation
  | branch (yes no : Command) (s : Standing)
  | loopCondition (wanted : Bool) (condition body : Command) (s : Standing) (status : Nat)
  | loopBody (wanted : Bool) (condition body : Command) (s : Standing)
  | each (name : String) (values : List String) (body : Command) (s : Standing)
  | judgment
  | restore (b : Backup)
  | call (operands : List String) (place : OptionPlace) (locals : List (String × Option Variable))
  | resume (status : Nat)
  | last (status : Nat)

inductive Focus where
  | slurping (bytes : List UInt8)
  | reading
  | running (c : Command) (s : Standing)
  /-- About to begin in the background, where interrupts are not heard. -/
  | withdrawing (c : Command) (s : Standing)
  | pursuing (p : Pursuit) (answers : List Answer)
  | listening (p : Pursuit) (answers : List Answer) (number : Nat) (pid : Pid) (bytes : List UInt8)
  | hearing (p : Pursuit) (answers : List Answer) (pid : Pid) (text : String)
  | writing (number : Nat) (bytes : List UInt8) (status : Nat)
  | awaiting (pids : List Pid)
  /-- Waits for jobs on behalf of a script, and knows the status of the last one so far, if that
  counts. -/
  | waiting (jobs : List (List Pid)) (status : Option Nat)
  /-- Reads a line into variables: what was read so far, and which of it had a backslash in front. -/
  | taking (names : List String) (isRaw : Bool) (bytes : List (UInt8 × Bool)) (isEscaped : Bool)
  | done (status : Nat)
  | leaving (l : Leave)

structure BackgroundJob where
  slot : Nat
  pids : List Pid
  isDone : Bool := false

structure Session where
  scope : Scope
  functions : List (String × Command) := []
  aliases : List (String × String) := []
  traps : List (Nat × String) := []
  /-- Signals that were ignored before the shell began, and stay so. -/
  deaf : List Nat := []
  jobs : List BackgroundJob := []
  /-- Loops that the shell was started in. -/
  outerLoops : Nat := 0
  /-- The working directory, as the shell got there. -/
  directory : String := "/"
  known : List (Pid × WaitStatus) := []
  umask : Nat := 18
  frames : List Frame := []
  focus : Focus := .reading

namespace Session

def statusOf : WaitStatus → Nat
  | .exited status => status
  | .killed signal => 128 + signal

def go (f : Focus) (s : Session) : Session := { s with focus := f }

def push (f : Frame) (s : Session) : Session := { s with frames := f :: s.frames }

def withStatus (status : Nat) (s : Session) : Session := { s with scope := { s.scope with status } }

def finish (status : Nat) (s : Session) : Session := (s.withStatus status).go (.done status)

def misuse : Nat := 2

def notFound : Nat := 127
def notExecutable : Nat := 126

def giveUp (status : Nat) (s : Session) : Session := (s.withStatus status).go (.leaving (.exits status))

def hasTraps (s : Session) : Bool := s.traps.any fun t => t.2 ≠ ""

def callDepth (s : Session) : Nat :=
  s.frames.countP fun
    | .call .. => true
    | _ => false

def loopsWithin (outer : Nat) : List Frame → Nat
  | [] => outer
  | .call .. :: _ => 0
  | .loopCondition .. :: fs | .loopBody .. :: fs | .each .. :: fs => loopsWithin outer fs + 1
  | _ :: fs => loopsWithin outer fs

def loops (s : Session) : Nat := loopsWithin s.outerLoops s.frames

def freeSlot (s : Session) : Nat → Nat → Nat
  | 0, slot => slot
  | fuel + 1, slot => if s.jobs.any fun j => j.slot = slot then freeSlot s fuel (slot + 1) else slot

/-- Whenever a process is started, the first job that is done loses its place, unless one before it is
free. -/
def makeRoom (s : Session) : Session :=
  let free := s.freeSlot s.jobs.length 1
  match (s.jobs.filter fun j => j.isDone && j.slot < free).map BackgroundJob.slot with
  | [] => s
  | slot :: slots =>
    let first := slots.foldl min slot
    { s with jobs := s.jobs.filter fun j => j.slot ≠ first }

def addJob (pids : List Pid) (s : Session) : Session :=
  let jobs := s.jobs ++ [{ slot := s.freeSlot s.jobs.length 1, pids }]
  finish 0 { s with jobs, scope := { s.scope with lastJob := pids.getLast? } }

def settleJob (pids : List Pid) (s : Session) : Session :=
  { s with jobs := s.jobs.map fun j => if j.pids = pids then { j with isDone := true } else j }

/-- A shell of its own for a command. It has no plans for signals, and knows nothing of the jobs. -/
def child (c : Command) (isTested : Bool) (s : Session) : Session :=
  { s with
    traps := s.traps.filter fun t => t.2 = ""
    jobs := [], known := [], outerLoops := s.loops
    frames := [], focus := .running c { isTested, isLast := true } }

def backgroundChild (c : Command) (s : Session) : Session :=
  (s.child c false).go (.withdrawing c { isLast := true })

end Session

end Corun.Shell
