import Corun.Child.Call
import Corun.Child.Life
import Corun.Machine
import Corun.Sync.Latch

namespace Corun.Child
open Os Sync

inductive Gated.Entry where
  | returned (thread : Nat) (call : Call) (r : Result Answer)
  | released
  /-- The child tried to execute its command. -/
  | executed (refusal : Option Errno)
  /-- A signal to the child or to its group was tried. -/
  | signaled (mode : KillMode) (r : Except Errno Unit)
  | reaped (status : WaitStatus)

structure Gated where
  path : String
  operands : List String
  killMode : KillMode
  phase : Phase
  pid? : Option Pid
  hasGate : Bool
  hasReport : Bool
  termination? : Option Termination
  latch : Latch
  /-- The thread that holds the lock between steps. -/
  holder : Option Nat
  calls : List (Nat × Pending)
  gateBytes : List UInt8
  gateOpen : Bool
  reportBytes : List UInt8
  reportOpen : Bool
  life : Life
  hasFollowers : Bool := false

namespace Gated

def ofCommand (path : String) (operands : List String) (killMode : KillMode) : Gated where
  path := path
  operands := operands
  killMode := killMode
  phase := .notStarted
  pid? := none
  hasGate := false
  hasReport := false
  termination? := none
  latch := .create
  holder := none
  calls := []
  gateBytes := []
  gateOpen := false
  reportBytes := []
  reportOpen := false
  life := .absent

def ofArgs (args : List String) (killMode : KillMode) : Except Failure Gated :=
  match args with
  | [] => .error (.ofCause .emptyCommand)
  | path :: operands => .ok (ofCommand path operands killMode)

def args (g : Gated) : List String := g.path :: g.operands

def gate (g : Gated) : Channel :=
  ⟨g.gateBytes, g.life.gateReaders, g.gateOpen.toNat + g.life.gateWriters⟩

def report (g : Gated) : Channel :=
  ⟨g.reportBytes, g.reportOpen.toNat + g.life.reportReaders, g.life.reportWriters⟩

def pending? (thread : Nat) (g : Gated) : Option Pending := g.calls.lookup thread

def without (thread : Nat) (calls : List (Nat × Pending)) : List (Nat × Pending) :=
  calls.filter fun c => c.1 != thread

def place (thread : Nat) (call : Call) (stage : Stage) (g : Gated) : Gated :=
  { g with calls := without thread g.calls ++ [(thread, ⟨call, stage⟩)] }

def back (thread : Nat) (call : Call) (r : Result Answer) (g : Gated) : Gated × List Entry :=
  ({ g with
      calls := without thread g.calls
      holder := if g.holder = some thread then none else g.holder },
    [.returned thread call r])

def invalid (thread : Nat) (call : Call) (verb : String) (g : Gated) : Gated × List Entry :=
  g.back thread call (Result.fail (.invalidState verb g.phase))

def create (thread : Nat) (fork : Except Failure Pid) (g : Gated) : Gated × List Entry :=
  let call := Call.create fork
  if g.phase ≠ .notStarted then g.invalid thread call "create"
  else match fork with
    | .error f => g.back thread call (.error (.failed f))
    | .ok pid =>
      { g with
        phase := .ready, pid? := some pid, hasGate := true, hasReport := true
        gateBytes := [], gateOpen := true, reportBytes := [], reportOpen := true
        life := .forked }.back thread call (.ok (.pid pid))

/-- Takes the ends out of the record one after another. -/
def start (thread : Nat) (g : Gated) : Gated × List Entry :=
  if g.phase ≠ .ready then g.invalid thread .start "start"
  else if g.pid? = none then g.back thread .start (Result.fail .noPid)
  else if !g.hasGate then g.back thread .start (Result.fail .gateUsed)
  else if !g.hasReport then
    { g with hasGate := false, gateOpen := false }.back thread .start (Result.fail .statusPipeUsed)
  else
    ({ g with phase := .running, hasGate := false, hasReport := false, holder := some thread }.place
      thread .start .notifying, [])

/-- The child moves to killed even if the signal cannot be sent. Killing it again does nothing. -/
def kill (thread : Nat) (g : Gated) : Gated × List Entry :=
  match g.phase with
  | .ready | .running =>
    let g := { g with phase := .killed }
    if g.pid? = none then g.back thread .kill (Result.fail .noPid)
    else ({ g with holder := some thread }.place thread .kill .notifying, [])
  | .killed | .terminated => g.back thread .kill (.ok .done)
  | .notStarted => g.invalid thread .kill "kill"

def wait (thread : Nat) (call : Call) (g : Gated) : Gated × List Entry :=
  match g.phase with
  | .running | .killed =>
    if g.pid? = none then g.back thread call (Result.fail .noPid)
    else (g.place thread call .observing, [])
  | _ => g.invalid thread call "wait for"

def pid (thread : Nat) (g : Gated) : Gated × List Entry :=
  match g.phase with
  | .ready | .running | .killed =>
    match g.pid? with
    | some pid => g.back thread .pid (.ok (.pid pid))
    | none => g.back thread .pid (Result.fail .noPid)
  | _ => g.invalid thread .pid "query the pid of"

def status (thread : Nat) (call : Call) (g : Gated) : Gated × List Entry :=
  match g.phase, g.termination? with
  | .terminated, some t => g.back thread call (.ok (.ended t))
  | _, _ => g.invalid thread call "query the termination status of"

def check (thread : Nat) (g : Gated) : Gated × List Entry :=
  match g.phase with
  | .ready => (g.place thread .await .approaching, [])
  | .running | .killed => (g.place thread .await .past, [])
  | .terminated => (g.place thread .await .asking, [])
  | .notStarted => g.invalid thread .await "await"

/-- Reaps the child unless another thread has. -/
def reap (thread : Nat) (call : Call) (g : Gated) : Option (Gated × List Entry) :=
  match g.phase, g.termination? with
  | .terminated, some t => some (g.back thread call (.ok (.ended t)))
  | _, _ =>
    match g.life, g.pid? with
    | .zombie status, some pid =>
      let g := { g with life := .reaped status }
      let (g, entries) := match Termination.ofStatus? status with
        | some t =>
          { g with termination? := some t, phase := .terminated }.back thread call (.ok (.ended t))
        | none => g.back thread call (Result.fail (.waitFailed pid .invalidArgument))
      some (g, .reaped status :: entries)
    | .reaped _, some pid => some (g.back thread call (Result.fail (.waitFailed pid .noChild)))
    | _, _ => none

/-- Waits for the child to end, and leaves it unreaped. An end that cannot be told is a failure. -/
def observe (thread : Nat) (call : Call) (g : Gated) : Option (Gated × List Entry) :=
  match g.life, g.pid? with
  | .zombie status, pid =>
    match Termination.ofStatus? status with
    | some _ => some (g.place thread call .reaping, [])
    | none => some (g.back thread call (Result.fail (.waitFailed (pid.getD 0) .invalidArgument)))
  | .reaped _, some pid => some (g.back thread call (Result.fail (.waitFailed pid .noChild)))
  | _, _ => none

/-- A killed child has ended. Unless the system refuses it, a signal reaches also a child that has ended
and is unreaped, and a group as long as anybody is in it. -/
def send (refusal : Option Errno) (g : Gated) : Gated × Except Errno Unit :=
  match refusal, g.life with
  | some e, _ => (g, .error e)
  | none, .absent => (g, .error .noProcess)
  | none, .reaped _ => (g, if g.killMode = .tree ∧ g.hasFollowers then .ok () else .error .noProcess)
  | none, .zombie _ => (g, .ok ())
  | none, _ => ({ g with life := .zombie (.killed Signal.kill.number) }, .ok ())

def killContext (mode : KillMode) (pid : Pid) : Context :=
  match mode with
  | .single => .killing pid
  | .tree => .killingGroup pid

def signal (thread : Nat) (refusal : Option Errno) (g : Gated) : Gated × List Entry :=
  let (g, sent) := g.send refusal
  let r : Result Answer := match sent with
    | .ok () => .ok .done
    | .error e => Result.within (killContext g.killMode (g.pid?.getD 0)) (Result.fail (.system e))
  let (g, entries) := g.back thread .kill r
  (g, .signaled g.killMode sent :: entries)

/-- The system refuses the signal that a thread is about to send. -/
def refuse (thread : Nat) (e : Errno) (g : Gated) : Option (Gated × List Entry) :=
  match g.pending? thread with
  | some ⟨_, .signaling⟩ => some (g.signal thread (some e))
  | _ => none

def endStart (thread : Nat) (r : Result Answer) (g : Gated) : Gated × List Entry :=
  { g with gateOpen := false, reportOpen := false }.back thread .start r

def openGate (thread : Nat) (g : Gated) : Gated × List Entry :=
  match g.gate.write [1] with
  | .ok (_, gate) =>
    ({ g with gateBytes := gate.bytes }.place thread .start .closing, [.released])
  | .error e =>
    g.endStart thread (Result.within (.releasing (g.pid?.getD 0))
      (Result.within .writingPipe (Result.fail (.system e))))

def reportSize : Nat := 4

/-- Reads at most so many bytes of the report. When there will be no more, the command is executed. -/
def receive (thread count : Nat) (g : Gated) : Option (Gated × List Entry) :=
  match g.pending? thread with
  | some ⟨_, .reading bytes⟩ =>
    if g.report.blocks ∨ count = 0 then none
    else
      let (chunk, report) := g.report.read (min count (reportSize - bytes.length))
      let g := { g with reportBytes := report.bytes }
      let bytes := bytes ++ chunk
      if bytes.length = reportSize then
        some (g.endStart thread (Result.fail (.execFailed g.path (.ofBytes bytes))))
      else if chunk = [] then some (g.endStart thread (.ok .done))
      else some (g.place thread .start (.reading bytes), [])
  | _ => none

def afterLatch (entries : List Latch.Entry) (thread : Nat) (g : Gated) : Gated :=
  if entries = [] then g.place thread .await .asleep else g.place thread .await .checking

def advance (thread : Nat) (g : Gated) : Option (Gated × List Entry) :=
  match g.pending? thread with
  | none => none
  | some ⟨call, stage⟩ =>
    match stage with
    | .notifying =>
      let next := match call with
        | .start => Stage.releasing
        | _ => .signaling
      (g.latch.step .notify).map fun (latch, _) => ({ g with latch }.place thread call next, [])
    | .releasing => some (g.openGate thread)
    | .closing => some ({ g with gateOpen := false }.place thread call (.reading []), [])
    | .reading _ => none
    | .signaling => some (g.signal thread none)
    | .observing => g.observe thread call
    | .reaping => if g.holder = none then g.reap thread call else none
    | .checking => if g.holder = none then some (g.check thread) else none
    | .approaching =>
      (g.latch.step (.wait thread false)).map fun (latch, entries) =>
        ({ g with latch }.afterLatch entries thread, [])
    | .asleep => none
    | .past => if g.holder = none then some (g.wait thread call) else none
    | .asking => if g.holder = none then some (g.status thread call) else none

/-- A thread begins a call. It is inside of no other, and has to get the lock. -/
def begin (thread : Nat) (call : Call) (g : Gated) : Option (Gated × List Entry) :=
  if (g.pending? thread).isSome then none
  else match call with
    | .await => some (g.place thread .await .checking, [])
    | call =>
      if g.holder ≠ none then none
      else some <| match call with
        | .create fork => g.create thread fork
        | .start => g.start thread
        | .wait => g.wait thread .wait
        | .kill => g.kill thread
        | .pid => g.pid thread
        | .status => g.status thread .status
        | .await => g.check thread

def move (m : Move) (g : Gated) : Option (Gated × List Entry) :=
  match m, g.life with
  | .settle, .forked => some ({ g with life := .gated }, [])
  | .pass, .gated =>
    if g.gate.blocks then none
    else
      let (bytes, gate) := g.gate.read 1
      let life := if bytes = [] then .zombie (.exited Life.gateClosed) else .released
      some ({ g with gateBytes := gate.bytes, life }, [])
  | .execute none, .released => some ({ g with life := .running }, [.executed none])
  | .execute (some e), .released =>
    some ({ g with life := .refused e.recognized.toBytes }, [.executed (some e)])
  | .report, .refused unsent =>
    if unsent = [] then none
    else
      let reportBytes := match g.report.write unsent with
        | .ok (_, report) => report.bytes
        | .error _ => g.reportBytes
      some ({ g with reportBytes, life := .refused [] }, [])
  | .giveUp, .refused [] => some ({ g with life := .zombie (.exited Life.notExecuted) }, [])
  | .exit status, .running => some ({ g with life := .zombie (.exited status) }, [])
  | .die signal, life =>
    if life.isLive then some ({ g with life := .zombie (.killed signal) }, []) else none
  | .follow others, life =>
    if life = .absent then none else some ({ g with hasFollowers := others }, [])
  | _, _ => none

inductive Action where
  | call (thread : Nat) (call : Call)
  | advance (thread : Nat)
  | receive (thread count : Nat)
  | refuse (thread : Nat) (e : Errno)
  | bell (a : Bell.Action)
  | resume (k : Nat)
  | child (m : Move)
  /-- Somebody reaps the child behind the back of the record. -/
  | seize

/-- Threads that passed the latch look again. -/
def passed (entries : List Latch.Entry) (g : Gated) : Gated :=
  entries.foldl (fun g e => match e with
    | .passed thread => g.place thread .await .checking
    | .left _ => g) g

def step : Machine Gated Action Entry
  | g, .call thread call => g.begin thread call
  | g, .advance thread => g.advance thread
  | g, .receive thread count => g.receive thread count
  | g, .refuse thread e => g.refuse thread e
  | g, .bell a => (g.latch.step (.bell a)).map fun (latch, _) => ({ g with latch }, [])
  | g, .resume k =>
    (g.latch.step (.resume k)).map fun (latch, entries) => ({ g with latch }.passed entries, [])
  | g, .child m => g.move m
  | g, .seize =>
    match g.life with
    | .zombie status => some ({ g with life := .reaped status }, [.reaped status])
    | _ => none

def run : Gated → List Action → Option (Gated × List Entry) := Machine.run step

def leadsGroup (g : Gated) : Bool :=
  g.killMode = .tree && match g.life with
    | .absent | .reaped _ => false
    | _ => true

def Entry.returned? (thread : Nat) : Entry → Option (Result Answer)
  | .returned t _ r => if t = thread then some r else none
  | _ => none

def returned? (thread : Nat) (entries : List Entry) : Option (Result Answer) :=
  entries.findSome? (Entry.returned? thread)

/-- What giving the record up calls for. A child that is not reaped yet is killed and waited for. -/
def giveUpCalls (g : Gated) : List Call :=
  match g.phase with
  | .ready | .running => [.kill, .wait]
  | .killed => [.wait]
  | _ => []

end Gated

end Corun.Child
