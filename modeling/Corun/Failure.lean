import Corun.Child.Phase
import Corun.Counter.Event
import Corun.Json.Fault
import Corun.Os.Errno
import Corun.Os.Pid
import Corun.Supervisor.Stage

namespace Corun
open Os

inductive FileFault where
  | missing
  | notDirectory
  | directory
  | denied
  | notUnicode
  | nulInName
  | nameTooLong
  | noDevice
deriving DecidableEq

def FileFault.errno : FileFault → Os.Errno
  | notDirectory => .notDirectory
  | nameTooLong => .nameTooLong
  | directory => .isDirectory
  | noDevice => .noDevice
  | denied => .accessDenied
  | _ => .noEntry

def FileFault.message : FileFault → String
  | missing => "No such file or directory (os error 2)"
  | notDirectory => "Not a directory (os error 20)"
  | directory => "Is a directory (os error 21)"
  | denied => "Permission denied (os error 13)"
  | notUnicode => "stream did not contain valid UTF-8"
  | nulInName => "file name contained an unexpected NUL byte"
  | nameTooLong => "File name too long (os error 36)"
  | noDevice => "No such device or address (os error 6)"

inductive Cause where
  | notFound (path : String)
  | emptyCommand
  | invalidState (verb : String) (phase : Child.Phase)
  | execFailed (path : String) (errno : Errno)
  | duplicateTarget (pid : Pid)
  | noFreeCpu (managed : Nat)
  | unknownMonitor (name : String)
  | unknownBackend (name : String)
  | invalidModifiers (bits : Nat)
  | counterOverrun (running enabled : Nat)
  | counterDrift (previous value : Nat)
  | invalidConfig (fault : String)
  | json (fault : Json.Fault)
  | file (fault : FileFault)
  | system (errno : Errno)
  | waitFailed (pid : Pid) (errno : Errno)
  | nulInArgument (position : Nat)
  | noPid
  | gateUsed
  | statusPipeUsed
  | endClosed (reading : Bool)
  | notOpen
  | noBenchmarks
  | nothingMonitored
  | untracked (pid : Pid)
  | waiterPanicked (pid : Pid)
  | unknownEnded (pid : Pid)
  | stoppedEarly (monitor : String)
  | noStrategy (monitor : String)
  | notStarted (monitor : String)
  | monitorPanicked (monitor : String)
  | scripted (text : String)

namespace Cause

def isCounterInvariant : Cause → Bool
  | counterOverrun .. => true
  | counterDrift .. => true
  | _ => false

def message : Cause → String
  | notFound path => s!"executable {path} does not exist"
  | emptyCommand => "argument list is empty"
  | invalidState verb phase => s!"cannot {verb} a process in state {phase.name}"
  | execFailed path errno => s!"failed to execute {path}: {errno.message}"
  | duplicateTarget pid => s!"pid {pid} is already tracked"
  | noFreeCpu managed =>
    s!"no free CPU left ({managed} CPUs managed, one must stay unallocated)"
  | unknownMonitor name => "unknown execution monitor " ++ Text.quoted name
  | unknownBackend name => "unknown counter backend " ++ Text.quoted name
  | invalidModifiers bits => "invalid event modifiers 0x" ++ Text.hex bits
  | counterOverrun running enabled =>
    s!"counter ran for longer than it was enabled (running {running}, enabled {enabled})"
  | counterDrift previous value =>
    s!"counter advanced from {previous} to {value} without running"
  | invalidConfig fault => s!"invalid configuration: {fault}"
  | json fault => fault.message
  | file fault => fault.message
  | system errno => errno.message
  | waitFailed pid errno => s!"failed to wait for process {pid}: {errno.message}"
  | nulInArgument position =>
    s!"nul byte found in provided data at position: {position}"
  | noPid => "process has no pid"
  | gateUsed => "start gate already used"
  | statusPipeUsed => "exec status pipe already used"
  | endClosed reading =>
    if reading then "read end of the pipe is closed" else "write end of the pipe is closed"
  | notOpen => "counter is not open"
  | noBenchmarks => "no benchmarks to run"
  | nothingMonitored => "no process is being monitored"
  | untracked pid => s!"untracked process {pid} reported as ended"
  | waiterPanicked pid => s!"waiter of process {pid} panicked"
  | unknownEnded pid => s!"unknown process {pid} terminated"
  | stoppedEarly monitor => s!"execution monitor {monitor} stopped early"
  | noStrategy monitor => s!"monitor {monitor} has no strategy"
  | notStarted monitor => s!"monitor {monitor} was not started"
  | monitorPanicked monitor => s!"execution monitor {monitor} panicked"
  | scripted text => text

end Cause

inductive Context where
  | readingConfig (path : String)
  | loadingConfig (path : String)
  | validating (benchmark : String)
  | settingUp
  | openingEvent (event : Counter.Event) (pid : Pid)
  | openingCounters (pid : Pid)
  | inconsistentCounters (pid : Pid)
  | supervising (monitor : String)
  | spawning
  | spawningWaiter (pid : Pid)
  | spawningTimer
  | creating (benchmark : String)
  | starting (benchmark : String)
  | collecting (pid : Pid)
  | killing (pid : Pid)
  | killingGroup (pid : Pid)
  | releasing (pid : Pid)
  | arguments (path : String)
  | cpuOutOfRange (cpu : Nat)
  | binding (pid : Pid) (cpu : Nat)
  | queryingAffinity (pid : Pid)
  | writingPipe
  | scripted (text : String)

def Context.text : Context → String
  | readingConfig path => s!"failed to read configuration {path}"
  | loadingConfig path => s!"failed to load configuration {path}"
  | validating benchmark => "invalid benchmark " ++ Text.quoted benchmark
  | settingUp => "unable to set up execution"
  | openingEvent event pid => s!"failed to open {event.describe} on process {pid}"
  | openingCounters pid => s!"failed to open counters for process {pid}"
  | inconsistentCounters pid => s!"inconsistent counters for process {pid}"
  | supervising monitor => s!"execution monitor {monitor} failed"
  | spawning => "failed to spawn execution monitor thread"
  | spawningWaiter pid => s!"failed to spawn waiter for process {pid}"
  | spawningTimer => "failed to spawn timer thread"
  | creating benchmark => s!"failed to create benchmark {benchmark}"
  | starting benchmark => s!"failed to start benchmark {benchmark}"
  | collecting pid => s!"failed to wait for process {pid}"
  | killing pid => s!"failed to kill process {pid}"
  | killingGroup pid => s!"failed to kill process group {pid}"
  | releasing pid => s!"failed to release process {pid}"
  | arguments path => s!"argument of {path} contains a NUL byte"
  | cpuOutOfRange cpu => s!"cpu {cpu} is out of range"
  | binding pid cpu => s!"failed to bind process {pid} to cpu {cpu}"
  | queryingAffinity pid => s!"failed to query affinity of {pid}"
  | writingPipe => "failed to write to pipe"
  | scripted text => text

structure Failure where
  contexts : List Context
  cause : Cause

namespace Failure

def ofCause (cause : Cause) : Failure := ⟨[], cause⟩

def within (context : Context) (f : Failure) : Failure := ⟨context :: f.contexts, f.cause⟩

def message (f : Failure) : String :=
  ": ".intercalate (f.contexts.map Context.text ++ [f.cause.message])

end Failure

/-- A broken assertion, an index that is out of range, or a panic that a script asks for. -/
inductive Panic where
  | outOfStage (monitor : String) (target actual expected : Supervisor.Stage)
  | slotTaken
  | outOfBounds (length index : Nat)
  | scripted (text : String)

def Panic.message : Panic → String
  | outOfStage monitor target actual expected =>
    s!"assertion `left == right` failed: execution monitor {monitor} cannot move to {target.name}"
      ++ s!"\n  left: {actual.name}\n right: {expected.name}"
  | slotTaken => "assertion failed: !self.allocated[slot]"
  | outOfBounds length index =>
    s!"index out of bounds: the len is {length} but the index is {index}"
  | scripted text => text

inductive Stop where
  | failed (failure : Failure)
  | panicked (panic : Panic)

def Stop.message : Stop → String
  | failed failure => failure.message
  | panicked panic => panic.message

abbrev Result (α : Type) := Except Stop α

namespace Result

def fail (cause : Cause) : Result α := .error (.failed (.ofCause cause))

def panics (panic : Panic) : Result α := .error (.panicked panic)

def ofExcept : Except Failure α → Result α
  | .ok a => .ok a
  | .error f => .error (.failed f)

def within (context : Context) : Result α → Result α
  | .error (.failed f) => .error (.failed (f.within context))
  | r => r

end Result

end Corun
