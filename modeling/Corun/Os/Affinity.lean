import Corun.Failure

namespace Corun.Os

/-- What the kernel knows: the CPUs it runs processes on, in ascending order. -/
structure Scheduler where
  cpus : List Nat

namespace Scheduler

def setSize : Nat := 1024

/-- Pid zero stands for the caller, and one is the first process. -/
def hasProcess (pid : Pid) : Bool := pid = 0 || pid = 1 || isChildPid pid

/-- Pins a process to one CPU. The CPU has to fit into a set, the process to be there, and the CPU to
be one that runs processes, in this order. -/
def bind (s : Scheduler) (pid : Pid) (cpu : Nat) : Except Failure Unit :=
  if setSize ≤ cpu then
    .error ((Failure.ofCause (.system .invalidArgument)).within (.cpuOutOfRange cpu))
  else if !hasProcess pid then
    .error ((Failure.ofCause (.system .noProcess)).within (.binding pid cpu))
  else if !s.cpus.contains cpu then
    .error ((Failure.ofCause (.system .invalidArgument)).within (.binding pid cpu))
  else .ok ()

def affinity (s : Scheduler) (pid : Pid) : Except Failure (List Nat) :=
  if hasProcess pid then .ok s.cpus
  else .error ((Failure.ofCause (.system .noProcess)).within (.queryingAffinity pid))

def pinnedTo (cpu : Nat) : Scheduler := ⟨[cpu]⟩

def isAscending : List Nat → Bool
  | a :: b :: more => a < b && isAscending (b :: more)
  | _ => true

def bindsEach (s : Scheduler) : Bool :=
  s.cpus.all fun cpu => match s.bind 0 cpu, (pinnedTo cpu).affinity 0 with
    | .ok (), .ok cpus => cpus = [cpu]
    | _, _ => false

def small : Scheduler := ⟨[0, 1, 2, 3]⟩

end Scheduler

end Corun.Os
