import Corun.Child.Termination
import Corun.Failure
import Corun.Machine
import Corun.Os.PidMap

namespace Corun
open Os Child

inductive Watch.Task where
  | awaiting
  /-- The process has ended, or awaiting it has failed. -/
  | publishing (r : Except Failure Termination)
  | ended (r : Except Failure Termination)
  | panicked (p : Panic)

structure Watch where
  tasks : PidMap Watch.Task
  /-- Published and not yet taken, the oldest first. -/
  published : List Pid

namespace Watch

inductive Action where
  /-- The owner asks to track a process, with what asking for a thread for its task comes to. -/
  | add (pid : Pid) (thread : Except Failure Unit := .ok ())
  | settle (pid : Pid) (r : Result Termination)
  | publish (pid : Pid)
  | wait
  | waitTimed

inductive Entry where
  | added (pid : Pid)
  | refused (f : Failure)
  | returned (r : Except Failure (Option (Pid × Termination)))

def empty : Watch := ⟨[], []⟩

def size (w : Watch) : Nat := w.tasks.length

def contains (pid : Pid) (w : Watch) : Bool := PidMap.contains pid w.tasks

def failed (cause : Cause) : Entry := .returned (.error (.ofCause cause))

/-- Stops tracking a published process, and says how its task ended. -/
def collect (pid : Pid) (w : Watch) : Option (Watch × List Entry) :=
  let rest := { w with tasks := PidMap.erase pid w.tasks }
  match PidMap.find? pid w.tasks with
  | none => some (w, [failed (.untracked pid)])
  | some (.ended (.ok t)) => some (rest, [.returned (.ok (some (pid, t)))])
  | some (.ended (.error f)) => some (rest, [.returned (.error (f.within (.collecting pid)))])
  | some (.panicked _) => some (rest, [failed (.waiterPanicked pid)])
  | some _ => none

def take (w : Watch) (otherwise : Option (Watch × List Entry)) : Option (Watch × List Entry) :=
  if w.tasks = [] then some (w, [failed .nothingMonitored])
  else match w.published with
    | [] => otherwise
    | pid :: published => collect pid { w with published }

def step : Machine Watch Action Entry
  | w, .add pid thread =>
    if w.contains pid then some (w, [.refused (.ofCause (.duplicateTarget pid))])
    else match thread with
      | .ok () => some ({ w with tasks := PidMap.insert pid .awaiting w.tasks }, [.added pid])
      | .error f => some (w, [.refused (f.within (.spawningWaiter pid))])
  | w, .settle pid r =>
    match PidMap.find? pid w.tasks with
    | some .awaiting =>
      let task := match r with
        | .ok t => Task.publishing (.ok t)
        | .error (.failed f) => .publishing (.error f)
        | .error (.panicked p) => .panicked p
      some ({ w with tasks := PidMap.insert pid task w.tasks }, [])
    | _ => none
  | w, .publish pid =>
    match PidMap.find? pid w.tasks with
    | some (.publishing r) =>
      some (⟨PidMap.insert pid (.ended r) w.tasks, w.published ++ [pid]⟩, [])
    | _ => none
  | w, .wait => w.take none
  | w, .waitTimed => w.take (some (w, [.returned (.ok none)]))

def run : Watch → List Action → Option (Watch × List Entry) := Machine.run step

def returned? (entries : List Entry) : Option (Except Failure (Option (Pid × Termination))) :=
  entries.findSome? fun
    | .returned r => some r
    | _ => none

def attemptAll (actions : List Action) (w : Watch) : Watch × List Entry :=
  Machine.attemptAll step actions w

def add (pid : Pid) (w : Watch) : Except Failure Unit × Watch :=
  let (w, entries) := w.attemptAll [.add pid]
  (entries.foldl (fun r e => match e with
    | .refused f => .error f
    | _ => r) (.ok ()), w)

def finish (pid : Pid) (r : Result Termination) (w : Watch) : Watch :=
  (w.attemptAll [.settle pid r, .publish pid]).1

def finishAs (script : PidMap (Result Termination)) (pid : Pid) (w : Watch) : Watch :=
  match PidMap.find? pid script with
  | some r => w.finish pid r
  | none => w

def finishEach (script : PidMap (Result Termination)) (w : Watch) : Watch :=
  (PidMap.pids w.tasks).foldl (fun w pid => w.finishAs script pid) w

def poll (a : Action) (w : Watch) :
    Option (Except Failure (Option (Pid × Termination)) × Watch) := do
  let (w, entries) ← w.step a
  (returned? entries).map (·, w)

def drain (w : Watch) : List (Except Failure (Option (Pid × Termination))) × Watch :=
  let (w, entries) := w.attemptAll (List.replicate w.published.length .wait)
  (entries.filterMap fun
    | .returned r => some r
    | _ => none, w)

def Task.isOver : Task → Bool
  | awaiting => false
  | publishing _ => false
  | ended _ => true
  | panicked _ => true

end Watch

end Corun
