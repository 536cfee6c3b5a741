import Corun.Child.Gated
import Corun.Run.Position
import Corun.Supervisor.State
import Corun.Sync.Alarm
import Corun.Watch

namespace Corun

structure Run (σ : Type) where
  benchmarks : List Benchmark
  killMode : Child.KillMode
  hasLimit : Bool
  /-- What forking the child of a benchmark comes to. -/
  forks : Nat → Except Failure Os.Pid
  /-- What asking for the thread comes to that awaits the child of a benchmark. -/
  watchers : Nat → Except Failure Unit
  /-- What asking for the thread of the alarm comes to. -/
  timer : Except Failure Unit
  supervisor : Supervisor σ
  children : List Child.Gated
  watch : Watch
  alarm : Option Sync.Alarm
  expired : Bool
  position : Run.Position

namespace Run
open Os Child

variable {σ : Type} [Strategy σ]

def create (benchmarks : List Benchmark) (killMode : KillMode) (hasLimit : Bool)
    (forks : Nat → Except Failure Pid) (strategy : σ) (spawn : Except Failure Unit := .ok ())
    (watchers : Nat → Except Failure Unit := fun _ => .ok ())
    (timer : Except Failure Unit := .ok ()) : Run σ where
  benchmarks := benchmarks
  killMode := killMode
  hasLimit := hasLimit
  forks := forks
  watchers := watchers
  timer := timer
  supervisor := .create strategy spawn
  children := []
  watch := .empty
  alarm := none
  expired := false
  position := .entering

def manager : Nat := 0
def watcher : Nat := 1

inductive Entry where
  | log (line : LogLine)
  | child (k : Nat) (e : Gated.Entry)
  | supervisor (e : Supervisor.Entry)
  | returned (r : Result Outcome)

abbrev Change (σ : Type) := Option (Run σ × List Entry)

def goTo (p : Position) (r : Run σ) : Run σ := { r with position := p }

def info (text : String) : Entry := .log (.info text)

def warn (text : String) : Entry := .log (.warn text)

def supervise (a : Supervisor.Action) (r : Run σ) : Option (Run σ × List Supervisor.Entry) :=
  (r.supervisor.step a).map fun (supervisor, entries) => ({ r with supervisor }, entries)

def ofSupervisor (entries : List Supervisor.Entry) : List Entry := entries.map Entry.supervisor

def supervised? (entries : List Supervisor.Entry) : Option (Result Unit) :=
  entries.findSome? fun
    | .returned _ result => some result
    | _ => none

def withChild (k : Nat) (a : Gated.Action) (r : Run σ) : Option (Run σ × List Gated.Entry) := do
  let g ← r.children[k]?
  let (g, entries) ← g.step a
  return ({ r with children := r.children.set k g }, entries)

def ofChild (k : Nat) (entries : List Gated.Entry) : List Entry := entries.map (Entry.child k)

def entriesOf (k : Nat) (entries : List Entry) : List Gated.Entry :=
  entries.filterMap fun
    | .child i e => if i = k then some e else none
    | _ => none

def nextAction (call : Call) (g : Gated) : Gated.Action :=
  match g.pending? manager with
  | none => .call manager call
  | some ⟨_, .reading _⟩ => .receive manager Gated.reportSize
  | some _ => .advance manager

def drive (k : Nat) (call : Call) (r : Run σ) :
    Option (Run σ × List Entry × Option (Result Answer)) := do
  let g ← r.children[k]?
  let (r, entries) ← r.withChild k (nextAction call g)
  return (r, ofChild k entries, Gated.returned? manager entries)

def enter (r : Run σ) : Change σ :=
  if r.benchmarks = [] then some (r.goTo (.dismissing (.aborted (.ofCause .noBenchmarks))), [])
  else some (r.goTo .settingUp,
    [info s!"starting execution of {r.benchmarks.length} benchmarks with monitor {r.supervisor.name}"])

def callSupervisor (a : Supervisor.Action) (next : Result Unit → Run σ → Run σ) (r : Run σ) :
    Change σ :=
  (r.supervise a).map fun (r, entries) =>
    match supervised? entries with
    | none => (r, ofSupervisor entries)
    | some result => (next result r, ofSupervisor entries)

def setUp (r : Run σ) : Change σ :=
  r.callSupervisor (.call .setUp) fun result r => match result with
    | .ok () => r.goTo (.creating 0)
    | .error (.failed f) => r.goTo (.dismissing (.aborted f))
    | .error (.panicked p) => r.goTo (.dismissing (.unwound p))

def giveUp (stop : Stop) (r : Run σ) : Run σ :=
  match stop with
  | .failed f => r.goTo (.aborting f)
  | .panicked p => r.goTo (.draining (.unwound p))

/-- A child that could not be created is not kept. -/
def createChild (k : Nat) (r : Run σ) : Change σ :=
  match r.benchmarks[k]? with
  | none => some (r.goTo .preparing, [])
  | some b =>
    (Gated.step (.ofCommand b.path b.operands r.killMode) (.call manager (.create (r.forks k)))).map
      fun (g, entries) =>
        match Gated.returned? manager entries with
        | some (.error stop) =>
          (r.giveUp (match stop with
            | .failed f => .failed (f.within (.creating b.label))
            | stop => stop), ofChild k entries)
        | _ => ({ r with children := r.children ++ [g] }.goTo (.enlisting k), ofChild k entries)

def refusal? (entries : List Watch.Entry) : Option Failure :=
  entries.findSome? fun
    | .refused f => some f
    | _ => none

def enlist (k : Nat) (r : Run σ) : Option (Run σ × List Entry) := do
  let g ← r.children[k]?
  let pid ← g.pid?
  let (watch, entries) ← r.watch.step (.add pid (r.watchers k))
  match refusal? entries with
  | some f => return (r.goTo (.aborting f), [])
  | none =>
    let (r, awaiting) ← { r with watch }.withChild k (.call watcher .await)
    let (r, posting) ← r.supervise (.post (.created pid))
    return (r.goTo (.creating (k + 1)), ofChild k awaiting ++ ofSupervisor posting)

/-- Lets the supervisor prepare, which hands out all announcements first. -/
def prepare (r : Run σ) : Change σ :=
  r.callSupervisor (if r.supervisor.preparing then .deliver else .call .prepare) fun result r =>
    match result with
    | .ok () => r.goTo (.starting 0)
    | .error stop => r.giveUp stop

def startedLine (g : Gated) : Entry :=
  let pid := g.pid?.getD 0
  info (s!"started process {pid}: " ++ " ".intercalate g.args)

def startChild (k : Nat) (r : Run σ) : Change σ :=
  match r.children[k]?, r.benchmarks[k]? with
  | some g, some b =>
    (r.drive k .start).map fun (r, entries, result) =>
      match result with
      | none => (r, entries)
      | some (.ok _) => (r.goTo (.starting (k + 1)), entries ++ [startedLine g])
      | some (.error (.failed f)) => (r.goTo (.aborting (f.within (.starting b.label))), entries)
      | some (.error stop) => (r.giveUp stop, entries)
  | _, _ => some (r.goTo .launching, [])

def launch (r : Run σ) : Change σ :=
  r.callSupervisor (.call .start) fun result r => match result with
    | .ok () => r.goTo .arming
    | .error stop => r.giveUp stop

def arm (r : Run σ) : Change σ :=
  if r.hasLimit then
    match r.timer with
    | .ok () => some ({ r with alarm := some .armed }.goTo .polling, [])
    | .error f => some (r.goTo (.closing (.error (f.within .spawningTimer))), [])
  else some (r.goTo .polling, [])

def benchmarkOf? (pid : Pid) (r : Run σ) : Option Benchmark := do
  let k ← r.children.findIdx? fun g => g.pid? == some pid
  r.benchmarks[k]?

def poll (r : Run σ) : Change σ :=
  (r.watch.step .waitTimed).map fun (watch, entries) =>
    let r := { r with watch }
    match Watch.returned? entries with
    | some (.error f) => (r.goTo (.disarming (.error f)), [])
    | some (.ok (some (pid, t))) =>
      match r.benchmarkOf? pid with
      | some b =>
        (r.goTo (.disarming (.ok (.completed b pid t))),
          [info s!"benchmark {b.label} (pid {pid}) {t.text}"])
      | none => (r.goTo (.disarming (.error (.ofCause (.unknownEnded pid)))), [])
    | _ => (r.goTo .checkingLimit, [])

def checkLimit (r : Run σ) : Change σ :=
  if r.expired then some (r.goTo (.disarming (.ok .timedOut)), [info "time limit reached"])
  else some (r.goTo .checkingSupervisor, [])

def checkSupervisor (r : Run σ) : Change σ :=
  if r.supervisor.hasStopped then
    some (r.goTo (.disarming (.error (.ofCause (.stoppedEarly r.supervisor.name)))), [])
  else some (r.goTo .polling, [])

def disarmAction : Sync.Alarm.Owner → Sync.Alarm.Action
  | .keeping => .cancel
  | .ringing => .ring
  | _ => .join

def disarm (outcome : Except Failure Outcome) (r : Run σ) : Change σ :=
  match r.alarm with
  | none => some (r.goTo (.closing outcome), [])
  | some a =>
    if a.owner = .gone then some ({ r with alarm := none }.goTo (.closing outcome), [])
    else (a.step (disarmAction a.owner)).map fun (a, _) => ({ r with alarm := some a }, [])

def close (outcome : Except Failure Outcome) (r : Run σ) : Change σ :=
  (r.supervise .endRun).map fun (r, entries) => (r.goTo (.joining outcome), ofSupervisor entries)

def join (outcome : Except Failure Outcome) (r : Run σ) : Change σ :=
  r.callSupervisor (.call .join) fun joined r => r.goTo (.finalizing outcome joined)

def finalize (outcome : Except Failure Outcome) (joined : Result Unit) (r : Run σ) : Change σ :=
  r.callSupervisor (.call .finalize) fun finalized r => match finalized with
    | .error (.panicked p) => r.goTo (.draining (.unwound p))
    | finalized => r.goTo (.cleaning (.judged outcome joined finalized))

def abort (f : Failure) (r : Run σ) : Change σ :=
  (r.supervise .endRun).map fun (r, entries) =>
    (r.goTo (.cleaning (.aborted f)),
      warn s!"aborting execution: {f.message}" :: ofSupervisor entries)

def clean (e : Ending) (r : Run σ) : Change σ :=
  some (r.goTo (.killing 0 e), [info "cleaning up"])

/-- A child that cannot be killed does not keep the others from being killed. -/
def killChild (k : Nat) (e : Ending) (r : Run σ) : Change σ :=
  match r.children[k]? with
  | none => some (r.goTo (.draining e), [])
  | some g =>
    let pid := g.pid?.getD 0
    (r.drive k .kill).map fun (r, entries, result) =>
      match result with
      | none => (r, entries)
      | some (.error (.failed f)) =>
        (r.goTo (.killing (k + 1) e),
          entries ++ [warn s!"failed to kill process {pid}: {f.message}"])
      | some _ => (r.goTo (.killing (k + 1) e), entries)

def drain (e : Ending) (r : Run σ) : Change σ :=
  if r.watch.tasks.all fun t => t.2.isOver then
    some ({ r with watch := .empty }.goTo (.releasing 0 e),
      if e.isGood then [info "execution over"] else [])
  else none

def releaseCall? (g : Gated) : Option Call :=
  match g.pending? manager with
  | some p => some p.call
  | none =>
    match g.phase with
    | .ready | .running => some .kill
    | .killed => some .wait
    | _ => none

def isWait : Call → Bool
  | .wait => true
  | _ => false

def release (k : Nat) (e : Ending) (r : Run σ) : Change σ :=
  match r.children[k]? with
  | none => some (r.goTo (.dismissing e), [])
  | some g =>
    match releaseCall? g with
    | none => some (r.goTo (.releasing (k + 1) e), [])
    | some call =>
      (r.drive k call).map fun (r, entries, result) =>
        if result.isSome && isWait call then (r.goTo (.releasing (k + 1) e), entries)
        else (r, entries)

def conclude (e : Ending) (r : Run σ) : Run σ × List Entry :=
  let (gone, notes) := (r.supervisor.heldStrategy?.map Strategy.discard).getD (.ok (), [])
  let result := gone.bind fun _ => e.result
  (r.goTo (.returned result), ofSupervisor (notes.map Supervisor.Entry.note) ++ [.returned result])

/-- A worker that is still there is told to stop and waited for. -/
def dismiss (e : Ending) (r : Run σ) : Change σ :=
  match r.supervisor.worker with
  | .absent | .exited .. | .panicked => some (r.conclude e)
  | _ =>
    if r.supervisor.finished then none
    else (r.supervise .endRun).map fun (r, entries) => (r, ofSupervisor entries)

def manage (r : Run σ) : Change σ :=
  match r.position with
  | .entering => r.enter
  | .settingUp => r.setUp
  | .creating k => r.createChild k
  | .enlisting k => r.enlist k
  | .preparing => r.prepare
  | .starting k => r.startChild k
  | .launching => r.launch
  | .arming => r.arm
  | .polling => r.poll
  | .checkingLimit => r.checkLimit
  | .checkingSupervisor => r.checkSupervisor
  | .disarming outcome => r.disarm outcome
  | .closing outcome => r.close outcome
  | .joining outcome => r.join outcome
  | .finalizing outcome joined => r.finalize outcome joined
  | .aborting f => r.abort f
  | .cleaning e => r.clean e
  | .killing k e => r.killChild k e
  | .draining e => r.drain e
  | .releasing k e => r.release k e
  | .dismissing e => r.dismiss e
  | .returned _ => none

/-- What the manager has no part in. -/
def isBackground : Gated.Action → Bool
  | .advance thread => thread ≠ manager
  | .bell _ => true
  | .resume _ => true
  | .child _ => true
  | _ => false

def awaited : Result Answer → Result Termination
  | .ok (.ended t) => .ok t
  | .ok _ => Result.fail .noPid
  | .error stop => .error stop

def settle (k : Nat) (entries : List Gated.Entry) (r : Run σ) : Run σ :=
  match Gated.returned? watcher entries, (r.children[k]?).bind fun g => g.pid? with
  | some result, some pid =>
    match r.watch.step (.settle pid (awaited result)) with
    | some (watch, _) => { r with watch }
    | none => r
  | _, _ => r

def isAlarmThread : Sync.Alarm.Action → Bool
  | .work | .pass | .expire | .stir => true
  | _ => false

def hasReturned (r : Run σ) : Bool :=
  match r.position with
  | .returned _ => true
  | _ => false

inductive Action where
  | manage
  | child (k : Nat) (a : Gated.Action)
  | publish (pid : Pid)
  | work
  | alarm (a : Sync.Alarm.Action)

def step : Machine (Run σ) Action Entry
  | r, .manage => r.manage
  | r, .child k a =>
    if isBackground a then
      (r.withChild k a).map fun (r, entries) => (r.settle k entries, ofChild k entries)
    else none
  | r, .publish pid => (r.watch.step (.publish pid)).map fun (watch, _) => ({ r with watch }, [])
  | r, .work => (r.supervise .work).map fun (r, entries) => (r, ofSupervisor entries)
  | r, .alarm a =>
    if isAlarmThread a then do
      let (a, entries) ← (← r.alarm).step a
      return ({ r with alarm := some a, expired := r.expired || entries.contains .called }, [])
    else none

def run : Run σ → List Action → Option (Run σ × List Entry) := Machine.run step

end Run

end Corun
