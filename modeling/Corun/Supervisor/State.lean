import Corun.Machine
import Corun.Strategy.Basic

namespace Corun

namespace Supervisor

inductive Call where
  | setUp
  | prepare
  | start
  | join
  | finalize
deriving DecidableEq

namespace Call

def before : Call → Stage
  | setUp => .uninitialized
  | prepare => .initialized
  | start => .prepared
  | join => .running
  | finalize => .joined

def after : Call → Stage
  | setUp => .initialized
  | prepare => .prepared
  | start => .running
  | join => .joined
  | finalize => .finalized

end Call

inductive Hook where
  | setUp
  | prepare
  | tick
  | event (a : Announcement)
  | finalize
deriving DecidableEq

inductive Worker (σ : Type) where
  /-- Not started, or joined. -/
  | absent
  | checking (s : σ)
  | entering (s : σ)
  | ticking (s : σ)
  | draining (s : σ)
  /-- Returned, with the failure that ended the loop early if there was one. -/
  | exited (s : σ) (result : Except Failure Unit)
  | panicked

end Supervisor

inductive Supervisor.Entry where
  | hook (h : Supervisor.Hook)
  | note (n : Note)
  | returned (c : Supervisor.Call) (r : Result Unit)

structure Supervisor (σ : Type) where
  name : String
  stage : Supervisor.Stage
  preparing : Bool
  /-- Held here except while the worker has it. -/
  strategy : Option σ
  /-- What was announced and is not yet handed out, the oldest first. -/
  inbox : List Announcement
  finished : Bool
  /-- What asking the system for a worker thread comes to. -/
  spawn : Except Failure Unit
  worker : Supervisor.Worker σ

namespace Supervisor

variable {σ : Type} [Strategy σ]

def create (s : σ) (spawn : Except Failure Unit := .ok ()) : Supervisor σ where
  name := Strategy.name s
  stage := .uninitialized
  preparing := false
  strategy := some s
  inbox := []
  finished := false
  spawn := spawn
  worker := .absent

def hasStopped (v : Supervisor σ) : Bool :=
  match v.worker with
  | .exited .. => true
  | .panicked => true
  | _ => false

def heldStrategy? (v : Supervisor σ) : Option σ :=
  match v.worker, v.strategy with
  | .exited s _, _ => some s
  | _, s => s

def notes (s : Step τ α) : List Entry := s.notes.map Entry.note

def ignoredLine (a : Announcement) (s : σ) : LogLine :=
  .warn s!"{Strategy.name s}: no handler for {a.kindName}, dropping event"

def dispatch (a : Announcement) (s : σ) : Step σ Unit :=
  let handled := Strategy.handle a s
  match handled.result with
  | .ok .handled => ⟨.ok (), handled.state, handled.notes⟩
  | .ok .ignored =>
    ⟨.ok (), handled.state, handled.notes ++ [.log (ignoredLine a handled.state)]⟩
  | .error stop => ⟨.error stop, handled.state, handled.notes⟩

/-- Where the worker is after a hook. A panic unwinds it, which gives the strategy up. -/
def Worker.afterHook (next : σ → Worker σ) (hook : Step σ Unit) : Worker σ × List Entry :=
  match hook.result with
  | .ok () => (next hook.state, notes hook)
  | .error (.failed f) => (.exited hook.state (.error f), notes hook)
  | .error (.panicked _) =>
    (.panicked, notes hook ++ (Strategy.discard hook.state).2.map Entry.note)

def work (v : Supervisor σ) : Option (Supervisor σ × List Entry) :=
  match v.worker with
  | .checking s =>
    if v.finished then some ({ v with worker := .exited s (.ok ()) }, [])
    else some ({ v with worker := .entering s }, [])
  | .entering s => some ({ v with worker := .ticking s }, [.hook .tick])
  | .ticking s =>
    let (worker, entries) := Worker.afterHook .draining (Strategy.tick s)
    some ({ v with worker }, entries)
  | .draining s =>
    match v.inbox with
    | [] => some ({ v with worker := .checking s }, [])
    | a :: inbox =>
      let (worker, entries) := Worker.afterHook .draining (dispatch a s)
      some ({ v with inbox, worker }, .hook (.event a) :: entries)
  | _ => none

def deliver (v : Supervisor σ) : Option (Supervisor σ × List Entry) :=
  if v.preparing then
    match v.strategy with
    | none => some ({ v with preparing := false },
        [.returned .prepare (Result.fail (.noStrategy v.name))])
    | some s =>
      match v.inbox with
      | [] =>
        let prepared := Strategy.prepare s
        some ({ v with preparing := false, strategy := some prepared.state },
          .hook .prepare :: notes prepared ++ [.returned .prepare prepared.result])
      | a :: inbox =>
        let handled := dispatch a s
        let v := { v with inbox, strategy := some handled.state }
        match handled.result with
        | .ok () => some (v, .hook (.event a) :: notes handled)
        | .error stop => some ({ v with preparing := false },
            .hook (.event a) :: notes handled ++ [.returned .prepare (.error stop)])
  else none

def enter (c : Call) (v : Supervisor σ) : Option (Supervisor σ × List Entry) :=
  let advanced := { v with stage := c.after }
  match c with
  | .setUp =>
    match v.strategy with
    | none => some (advanced, [.returned .setUp (Result.fail (.noStrategy v.name))])
    | some s =>
      let hook := Strategy.setUp s
      some ({ advanced with strategy := some hook.state },
        .hook .setUp :: notes hook ++ [.returned .setUp hook.result])
  | .prepare => some ({ advanced with preparing := true }, [])
  | .start =>
    match v.strategy with
    | none => some (advanced, [.returned .start (Result.fail (.noStrategy v.name))])
    | some s =>
      match v.spawn with
      | .ok () =>
        some ({ advanced with strategy := none, worker := .checking s },
          [.returned .start (.ok ())])
      | .error f =>
        -- The strategy was to be the worker's, and goes with it.
        let (gone, notes) := Strategy.discard s
        some ({ advanced with strategy := none }, notes.map Entry.note ++
          [.returned .start (gone.bind fun _ => .error (.failed (f.within .spawning)))])
  | .join =>
    match v.worker with
    | .absent => some (advanced, [.returned .join (Result.fail (.notStarted v.name))])
    | .exited s r =>
      some ({ advanced with strategy := some s, worker := .absent },
        [.returned .join (Result.within (.supervising v.name) (Result.ofExcept r))])
    | .panicked =>
      some ({ advanced with worker := .absent },
        [.returned .join (Result.fail (.monitorPanicked v.name))])
    | _ => none
  | .finalize =>
    match v.strategy with
    | none => some (advanced, [.returned .finalize (.ok ())])
    | some s =>
      let hook := Strategy.finalize s
      some ({ advanced with strategy := some hook.state },
        .hook .finalize :: notes hook ++ [.returned .finalize hook.result])

/-- A call of the owner, who makes one at a time. A call that is not due panics. -/
def call (c : Call) (v : Supervisor σ) : Option (Supervisor σ × List Entry) :=
  if v.preparing then none
  else if v.stage = c.before then v.enter c
  else some (v, [.returned c (Result.panics (.outOfStage v.name c.after v.stage c.before))])

inductive Action where
  | post (a : Announcement)
  | endRun
  | call (c : Call)
  | deliver
  | work
deriving DecidableEq

def step : Machine (Supervisor σ) Action Entry
  | v, .post a => some ({ v with inbox := v.inbox ++ [a] }, [])
  | v, .endRun => some ({ v with finished := true }, [])
  | v, .call c => v.call c
  | v, .deliver => v.deliver
  | v, .work => v.work

def run : Supervisor σ → List Action → Option (Supervisor σ × List Entry) := Machine.run step

end Supervisor

end Corun
