import Corun.Supervisor.State

namespace Corun.Supervisor

variable {σ : Type} [Strategy σ]

def attempt (a : Action) (v : Supervisor σ) : Supervisor σ × List Entry := Machine.attempt step a v

def attemptAll (actions : List Action) (v : Supervisor σ) : Supervisor σ × List Entry :=
  Machine.attemptAll step actions v

def returned? (entries : List Entry) : Option (Result Unit) :=
  entries.reverse.findSome? fun
    | .returned _ r => some r
    | _ => none

def notesOf (entries : List Entry) : List Note :=
  entries.filterMap fun
    | .note n => some n
    | _ => none

/-- A call, and for prepare the delivery of everything that was announced before. -/
def callActions (c : Call) (v : Supervisor σ) : List Action :=
  match c with
  | .prepare => .call .prepare :: List.replicate (v.inbox.length + 1) .deliver
  | c => [.call c]

def perform (c : Call) (v : Supervisor σ) : Supervisor σ × List Entry :=
  attemptAll (v.callActions c) v

def Aside.action : Strategy.Aside → Action
  | .post a => .post a
  | .endRun => .endRun

def asides (v : Supervisor σ) : List Action :=
  match v.worker with
  | .ticking s => (Strategy.asides s).map Aside.action
  | _ => []

def workToTick : Nat → Supervisor σ → Supervisor σ × List Entry
  | 0, v => (v, [])
  | fuel + 1, v =>
    match v.worker with
    | .checking _ | .entering _ | .draining _ =>
      let (v, entries) := attempt .work v
      let (v, rest) := workToTick fuel v
      (v, entries ++ rest)
    | _ => (v, [])

/-- A drain takes one step for each event and one to find none; then the flag is looked at and the
tick begun. -/
def toTick (v : Supervisor σ) : Supervisor σ × List Entry := workToTick (v.inbox.length + 3) v

def passTick (v : Supervisor σ) : Supervisor σ × List Entry :=
  match v.worker with
  | .ticking _ =>
    let (v, before) := attemptAll (v.asides ++ [.work]) v
    let (v, after) := toTick v
    (v, before ++ after)
  | _ => toTick v

def isTicking (v : Supervisor σ) : Bool :=
  match v.worker with
  | .ticking _ => true
  | _ => false

def isAbsent (v : Supervisor σ) : Bool :=
  match v.worker with
  | .absent => true
  | _ => false

def wouldJoin (v : Supervisor σ) : Bool :=
  !(v.stage = .running && v.isTicking && !v.finished)

def joinNow (v : Supervisor σ) : Supervisor σ × List Entry :=
  if v.stage = .running then
    let (v, before) := passTick v
    let (v, after) := perform .join v
    (v, before ++ after)
  else perform .join v

/-- Gives the supervisor up. A worker that is still there is told to stop and waited for. Giving the
strategy up may panic. -/
def dismiss (v : Supervisor σ) : Result (Supervisor σ × List Entry) :=
  let (v, entries) :=
    if v.isAbsent then (v, [])
    else passTick (attempt .endRun v).1
  let (r, notes) := (v.heldStrategy?.map Strategy.discard).getD (.ok (), [])
  r.map fun _ => (v, entries ++ notes.map Entry.note)

end Corun.Supervisor
