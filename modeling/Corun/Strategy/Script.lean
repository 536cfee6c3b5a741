import Corun.Outcome
import Corun.Strategy.Basic

namespace Corun.Strategy
open Os

structure TickScript where
  asides : List Aside := []
  outcome : Outcome := .succeeds

structure HandlerScript where
  ignores : Bool := false
  outcome : Outcome := .succeeds

/-- What an event is called: the pid, or how many events came before it. -/
inductive Numbering where
  | byPid
  | byOrder

structure Script where
  name : String
  initializing : Outcome := .succeeds
  preparing : Outcome := .succeeds
  finalizing : Outcome := .succeeds
  ticks : List TickScript := []
  /-- By what the event is called. -/
  handlers : List (Int × HandlerScript) := []
  numbering : Numbering := .byPid
  recordsTicks : Bool := true
  interval : Nat := 0
  ticked : Nat := 0
  seen : Nat := 0

namespace Script

def nextTick (s : Script) : TickScript := (s.ticks[s.ticked]?).getD {}

def callOf (pid : Pid) (s : Script) : Int :=
  match s.numbering with
  | .byPid => pid
  | .byOrder => s.seen

def tick (s : Script) : Step Script Unit :=
  let number := s.ticked + 1
  ⟨s.nextTick.outcome.result (), { s with ticked := number },
    if s.recordsTicks then [.recorded s!"tick {number}"] else []⟩

def handle (a : Announcement) (s : Script) : Step Script Dispatch :=
  let number := s.callOf a.pid
  let script := (s.handlers.lookup number).getD {}
  ⟨script.outcome.result (if script.ignores then .ignored else .handled),
    { s with seen := s.seen + 1 }, [.recorded s!"created {number}"]⟩

instance : Strategy Script where
  name s := s.name
  setUp s := ⟨s.initializing.result (), s, [.recorded "initialize"]⟩
  prepare s := ⟨s.preparing.result (), s, [.recorded "prepare"]⟩
  tick := tick
  asides s := s.nextTick.asides
  handle := handle
  finalize s := ⟨s.finalizing.result (), s, [.recorded "finalize"]⟩
  discard _ := (.ok (), [])
  interval s := s.interval

end Script

end Corun.Strategy
