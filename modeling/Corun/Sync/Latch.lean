import Corun.Machine
import Corun.Sync.Bell

namespace Corun.Sync

structure Latch where
  isSet : Bool
  bell : Bell
deriving DecidableEq

namespace Latch

inductive Action where
  /-- Sets the latch. The ring is due. -/
  | notify
  /-- Passes, or sleeps until the latch is set or, if timed, the time is up. -/
  | wait (thread : Nat) (timed : Bool)
  | bell (a : Bell.Action)
  | resume (k : Nat)
deriving DecidableEq

inductive Entry where
  | passed (thread : Nat)
  | left (thread : Nat)
deriving DecidableEq

def create : Latch := ⟨false, .silent⟩

def pass (thread : Nat) (l : Latch) (otherwise : Latch × List Entry) : Latch × List Entry :=
  if l.isSet then ({ l with isSet := false }, [.passed thread]) else otherwise

def sleep (thread : Nat) (timed : Bool) (l : Latch) : Latch :=
  { l with bell := l.bell.sleep thread timed }

def step : Machine Latch Action Entry
  | l, .notify => some (⟨true, l.bell.announce⟩, [])
  | l, .wait thread timed => some (l.pass thread (l.sleep thread timed, []))
  | l, .bell a => (l.bell.step a).map fun bell => ({ l with bell }, [])
  | l, .resume k =>
    (l.bell.rise k).map fun (r, bell) =>
      let l := { l with bell }
      l.pass r.thread
        (if r.expired then (l, [.left r.thread]) else (l.sleep r.thread r.timed, []))

def run : Latch → List Action → Option (Latch × List Entry) := Machine.run step

def notifyActions : List Action := [.notify, .bell (.ring 0)]

def arrive (delay : Option Nat) : List Action := if delay.isSome then notifyActions else []

def waitActions (delay : Option Nat) : List Action := .wait 0 false :: arrive delay ++ [.resume 0]

def waitTimedActions (limit : Nat) (delay : Option Nat) : List Action :=
  if delay.any (· < limit) then .wait 0 true :: arrive delay ++ [.resume 0]
  else [.wait 0 true, .bell (.expire 0), .resume 0] ++ arrive delay

def waitBlocks (l : Latch) (delay : Option Nat) : Bool := !l.isSet && delay.isNone

def perform (l : Latch) (actions : List Action) : Bool × Latch :=
  let (l, entries) := Machine.attemptAll step actions l
  (entries.contains (.passed 0), l)

end Latch

end Corun.Sync
