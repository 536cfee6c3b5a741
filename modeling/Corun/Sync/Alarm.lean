import Corun.Machine

namespace Corun.Sync

namespace Alarm

/-- Where the thread is. It holds no lock except within a step. -/
inductive Thread where
  | starting
  | asleep
  /-- Awake, and not back at its check; it may have been woken by the deadline. -/
  | awake (expired : Bool)
  | due
  | calling
  | exited
deriving DecidableEq

inductive Owner where
  | keeping
  | ringing
  | joining
  | gone
deriving DecidableEq

inductive Action where
  | work
  | pass
  | expire
  | stir
  | cancel
  | ring
  | join
deriving DecidableEq

inductive Entry where
  | called
  | finished
  | released
deriving DecidableEq

end Alarm

structure Alarm where
  canceled : Bool
  passed : Bool
  thread : Alarm.Thread
  owner : Alarm.Owner
deriving DecidableEq

namespace Alarm

def armed : Alarm := ⟨false, false, .starting, .keeping⟩

def check (a : Alarm) : Alarm := { a with thread := if a.canceled then .exited else .asleep }

def work (a : Alarm) : Option (Alarm × List Entry) :=
  match a.thread with
  | .starting => some (a.check, [])
  | .awake false => some (a.check, [])
  | .awake true => some ({ a with thread := if a.canceled then .exited else .due }, [])
  | .due => some ({ a with thread := .calling }, [.called])
  | .calling => some ({ a with thread := .exited }, [.finished])
  | .asleep | .exited => none

def step : Machine Alarm Action Entry
  | a, .work => a.work
  | a, .pass => some ({ a with passed := true }, [])
  | a, .expire =>
    if a.passed ∧ a.thread = .asleep then some ({ a with thread := .awake true }, []) else none
  | a, .stir => if a.thread = .asleep then some ({ a with thread := .awake false }, []) else none
  | a, .cancel =>
    if a.owner = .keeping then some ({ a with canceled := true, owner := .ringing }, []) else none
  | a, .ring =>
    if a.owner = .ringing then
      let thread := if a.thread = .asleep then .awake false else a.thread
      some ({ a with thread, owner := .joining }, [])
    else none
  | a, .join =>
    if a.owner = .joining ∧ a.thread = .exited then
      some ({ a with owner := .gone }, [.released])
    else none

def run : Alarm → List Action → Option (Alarm × List Entry) := Machine.run step

def settle : List Action := [.work]

def ripen : List Action := [.pass, .expire, .work, .work, .work]

def giveUp : List Action := [.cancel, .ring, .work, .join]

def callsBack (canceled : Bool) : Bool :=
  let actions := settle ++ (if canceled then giveUp else []) ++ ripen
  (Machine.attemptAll step actions armed).2.contains .called

structure Timer where
  milliseconds : Nat
  canceled : Bool

def order (timers : List Timer) : List Nat :=
  let byDeadline := timers.zipIdx.mergeSort fun a b => a.1.milliseconds ≤ b.1.milliseconds
  (byDeadline.filter fun t => callsBack t.1.canceled).map Prod.snd

end Alarm

end Corun.Sync
