import Corun.Benchmark
import Corun.Child.Termination
import Corun.Log

namespace Corun.Run
open Os Child

inductive Outcome where
  | completed (benchmark : Benchmark) (pid : Pid) (t : Termination)
  | timedOut
deriving DecidableEq

/-- What a run is to give back once everything is cleaned up. -/
inductive Ending where
  | aborted (f : Failure)
  | judged (outcome : Except Failure Outcome) (joined finalized : Result Unit)
  | unwound (p : Panic)

/-- A failure of the supervisor goes before one of its last hook, and that before the outcome. -/
def Ending.result : Ending → Result Outcome
  | aborted f => .error (.failed f)
  | judged _ (.error stop) _ => .error stop
  | judged _ _ (.error stop) => .error stop
  | judged outcome _ _ => .ofExcept outcome
  | unwound p => .error (.panicked p)

def Ending.isGood : Ending → Bool
  | judged (.ok _) (.ok _) (.ok _) => true
  | _ => false

inductive Position where
  | entering
  | settingUp
  | creating (k : Nat)
  | enlisting (k : Nat)
  | preparing
  | starting (k : Nat)
  | launching
  | arming
  | polling
  | checkingLimit
  | checkingSupervisor
  | disarming (outcome : Except Failure Outcome)
  | closing (outcome : Except Failure Outcome)
  | joining (outcome : Except Failure Outcome)
  | finalizing (outcome : Except Failure Outcome) (joined : Result Unit)
  | aborting (f : Failure)
  | cleaning (e : Ending)
  | killing (k : Nat) (e : Ending)
  | draining (e : Ending)
  | releasing (k : Nat) (e : Ending)
  | dismissing (e : Ending)
  | returned (r : Result Outcome)

end Corun.Run
