import Corun.Os.Signal
import Corun.Os.WaitStatus

namespace Corun.Child
open Os

inductive Termination where
  | exited (status : Int)
  | signaled (signal : Signal)
deriving DecidableEq

namespace Termination

/-- How a process ended that was reaped. Some signals have no name, and then there is nothing to be said. -/
def ofStatus? : WaitStatus → Option Termination
  | .exited status => some (exited status)
  | .killed number => (Signal.ofNumber? number).map signaled

def isSuccess : Termination → Bool
  | exited status => status == 0
  | signaled _ => false

def text : Termination → String
  | exited status => "exited with status " ++ toString status
  | signaled signal => "killed by " ++ signal.name

end Termination

end Corun.Child
