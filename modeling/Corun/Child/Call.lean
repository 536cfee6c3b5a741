import Corun.Child.Termination
import Corun.Failure

namespace Corun.Child
open Os

inductive Call where
  /-- Forks the child, with what forking comes to. -/
  | create (fork : Except Failure Pid)
  | start
  | wait
  /-- Waits for the release first. -/
  | await
  | kill
  | pid
  | status

inductive Answer where
  | done
  | pid (pid : Pid)
  | ended (t : Termination)
deriving DecidableEq

inductive Stage where
  | notifying
  | releasing
  | closing
  | reading (bytes : List UInt8)
  | signaling
  | observing
  | reaping
  /-- About to look whether the child is released. -/
  | checking
  /-- About to wait at the latch. -/
  | approaching
  | asleep
  /-- Has found the child released and is about to wait for it. -/
  | past
  /-- Has found the child ended and is about to ask how. -/
  | asking
deriving DecidableEq

structure Pending where
  call : Call
  stage : Stage

end Corun.Child
