import Corun.Child.Termination
import Corun.Os.Channel

namespace Corun.Child
open Os

inductive Life where
  | absent
  /-- Has copies of all ends that its parent held. -/
  | forked
  | gated
  | released
  | running
  /-- The command could not be executed; part of the report may be unsent. -/
  | refused (unsent : List UInt8)
  /-- Ended, and nobody has taken note of it. -/
  | zombie (status : WaitStatus)
  | reaped (status : WaitStatus)
deriving DecidableEq

namespace Life

def isLive : Life → Bool
  | absent | zombie _ | reaped _ => false
  | _ => true

def isExecuted : Life → Bool
  | running => true
  | _ => false

/-- How many read ends of the gate the child holds. Executing a command closes all ends. -/
def gateReaders : Life → Nat
  | forked | gated | released | refused _ => 1
  | _ => 0

def gateWriters : Life → Nat
  | forked => 1
  | _ => 0

def reportReaders : Life → Nat
  | forked => 1
  | _ => 0

def reportWriters : Life → Nat
  | forked | gated | released | refused _ => 1
  | _ => 0

/-- The exit status of a child whose gate is closed before it is released. -/
def gateClosed : Nat := 126

/-- The exit status of a child that could not execute its command. -/
def notExecuted : Nat := 127

end Life

inductive Move where
  | settle
  | pass
  | execute (refusal : Option Errno)
  | report
  | giveUp
  | exit (status : Nat)
  | die (signal : Nat)
  /-- Others are in the group that it leads, or no more. -/
  | follow (others : Bool)
deriving DecidableEq

end Corun.Child
