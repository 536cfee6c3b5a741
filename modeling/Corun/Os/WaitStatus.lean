namespace Corun.Os

inductive WaitStatus where
  | exited (status : Nat)
  /-- By a signal, which need not be one that has a name. -/
  | killed (signal : Nat)
deriving DecidableEq

end Corun.Os
