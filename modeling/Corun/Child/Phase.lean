namespace Corun.Child

inductive Phase where
  | notStarted
  | ready
  | running
  /-- A kill signal was sent and the child is not reaped yet. -/
  | killed
  | terminated
deriving DecidableEq

def Phase.name : Phase → String
  | notStarted => "NotStarted"
  | ready => "Ready"
  | running => "Running"
  | killed => "Killed"
  | terminated => "Terminated"

/-- What a kill is aimed at: the child alone, or its whole process group. -/
inductive KillMode where
  | single
  | tree
deriving DecidableEq

def KillMode.name : KillMode → String
  | single => "single"
  | tree => "tree"

end Corun.Child
