import Corun.Os.Pid

namespace Corun

inductive Announcement where
  /-- The process exists and is held at its start gate. -/
  | created (pid : Os.Pid)
deriving DecidableEq

namespace Announcement

def pid : Announcement → Os.Pid
  | created pid => pid

def kindName : Announcement → String
  | created _ => "ProcessCreated"

def text : Announcement → String
  | created pid => s!"process {pid} created"

end Announcement

end Corun
