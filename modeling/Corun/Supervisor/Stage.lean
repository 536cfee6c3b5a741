namespace Corun.Supervisor

inductive Stage where
  | uninitialized
  | initialized
  | prepared
  | running
  | joined
  | finalized
deriving DecidableEq

def Stage.name : Stage → String
  | uninitialized => "Uninitialized"
  | initialized => "Initialized"
  | prepared => "Prepared"
  | running => "Running"
  | joined => "Joined"
  | finalized => "Finalized"

end Corun.Supervisor
