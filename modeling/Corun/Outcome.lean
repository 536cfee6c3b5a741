import Corun.Failure

namespace Corun

inductive Outcome where
  | succeeds
  | fails (text : String)
  | panics (text : String)
deriving DecidableEq

def Outcome.result : Outcome → α → Result α
  | succeeds, a => .ok a
  | fails text, _ => Result.fail (.scripted text)
  | panics text, _ => Result.panics (.scripted text)

end Corun
