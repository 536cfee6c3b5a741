import Corun.Announcement
import Corun.Note

namespace Corun

inductive Dispatch where
  | handled
  | ignored
deriving DecidableEq

def Dispatch.name : Dispatch → String
  | handled => "Handled"
  | ignored => "Ignored"

namespace Strategy

/-- What a tick does to the supervisor that runs it. -/
inductive Aside where
  | post (a : Announcement)
  | endRun
deriving DecidableEq

end Strategy

class Strategy (σ : Type) where
  name : σ → String
  setUp : σ → Step σ Unit
  /-- Called when all processes are created and none is released. -/
  prepare : σ → Step σ Unit
  tick : σ → Step σ Unit
  /-- What the next tick does to the supervisor, before it comes to an end. -/
  asides : σ → List Strategy.Aside
  handle : Announcement → σ → Step σ Dispatch
  finalize : σ → Step σ Unit
  discard : σ → Result Unit × List Note
  /-- Milliseconds that a tick sleeps before it works. -/
  interval : σ → Nat

namespace Strategy

def pass (s : σ) : Step σ Unit := .done s () []

def handledBy (s : Step σ Unit) : Step σ Dispatch :=
  ⟨s.result.map fun _ => Dispatch.handled, s.state, s.notes⟩

end Strategy

end Corun
