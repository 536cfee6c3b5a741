import Corun.Os.Affinity
import Corun.Simulation.SmallTree

namespace Corun.Os

structure Host where
  tree : FileTree
  scheduler : Scheduler

def Host.small : Host := ⟨.small, .small⟩

end Corun.Os
