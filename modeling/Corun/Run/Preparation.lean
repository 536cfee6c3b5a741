import Corun.Strategy.Catalogue

namespace Corun.Run

def prepareConfig (scheduler : Os.Scheduler) (c : Config) :
    Except Failure (List Benchmark × Strategy.Any) := do
  let strategy ← Strategy.ofConfig scheduler c.monitor
  let benchmarks ← c.manager.resolved
  return (benchmarks, strategy)

end Corun.Run
