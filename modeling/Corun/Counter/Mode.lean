namespace Corun.Counter

inductive Mode where
  /-- The time since the last read. -/
  | relative
  /-- The time since the counter was opened. -/
  | aggregated
deriving DecidableEq

def Mode.name : Mode → String
  | relative => "relative"
  | aggregated => "aggregated"

end Corun.Counter
