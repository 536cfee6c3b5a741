import Corun.Counter.Mode
import Corun.Failure
import Corun.Number.Binary64

namespace Corun.Counter

@[ext]
structure Count where
  value : Nat
  enabled : Nat
  running : Nat
deriving DecidableEq

namespace Count

def zero : Count := ⟨0, 0, 0⟩

/-- What was added since an earlier count; nothing where there is less than before. -/
def since (now before : Count) : Count :=
  ⟨now.value - before.value, now.enabled - before.enabled, now.running - before.running⟩

end Count

structure Sample where
  covered : Count
deriving DecidableEq

namespace Sample

def none : Sample := ⟨.zero⟩

section Extrapolation

variable [OfNat α 0] [Div α]

/-- Fraction of the enabled time during which the counter ran, in the arithmetic of `ofNat`. -/
def scalingIn (ofNat : Nat → α) (s : Sample) : α :=
  if s.covered.running = 0 then 0 else ofNat s.covered.running / ofNat s.covered.enabled

def valueIn (ofNat : Nat → α) (s : Sample) : α :=
  if s.covered.running = 0 then 0 else ofNat s.covered.value / s.scalingIn ofNat

end Extrapolation

def scaling (s : Sample) : Float := s.scalingIn Number.floatOfNat

def value (s : Sample) : Float := s.valueIn Number.floatOfNat

def isEnabled (s : Sample) : Bool := 0 < s.covered.running || 0 < s.covered.enabled

end Sample

/-- A counter's latest reading, and the reading that relative samples start from. -/
structure Gauge where
  current : Count
  baseline : Count
deriving DecidableEq

namespace Gauge

def fresh : Gauge := ⟨.zero, .zero⟩

def observe (g : Gauge) (reading : Count) : Gauge := { g with current := reading }

/-- A counter runs only while enabled, and counts only while it runs. Both are judged on the
cumulative reading. -/
def violation? (g : Gauge) : Option Cause :=
  if g.current.enabled < g.current.running then
    some (.counterOverrun g.current.running g.current.enabled)
  else if g.current.running = 0 && g.current.value ≠ g.baseline.value then
    some (.counterDrift g.baseline.value g.current.value)
  else none

def covered (mode : Mode) (g : Gauge) : Count :=
  match mode with
  | .relative => g.current.since g.baseline
  | .aggregated => g.current

/-- The latest reading as a sample. A relative sample moves the baseline up to it. -/
def scale (mode : Mode) (g : Gauge) : Except Cause Sample × Gauge :=
  match g.violation? with
  | some cause => (.error cause, g)
  | none =>
    let g' := match mode with
      | .relative => { g with baseline := g.current }
      | .aggregated => g
    (.ok ⟨g.covered mode⟩, g')

end Gauge

end Corun.Counter
