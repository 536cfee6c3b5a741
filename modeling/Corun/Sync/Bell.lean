namespace Corun.Sync

structure Sleeper where
  thread : Nat
  timed : Bool
deriving DecidableEq

/-- A thread that is awake and has not run yet. -/
structure Riser where
  thread : Nat
  timed : Bool
  expired : Bool
deriving DecidableEq

structure Bell where
  /-- Rings that are due. -/
  due : Nat
  asleep : List Sleeper
  awake : List Riser
deriving DecidableEq

namespace Bell

def silent : Bell := ⟨0, [], []⟩

def announce (b : Bell) : Bell := { b with due := b.due + 1 }

def sleep (thread : Nat) (timed : Bool) (b : Bell) : Bell :=
  { b with asleep := b.asleep ++ [⟨thread, timed⟩] }

def wake (k : Nat) (expired : Bool) (b : Bell) : Option Bell :=
  (b.asleep[k]?).map fun s =>
    { b with asleep := b.asleep.eraseIdx k, awake := b.awake ++ [⟨s.thread, s.timed, expired⟩] }

def rise (k : Nat) (b : Bell) : Option (Riser × Bell) :=
  (b.awake[k]?).map fun r => (r, { b with awake := b.awake.eraseIdx k })

inductive Action where
  /-- Carries a ring out. It wakes the sleeper at a place, if anybody is asleep. -/
  | ring (k : Nat)
  | expire (k : Nat)
  /-- A sleeper wakes for no reason. -/
  | stir (k : Nat)
deriving DecidableEq

def step (b : Bell) : Action → Option Bell
  | .ring k =>
    if b.due = 0 then none
    else if b.asleep = [] then some { b with due := b.due - 1 }
    else wake k false { b with due := b.due - 1 }
  | .expire k =>
    if (b.asleep[k]?).any Sleeper.timed then wake k true b else none
  | .stir k => wake k false b

end Bell

end Corun.Sync
