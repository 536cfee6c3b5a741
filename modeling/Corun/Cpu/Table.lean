import Corun.Failure

namespace Corun.Cpu

structure Table where
  cpus : List Nat
  taken : List Bool
deriving DecidableEq

namespace Table

def ofCpus (cpus : List Nat) : Table := ⟨cpus, cpus.map fun _ => false⟩

def size (t : Table) : Nat := t.cpus.length

def occupied (t : Table) : Nat := t.taken.count true

def firstFree? (t : Table) : Option Nat := t.taken.findIdx? (! ·)

/-- Taking a slot twice is a mistake of the caller. -/
def allocate (slot : Nat) (t : Table) : Result Table :=
  match t.taken[slot]? with
  | none => Result.panics (.outOfBounds t.taken.length slot)
  | some true => Result.panics .slotTaken
  | some false => .ok { t with taken := t.taken.set slot true }

/-- A free slot may be released again. -/
def release (slot : Nat) (t : Table) : Result Table :=
  match t.taken[slot]? with
  | none => Result.panics (.outOfBounds t.taken.length slot)
  | some _ => .ok { t with taken := t.taken.set slot false }

def cpu (slot : Nat) (t : Table) : Result Nat :=
  match t.cpus[slot]? with
  | none => Result.panics (.outOfBounds t.cpus.length slot)
  | some c => .ok c

end Table

end Corun.Cpu
