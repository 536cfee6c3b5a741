import Corun.Simulation.Number.Written

namespace Corun.Program.Duration
open Number.Written

def nanoseconds : Nat := 1000000000

def unit? : List Char → Option Nat
  | [] => some 1
  | ['s'] => some 1
  | ['m'] => some 60
  | ['h'] => some 3600
  | ['d'] => some 86400
  | _ => none

def toNanoseconds (s : Scaled) (unit : Nat) : Nat :=
  let (n, d) := s.ratio
  (n * unit * nanoseconds + d - 1) / d

/-- Nanoseconds that a text stands for; nothing inside for a time without an end. -/
def parse? (text : String) : Option (Option Nat) := do
  let (x, rest) ← signed? text.toList
  let unit ← unit? rest
  match x.size with
  | .none => none
  | .infinite => if x.isNegative then none else return none
  | .finite s => if x.isNegative ∧ s.digits ≠ 0 then none else return some (toNanoseconds s unit)

def total? (texts : List String) : Option (Option Nat) := do
  let parts ← texts.mapM parse?
  let sum : Option Nat := parts.foldl (fun sum part => do return (← sum) + (← part)) (some 0)
  return sum.map fun n => (n + 999999) / 1000000

end Corun.Program.Duration
