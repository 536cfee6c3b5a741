namespace Corun.Counter

inductive EventKind where
  | hardware
  | raw
deriving DecidableEq

/-- The privilege levels left out of counting, as bits: one for user, two for kernel, four for
hypervisor. -/
structure Modifiers where
  bits : Nat
  bits_lt : bits < 8 := by decide
deriving DecidableEq

namespace Modifiers

def none : Modifiers := ⟨0, by decide⟩
def user : Modifiers := ⟨1, by decide⟩
def kernel : Modifiers := ⟨2, by decide⟩
def hypervisor : Modifiers := ⟨4, by decide⟩

/-- Other bits than the three known ones are refused. -/
def ofBits? (bits : Nat) : Option Modifiers :=
  if h : bits < 8 then some ⟨bits, h⟩ else Option.none

def union (a b : Modifiers) : Modifiers :=
  ⟨a.bits ||| b.bits, Nat.or_lt_two_pow (n := 3) a.bits_lt b.bits_lt⟩

def contains (a b : Modifiers) : Bool := a.bits &&& b.bits == b.bits

end Modifiers

structure Event where
  kind : EventKind
  code : Nat
  modifiers : Modifiers := .none
deriving DecidableEq

namespace Event

def describe (e : Event) : String :=
  let kind := match e.kind with
    | .hardware => "Hardware"
    | .raw => "Raw"
  "EventInfo \x7b kind: " ++ kind ++ ", code: " ++ toString e.code ++ ", modifiers: Modifiers("
    ++ toString e.modifiers.bits ++ ") \x7d"

def brief (e : Event) : String :=
  let kind := match e.kind with
    | .hardware => "hardware "
    | .raw => "raw "
  kind ++ toString e.code ++ " " ++ toString e.modifiers.bits

end Event

end Corun.Counter
