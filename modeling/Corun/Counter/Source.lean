import Corun.Counter.Sample
import Corun.Outcome

namespace Corun.Counter
open Os

class Source (κ : Type) where
  openOn : κ → Event → Pid → Bool → Result Unit × κ
  read : κ → Result Count × κ
  close : κ → Result Unit × κ

structure Script where
  reads : List (Result Count) := []
  opening : Outcome := .succeeds
  closing : Outcome := .succeeds

instance : Source Script where
  openOn s _ _ _ := (s.opening.result (), s)
  read s := match s.reads with
    | [] => (Result.fail (.scripted "script exhausted"), s)
    | r :: more => (r, { s with reads := more })
  close s := (s.closing.result (), s)

structure Idle where

instance : Source Idle where
  openOn s _ _ _ := (.ok (), s)
  read s := (.ok .zero, s)
  close s := (.ok (), s)

/-- A counter of a kernel that lets nobody count in the kernel, asked for processes that are not
there. It can never be opened. -/
structure Denied where

instance : Source Denied where
  openOn s event pid _ :=
    let errno :=
      if event.modifiers.contains .kernel then Errno.noProcess else Errno.accessDenied
    (.error (.failed ((Failure.ofCause (.system errno)).within (.openingEvent event pid))), s)
  read s := (Result.fail .notOpen, s)
  close s := (.ok (), s)

structure Generic where
  cycles : Nat
  instructions : Nat
deriving DecidableEq

namespace Generic

def events (g : Generic) : List Event :=
  [⟨.hardware, g.cycles, .none⟩, ⟨.hardware, g.instructions, .none⟩]

def table : List (String × Generic) := [("linux", ⟨0, 1⟩), ("dummy", ⟨0, 0⟩)]

def ofBackend (name : String) : Except Failure Generic :=
  match table.lookup name with
  | some g => .ok g
  | none => .error (.ofCause (.unknownBackend name))

end Generic

def Modifiers.ofBits (bits : Nat) : Except Failure Modifiers :=
  match ofBits? bits with
  | some m => .ok m
  | .none => .error (.ofCause (.invalidModifiers bits))

end Corun.Counter
