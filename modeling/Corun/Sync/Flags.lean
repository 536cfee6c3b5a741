namespace Corun.Sync

structure Flags where
  /-- By flag, whether it is raised. -/
  raised : List Bool
  /-- By handle, which flag it is of. -/
  handles : List Nat
deriving DecidableEq

namespace Flags

def single : Flags := ⟨[false], [0]⟩

def flagOf (handle : Nat) (f : Flags) : Nat := (f.handles[handle]?).getD 0

def raise (handle : Nat) (f : Flags) : Flags :=
  { f with raised := f.raised.set (f.flagOf handle) true }

def share (handle : Nat) (f : Flags) : Flags := { f with handles := f.handles ++ [f.flagOf handle] }

def fresh (f : Flags) : Flags := ⟨f.raised ++ [false], f.handles ++ [f.raised.length]⟩

def isRaised (handle : Nat) (f : Flags) : Bool := (f.raised[f.flagOf handle]?).getD false

def views (f : Flags) : List Bool := f.handles.map fun k => (f.raised[k]?).getD false

end Flags

end Corun.Sync
