import Corun.Os.Pid

namespace Corun.Os

abbrev PidMap (α : Type) := List (Pid × α)

namespace PidMap

def find? (pid : Pid) (m : PidMap α) : Option α := List.lookup pid m

def contains (pid : Pid) (m : PidMap α) : Bool := m.any fun e => e.1 == pid

def insert (pid : Pid) (a : α) : PidMap α → PidMap α
  | [] => [(pid, a)]
  | (q, b) :: m =>
    if pid < q then (pid, a) :: (q, b) :: m
    else if pid = q then (pid, a) :: m
    else (q, b) :: insert pid a m

def erase (pid : Pid) (m : PidMap α) : PidMap α := m.filter fun e => e.1 != pid

def pids (m : PidMap α) : List Pid := m.map Prod.fst

end PidMap

end Corun.Os
