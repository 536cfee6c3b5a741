import Corun.Os.Errno

namespace Corun.Os

abbrev Pid := Int

def firstFreePid : Pid := 3000001

/-- How many children there may ever be. -/
def childPids : Nat := 65536

def isChildPid (pid : Pid) : Bool := firstFreePid ≤ pid && pid < firstFreePid + childPids

def leastPid : Pid := -2147483648

/-- Why nobody can be waited for by a pid. Those below zero name process groups, but the least of them
has no opposite to be the name of one. -/
def waitRefusal (pid : Pid) : Errno := if pid = leastPid then .noProcess else .noChild

end Corun.Os
