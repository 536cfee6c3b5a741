import Corun.Simulation.Kernel

namespace Corun.Program
open Os

/-- Bytes that one argument may take, with the NUL behind it. -/
def longestArgument : Nat := 131072

/-- Bytes that all arguments may take together, with a pointer to each. -/
def argumentSpace : Nat := 2097152

def argumentSize (arg : String) : Nat := arg.utf8ByteSize + 1

def fits (args : List String) : Bool :=
  args.all (fun a => argumentSize a ≤ longestArgument)
    && args.foldl (fun total a => total + argumentSize a + 8) 0 ≤ argumentSpace

/-- The program that a path leads to, if it can be executed with the arguments. The file is looked at
first. -/
def executable (tree : FileTree) (path : String) (args : List String) : Except Errno Tool :=
  match tree.find path with
  | .error f => .error f.errno
  | .ok (.program tool) => if fits args then .ok tool else .error .listTooLong
  | .ok _ => .error .accessDenied

def candidates (searchPath name : String) : List String :=
  if name.toList.contains '/' then [name]
  else (searchPath.splitOn ":").map fun d => if d = "" then name else d ++ "/" ++ name

/-- Goes on looking after files that are not there, and after those that may not be executed. These are
what is told in the end. -/
def firstExecutable (tree : FileTree) (args : List String) (worst : Errno) :
    List String → Except Errno (String × Tool)
  | [] => .error worst
  | path :: paths =>
    match executable tree path args with
    | .ok tool => .ok (path, tool)
    | .error e =>
      if e = .accessDenied then firstExecutable tree args .accessDenied paths
      else if e = .noEntry ∨ e = .notDirectory then
        firstExecutable tree args (if paths.isEmpty ∧ worst ≠ .accessDenied then e else worst) paths
      else .error e

def plainPath : String := "/bin:/usr/bin"

def findCommand (tree : FileTree) (searchPath : String) (args : List String) :
    Except Errno (String × Tool) :=
  match args with
  | [] | "" :: _ => .error .noEntry
  | name :: _ => firstExecutable tree args .noEntry (candidates searchPath name)

def refusalStatus (e : Errno) : Nat := if e = .noEntry then 127 else 126

end Corun.Program
