import Corun.Failure
import Corun.Text.Blank

namespace Corun

structure Benchmark where
  id : Nat
  name : String
  path : String
  operands : List String
deriving DecidableEq

namespace Benchmark

def args (b : Benchmark) : List String := b.path :: b.operands

def ofArgs (id : Nat) (name : String) : List String → Except Failure Benchmark
  | [] => .error (.ofCause .emptyCommand)
  | path :: operands => .ok ⟨id, name, path, operands⟩

def commandWords (command : String) : List String :=
  (Text.words command.toList).map String.ofList

def ofCommand (id : Nat) (name command : String) : Except Failure Benchmark :=
  ofArgs id name (commandWords command)

def label (b : Benchmark) : String := s!"{b.name} (#{b.id})"

end Benchmark

end Corun
