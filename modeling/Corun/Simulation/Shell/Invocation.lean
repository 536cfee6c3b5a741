import Corun.Simulation.Shell.Session

namespace Corun.Shell
open Os

structure Invocation where
  options : List (Char × Bool) := []
  takesScript : Bool := false
  listed : Option String := none
  words : List String

namespace Invocation

/-- Before all of them are read, options count as set unless they are set off. -/
def isOn (v : Invocation) (letter : Char) : Bool := (v.options.reverse.lookup letter).getD true

/-- The letters of one word, some of which may use the next one up. -/
def letters (isOn : Bool) : List Char → Invocation → Option Invocation
  | [], v => some v
  | c :: cs, v =>
    if c = 'c' then letters isOn cs { v with takesScript := true }
    else if c = 'l' then letters isOn cs v
    else if c = 'o' then
      match v.words with
      | [] => letters isOn cs { v with listed := some (Scope.listing (!isOn) v.isOn) }
      | name :: words =>
        match Scope.optionNames.lookup name with
        | some letter => letters isOn cs { v with words, options := v.options ++ [(letter, isOn)] }
        | none => none
    else if Scope.optionLetters.contains c then
      letters isOn cs { v with options := v.options ++ [(c, isOn)] }
    else none

def read : Nat → Invocation → Option Invocation
  | 0, v => some v
  | fuel + 1, v =>
    match v.words with
    | [] => some v
    | word :: words =>
      match word.toList with
      | ['-'] | ['-', '-'] => some { v with words }
      | '-' :: cs => do read fuel (← letters true cs { v with words })
      | '+' :: cs => do read fuel (← letters false cs { v with words })
      | _ => some v

def ofArgs (args : List String) : Option Invocation := read (args.length + 1) { words := args }

def apply (v : Invocation) (s : Scope) : Scope :=
  v.options.foldl (fun s (letter, isOn) => s.setOption letter isOn) s

inductive Source where
  | text (script : String)
  | path (path : String)
  | input

/-- The script, the name of the shell, and the operands; nothing if the script is missing. -/
def source? (name : String) (v : Invocation) : Option (Source × String × List String) :=
  let readsInput := v.options.contains ('s', true)
  match v.takesScript, v.words with
  | true, [] => none
  | true, [script] => some (.text script, name, [])
  | true, script :: name :: operands => some (.text script, name, operands)
  | false, [] => some (.input, name, [])
  | false, path :: operands =>
    if readsInput then some (.input, name, path :: operands) else some (.path path, path, operands)

end Invocation

namespace Session

def ofScript (scope : Scope) (script : String) (isLast : Bool) : Session :=
  { scope, frames := [.script script.toList .given 0 { isLast }], focus := .reading }

def ofInput (scope : Scope) : Session := { scope, focus := .slurping [] }

end Session

end Corun.Shell
