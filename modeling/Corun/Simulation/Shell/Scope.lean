import Corun.Os.Pid
import Corun.Simulation.Shell.Environment
import Corun.Simulation.Shell.Script

namespace Corun.Shell
open Os

structure Variable where
  /-- Nothing if it was only announced. -/
  value : Option String
  isExported : Bool := false
  isReadonly : Bool := false

structure OptionPlace where
  /-- The operand, counted from one, and how many of its characters are done with. -/
  index : Nat := 1
  offset : Nat := 0

def OptionPlace.shownIndex (p : OptionPlace) : Nat := if p.offset = 0 then p.index else p.index + 1

structure Scope where
  name : String
  operands : List String
  optionPlace : OptionPlace := {}
  /-- The pid of the shell that the script was given to, also in shells that it starts. -/
  pid : Pid
  status : Nat := 0
  lastJob : Option Pid := none
  options : List Char := []
  entries : List (String × Variable)

namespace Scope

/-- Sets an option or takes it back. Without a terminal, there are no jobs to be monitored. -/
def setOption (letter : Char) (isOn : Bool) (s : Scope) : Scope :=
  let others := s.options.filter fun c => c ≠ letter && !(letter = 'V' && c = 'E') && !(letter = 'E' && c = 'V')
  { s with options := if isOn && letter ≠ 'm' then others ++ [letter] else s.options.filter (· ≠ letter) }

def hasOption (letter : Char) (s : Scope) : Bool := s.options.contains letter

def withOperands (operands : List String) (s : Scope) : Scope := { s with operands, optionPlace := {} }

def entry? (name : String) (s : Scope) : Option Variable := s.entries.lookup name

def putVariable (name : String) (v : Variable) (s : Scope) : Scope :=
  if (s.entry? name).isSome then
    { s with entries := s.entries.map fun e => if e.1 = name then (name, v) else e }
  else { s with entries := s.entries ++ [(name, v)] }

def dropVariable (name : String) (s : Scope) : Scope :=
  { s with entries := s.entries.filter (·.1 ≠ name) }

def restoreVariable (name : String) (v : Option Variable) (s : Scope) : Scope :=
  match v with
  | some v => s.putVariable name v
  | none => s.dropVariable name

def put (name value : String) (s : Scope) : Option Scope :=
  let old := (s.entry? name).getD { value := none }
  if old.isReadonly then none
  else
    let isExported := old.isExported || s.hasOption 'a'
    some (s.putVariable name { old with value := some value, isExported })

/-- One variable tells at which of the operands options are read on. -/
def assign (name value : String) (s : Scope) : Option Scope :=
  if name = "OPTIND" then do
    let index ← value.toNat?
    return { ← s.put name value with optionPlace := { index := max 1 index } }
  else s.put name value

def publish (name : String) (s : Scope) : Scope :=
  s.putVariable name { (s.entry? name).getD { value := none } with isExported := true }

def freeze (name : String) (s : Scope) : Scope :=
  s.putVariable name { (s.entry? name).getD { value := none } with isReadonly := true }

def environment (s : Scope) : Environment :=
  s.entries.filterMap fun (name, v) =>
    if v.isExported then v.value.map fun value => (name, value) else none

def usualSeparators : String := " \t\n"

def usualPath : String := "/usr/local/sbin:/usr/local/bin:/usr/sbin:/usr/bin:/sbin:/bin"

def separators (s : Scope) : String :=
  match s.entry? "IFS" with
  | some v => v.value.getD usualSeparators
  | none => usualSeparators

def searchPath (s : Scope) : List String :=
  match (s.entry? "PATH").bind Variable.value with
  | some path => path.splitOn ":"
  | none => usualPath.splitOn ":"

/-- Options by name, with their letters. Two of them have none that could be typed. -/
def optionNames : List (String × Char) :=
  [("errexit", 'e'), ("noglob", 'f'), ("ignoreeof", 'I'), ("interactive", 'i'), ("monitor", 'm'),
   ("noexec", 'n'), ("stdin", 's'), ("xtrace", 'x'), ("verbose", 'v'), ("vi", 'V'), ("emacs", 'E'),
   ("noclobber", 'C'), ("allexport", 'a'), ("notify", 'b'), ("nounset", 'u'), ("privileged", 'p'),
   ("nolog", '\x01'), ("debug", '\x02')]

def optionLetters : List Char := (optionNames.map Prod.snd).filter Char.isAlpha

def shownOptions (s : Scope) : String := String.ofList (optionLetters.reverse.filter s.options.contains)

def listing (asCommands : Bool) (isOn : Char → Bool) : String :=
  let line (name : String) (letter : Char) : String :=
    if asCommands then "set " ++ (if isOn letter then "-o " else "+o ") ++ name ++ "\n"
    else
      let pad := String.ofList (List.replicate (16 - name.length) ' ')
      name ++ pad ++ (if isOn letter then "on" else "off") ++ "\n"
  (if asCommands then "" else "Current option settings\n")
    ++ String.join (optionNames.map fun (name, letter) => line name letter)

def listOptions (asCommands : Bool) (s : Scope) : String := listing asCommands s.options.contains

def joined (s : Scope) : String :=
  let separator := match s.separators.toList with
    | [] => ""
    | c :: _ => c.toString
  separator.intercalate s.operands

def value? (parameter : String) (s : Scope) : Option String :=
  match parameter with
  | "$" => some (toString s.pid)
  | "#" => some (toString s.operands.length)
  | "?" => some (toString s.status)
  | "!" => s.lastJob.map toString
  | "-" => some s.shownOptions
  | "0" => some s.name
  | "@" => some (" ".intercalate s.operands)
  | "*" => some s.joined
  | other =>
    match other.toNat? with
    | some 0 => some s.name
    | some k => s.operands[k - 1]?
    | none => (s.entry? other).bind Variable.value

def ofEnvironment (name : String) (operands : List String) (pid parent : Pid) (directory : String)
    (e : Environment) : Scope :=
  let told := e.filter fun v => isName v.1 && !(["IFS", "PPID", "OPTIND", "PWD"].contains v.1)
  let own : List (String × Variable) :=
    [("IFS", { value := some usualSeparators }), ("OPTIND", { value := some "1" }),
     ("PPID", { value := some (toString parent) }),
     ("PWD", { value := some directory, isExported := true }),
     ("PS1", { value := some "# " }), ("PS2", { value := some "> " }), ("PS4", { value := some "+ " })]
  let path := if Environment.has "PATH" told then [] else [("PATH", ({ value := some usualPath } : Variable))]
  let imported := told.map fun v => (v.1, ({ value := some v.2, isExported := true } : Variable))
  let named := own.filter fun v => !(Environment.has v.1 told)
  { name, operands, pid, entries := imported ++ named ++ path }

end Scope

end Corun.Shell
