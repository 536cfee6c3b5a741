import Corun.Simulation.Program.Task
import Corun.Simulation.Shell.Reader

namespace Corun.Shell
open Os Program

namespace Lookup

inductive Found where
  | special
  | function (body : Command)
  | builtin
  | file (path : String)
  | nothing

def builtins : List String :=
  ["[", "alias", "bg", "cd", "chdir", "command", "echo", "false", "fg", "getopts", "hash", "jobs",
   "kill", "printf", "pwd", "read", "test", "true", "type", "ulimit", "umask", "unalias", "wait"]

def keywords : List String :=
  ["!", "case", "do", "done", "elif", "else", "esac", "fi", "for", "if", "in", "then", "until",
   "while", "\x7b", "\x7d"]

def isProgram (tree : FileTree) (path : String) : Bool :=
  match tree.find path with
  | .ok (.program _) => true
  | _ => false

/-- The program of a name. One with a slash in it is taken for a path. -/
def file? (tree : FileTree) (directories : List String) (name : String) : Option String :=
  if name.toList.contains '/' then some name
  else (directories.map fun d => if d = "" then name else d ++ "/" ++ name).find? (isProgram tree)

def find (tree : FileTree) (s : Session) (seesFunctions : Bool) (name : String) : Found :=
  if Reader.specialBuiltins.contains name then .special
  else match if seesFunctions then s.functions.lookup name else none with
    | some body => .function body
    | none =>
      if builtins.contains name then .builtin
      else match file? tree s.scope.searchPath name with
        | some path => .file path
        | none => .nothing

/-- A text in quotes, from which the shell would read the text again. Its own single quotes stand
between double ones. -/
def quotedChars : Nat → List Char → List Char
  | 0, _ => []
  | fuel + 1, cs =>
    let plain := cs.takeWhile (· ≠ '\'')
    let rest := cs.drop plain.length
    let quotes := rest.takeWhile (· = '\'')
    let more := rest.drop quotes.length
    let front := '\'' :: plain ++ ['\'']
    if quotes.isEmpty then front
    else front ++ '"' :: quotes ++ ['"'] ++ (if more.isEmpty then [] else quotedChars fuel more)

def quoted (text : String) : String := String.ofList (quotedChars (text.length + 1) text.toList)

def description (tree : FileTree) (s : Session) (name : String) (isBrief : Bool) :
    String × Bool :=
  let line (brief long : String) : String × Bool :=
    (if isBrief then brief ++ "\n" else name ++ " is " ++ long ++ "\n", true)
  if keywords.contains name then line name "a shell keyword"
  else match s.aliases.lookup name with
    | some value =>
      line ("alias " ++ name ++ "=" ++ quoted value) ("an alias for " ++ value)
    | none =>
      match find tree s true name with
      | .special => line name "a special shell builtin"
      | .function _ => line name "a shell function"
      | .builtin => line name "a shell builtin"
      | .file path =>
        if !tree.contains path then
          (if isBrief then "" else name ++ ": not found\n", false)
        else line path path
      | .nothing => (if isBrief then "" else name ++ ": not found\n", false)

end Lookup

end Corun.Shell
