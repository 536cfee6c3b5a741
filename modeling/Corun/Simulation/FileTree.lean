import Corun.Failure

namespace Corun.Os

inductive Tool where
  | shell
  | sleep
  | succeed
  | fail
  | echo
  | env
  | test
  | cat
  | printf
  | timeout
  | seq
  | head
  | expr
  | yes
  | nohup
  | nice
  | setsid
  | printenv
  | pwd
deriving DecidableEq

inductive Device where
  | null
  | zero
  /-- Has no room for what is written. -/
  | full
  | random
  /-- The terminal, which nobody has. -/
  | terminal
  | descriptor (number : Nat)
deriving DecidableEq

inductive Node where
  | directory (entries : List (String × Node))
  | program (tool : Tool)
  | file (bytes : List UInt8)
  | device (d : Device)
  | link (target : String)

abbrev Place := List String

namespace Node

def text (content : String) : Node := .file content.toUTF8.toList

def isDirectory : Node → Bool
  | directory _ => true
  | _ => false

def at? : Node → Place → Option Node
  | node, [] => some node
  | directory entries, name :: place =>
    match entries.lookup name with
    | some next => at? next place
    | none => none
  | _, _ :: _ => none

def setEntry (name : String) (node? : Option Node) (entries : List (String × Node)) :
    List (String × Node) :=
  match node? with
  | none => entries.filter (·.1 ≠ name)
  | some node =>
    if (entries.lookup name).isSome then
      entries.map fun e => if e.1 = name then (name, node) else e
    else entries ++ [(name, node)]

def put (node? : Option Node) : Place → Node → Node
  | [], node => node?.getD node
  | [name], directory entries => .directory (setEntry name node? entries)
  | name :: place, directory entries =>
    match entries.lookup name with
    | some next => .directory (setEntry name (some (put node? place next)) entries)
    | none => .directory entries
  | _ :: _, node => node

end Node

structure FileTree where
  root : Node
  /-- Where relative paths start. -/
  working : Place

namespace FileTree

def longestName : Nat := 255

def longestPath : Nat := 4095

/-- More parts than a path has with all links on the way, unless these go round in a circle. -/
def mostParts : Nat := 8192

def parts (path : String) : List String := path.splitOn "/"

/-- Goes on from a place along the parts of a path. What stands before a part has to be a directory,
and empty parts lead nowhere. A link at the very end is gone through only if asked. -/
def walk (root : Node) (throughLast : Bool) : Nat → Place → List String → Except FileFault Place
  | 0, _, _ => .error .missing
  | _, place, [] => .ok place
  | fuel + 1, place, part :: rest =>
    match root.at? place with
    | some (.directory entries) =>
      if part = "" ∨ part = "." then walk root throughLast fuel place rest
      else if part = ".." then walk root throughLast fuel place.dropLast rest
      else if longestName < part.utf8ByteSize then .error .nameTooLong
      else match entries.lookup part with
        | none => .error .missing
        | some (.link target) =>
          if rest = [] ∧ !throughLast then .ok (place ++ [part])
          else
            let start := if target.startsWith "/" then [] else place
            walk root throughLast fuel start (parts target ++ rest)
        | some _ => walk root throughLast fuel (place ++ [part]) rest
    | some _ => .error .notDirectory
    | none => .error .missing

def locate (path : String) (t : FileTree) (throughLast : Bool := true) : Except FileFault Place :=
  if path.toList.contains '\x00' then .error .nulInName
  else if path = "" then .error .missing
  else if longestPath < path.utf8ByteSize then .error .nameTooLong
  else
    let start := if path.startsWith "/" then [] else t.working
    walk t.root throughLast mostParts start (parts path)

def find (path : String) (t : FileTree) : Except FileFault Node :=
  match t.locate path with
  | .error f => .error f
  | .ok place =>
    match t.root.at? place with
    | some node => .ok node
    | none => .error .missing

def enter? (path : String) (t : FileTree) : Option FileTree :=
  match t.locate path with
  | .ok place =>
    if (t.root.at? place).any Node.isDirectory then some { t with working := place } else none
  | .error _ => none

def contains (path : String) (t : FileTree) : Bool := (t.find path).toOption.isSome

def read (path : String) (t : FileTree) : Except FileFault String :=
  match t.find path with
  | .error f => .error f
  | .ok (.directory _) => .error .directory
  | .ok (.file bytes) =>
    match String.fromUTF8? ⟨bytes.toArray⟩ with
    | some text => .ok text
    | none => .error .notUnicode
  | .ok (.device .terminal) => .error .noDevice
  | .ok (.device _) => .ok ""
  | .ok _ => .error .notUnicode

def entryOf (path : String) (t : FileTree) : Except FileFault (Place × String) :=
  let names := parts path
  let isEmpty (name : String) : Bool := name = ""
  let kept := (names.reverse.dropWhile isEmpty).reverse
  match kept.getLast? with
  | none => .error .directory
  | some name =>
    if name = "." ∨ name = ".." then .error .directory
    else
      let above := "/".intercalate kept.dropLast
      let above := if kept.length < 2 then (if path.startsWith "/" then "/" else ".") else above
      let above := if above = "" then "/" else above
      match t.locate above with
      | .error f => .error f
      | .ok place =>
        if (t.root.at? place).any Node.isDirectory then
          if longestName < name.utf8ByteSize then .error .nameTooLong else .ok (place, name)
        else .error .notDirectory

def put (node? : Option Node) (place : Place) (t : FileTree) : FileTree :=
  { t with root := t.root.put node? place }

def names (path : String) (t : FileTree) : List String :=
  match t.find path with
  | .ok (.directory entries) => (entries.map Prod.fst).mergeSort fun a b => a ≤ b
  | _ => []

def pathOf (place : Place) : String := "/" ++ "/".intercalate place

/-- The path of a command, looked for in directories unless it has a slash itself. -/
def command? (directories : List String) (name : String) (t : FileTree) : Option String :=
  if name.toList.contains '/' then some name
  else (directories.map fun d => if d = "" then name else d ++ "/" ++ name).find? fun path =>
    match t.find path with
    | .ok (.program _) | .ok (.file _) => true
    | _ => false

end FileTree

end Corun.Os
