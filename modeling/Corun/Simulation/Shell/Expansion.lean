import Corun.Simulation.FileTree
import Corun.Simulation.Shell.Pattern
import Corun.Simulation.Shell.Scope
import Corun.Simulation.Shell.Sum

namespace Corun.Shell
open Os

structure Answer where
  text : String
  status : Nat

inductive Halt where
  /-- A command has to be run, in a scope as far as it is changed. -/
  | asks (c : Command) (s : Scope)
  | fault

structure Expansion where
  scope : Scope
  /-- What the commands in the words came to, those that are not used yet. -/
  answers : List Answer
  status : Option Nat := none

abbrev Expanding (α : Type) := StateT Expansion (Except Halt) α

/-- Fields read so far, and the one that is being read. -/
structure Fields where
  splits : Bool
  separators : List Char := []
  done : List (List Mark) := []
  current : Option (List Mark) := none
  /-- A field was ended by blanks, and a separator that is none may still belong to its end. -/
  isLoose : Bool := false

namespace Fields

def add (marks : List Mark) (f : Fields) : Fields :=
  { f with current := some (f.current.getD [] ++ marks), isLoose := false }

def cut (f : Fields) : Fields :=
  match f.current with
  | some marks => { f with done := f.done ++ [marks], current := none }
  | none => f

def isBlank (c : Char) : Bool := c = ' ' || c = '\t' || c = '\n'

def addSplit (f : Fields) (c : Char) : Fields :=
  if !f.splits ∨ !f.separators.contains c then f.add [⟨c, false⟩]
  else if isBlank c then
    if f.current.isSome then { f.cut with isLoose := true } else f
  else if f.isLoose then { f with isLoose := false }
  else { (f.add []).cut with isLoose := false }

def addText (isQuoted : Bool) (text : String) (f : Fields) : Fields :=
  if isQuoted then f.add (Mark.quoted text.toList) else text.toList.foldl addSplit f

def addAll (isQuoted : Bool) : List String → Fields → Fields
  | [], f => f
  | [a], f => f.addText isQuoted a
  | a :: more, f =>
    let f := f.addText isQuoted a
    addAll isQuoted more (if f.splits then f.cut else f.add [⟨' ', isQuoted⟩])

def finish (f : Fields) : List (List Mark) := f.cut.done

end Fields

/-- Commands end what they write with a line, which does not belong to the value. -/
def withoutFinalLines (text : String) : String :=
  String.ofList (text.toList.reverse.dropWhile (· = '\n')).reverse

namespace Expansion

def fault : Expanding α := throw .fault

def scopeNow : Expanding Scope := do return (← get).scope

def outputOf (c : Command) : Expanding String := do
  let s ← get
  match s.answers with
  | a :: answers =>
    set { s with answers, status := some a.status }
    return withoutFinalLines a.text
  | [] => throw (.asks c s.scope)

def valueOf (name : String) : Expanding String := do
  let s ← scopeNow
  match s.value? name with
  | some v => return v
  | none =>
    if s.hasOption 'u' ∧ name ≠ "@" ∧ name ≠ "*" then fault else return ""

def assign (name value : String) : Expanding Unit := do
  let s ← get
  if !isName name then fault
  match s.scope.assign name value with
  | some scope => set { s with scope }
  | none => fault

def sumOf (text : String) : Expanding String := do
  let s ← get
  let read (scope : Scope) (name : String) : Option Int :=
    match scope.value? name with
    | some v => Sum.ofVariable? v
    | none => some 0
  let write (scope : Scope) (name : String) (n : Int) := scope.assign name (toString n)
  match (Sum.parse text).bind fun a => Sum.eval read write s.scope a with
  | some (n, scope) =>
    set { s with scope }
    return toString n
  | none => fault

def isAll (name : String) : Bool := name = "@" || name = "*"

def addValue (name : String) (isQuoted : Bool) (f : Fields) : Expanding Fields := do
  let s ← scopeNow
  if name = "@" ∨ (name = "*" ∧ !isQuoted ∧ f.splits) then return f.addAll isQuoted s.operands
  else return f.addText isQuoted (← valueOf name)

/-- Whether a fallback is due. -/
def isMissing (name : String) (alsoEmpty : Bool) (s : Scope) : Bool :=
  match s.value? name with
  | some v => alsoEmpty && v = ""
  | none => true

def lengthOf (name : String) : Expanding String := do
  let s ← scopeNow
  if isAll name then return toString s.joined.utf8ByteSize
  return toString (← valueOf name).utf8ByteSize

mutual

def addPiece (f : Fields) : Piece → Expanding Fields
  | .char c isQuoted => return f.add [⟨c, isQuoted⟩]
  | .quotes => return f.add []
  | .parameter name form isQuoted => addForm name isQuoted f form
  | .output c isQuoted => return f.addText isQuoted (← outputOf c)
  | .arithmetic w isQuoted => do
    let f' ← addPieces { splits := false } w
    return f.addText isQuoted (← sumOf (Mark.text (f'.current.getD [])))

def addForm (name : String) (isQuoted : Bool) (f : Fields) : Form → Expanding Fields
  | .value => addValue name isQuoted f
  | .length => return f.addText isQuoted (← lengthOf name)
  | .bad => fault
  | .withFallback .word alsoEmpty w => do
    if isMissing name alsoEmpty (← scopeNow) then addFallback isQuoted f w
    else addValue name isQuoted f
  | .withFallback .opposite alsoEmpty w => do
    if isMissing name alsoEmpty (← scopeNow) then return (if isQuoted then f.add [] else f)
    else addFallback isQuoted f w
  | .withFallback .assignment alsoEmpty w => do
    if isMissing name alsoEmpty (← scopeNow) then
      let f' ← addPieces { splits := false } w
      let value := Mark.text (f'.current.getD [])
      assign name value
      return f.addText isQuoted value
    else addValue name isQuoted f
  | .withFallback .complaint alsoEmpty w => do
    if isMissing name alsoEmpty (← scopeNow) then
      let _ ← addPieces { splits := false } w
      fault
    else addValue name isQuoted f
  | .trimmed atEnd longest pattern => do
    let value ← valueOf name
    let f' ← addPieces { splits := false } pattern
    return f.addText isQuoted (Pattern.trim atEnd longest (f'.current.getD []) value)

/-- A word in place of a value. Its own letters are split like those of a value. -/
def addFallback (isQuoted : Bool) (f : Fields) : List Piece → Expanding Fields
  | [] => return f
  | .char c false :: w => addFallback isQuoted (f.addSplit c) w
  | p :: w => do addFallback isQuoted (← addPiece f p) w

def addPieces (f : Fields) : List Piece → Expanding Fields
  | [] => return f
  | p :: w => do addPieces (← addPiece f p) w

end

def homeName (stops : List Char) : Word → Option (String × Word)
  | .char '~' false :: w =>
    let isLetter : Piece → Bool
      | .char c false => !stops.contains c
      | _ => false
    let front := w.takeWhile isLetter
    let rest := w.drop front.length
    let isEnd := match rest with
      | [] => true
      | .char c false :: _ => stops.contains c
      | _ => false
    if isEnd then (letters? front).map (·, rest) else none
  | _ => none

def withHome (stops : List Char) (w : Word) (s : Scope) : Word :=
  match homeName stops w with
  | some ("", rest) =>
    match s.value? "HOME" with
    | some home => home.toList.map (Piece.char · true) ++ rest
    | none => w
  | some ("root", rest) => "/root".toList.map (Piece.char · true) ++ rest
  | _ => w

/-- Splits after each colon. -/
def afterColons : Word → List Word
  | [] => [[]]
  | p :: w =>
    match afterColons w with
    | [] => [[p]]
    | first :: rest =>
      match p with
      | .char ':' false => [p] :: first :: rest
      | p => (p :: first) :: rest

def whole (w : Word) : Expanding (List Mark) := do
  let f ← addPieces { splits := false } w
  return f.current.getD []

def wholeText (w : Word) : Expanding String := do return Mark.text (← whole w)

def assigned (w : Word) : Expanding String := do
  let s ← scopeNow
  wholeText ((afterColons w).flatMap fun part => withHome ['/', ':'] part s)

def marks (w : Word) : Expanding (List (List Mark)) := do
  let s ← scopeNow
  let w := withHome ['/'] w s
  let f ← addPieces { splits := true, separators := s.separators.toList } w
  return f.finish

def splitMarks : List Mark → List (List Mark)
  | [] => [[]]
  | m :: marks =>
    match splitMarks marks with
    | [] => [[m]]
    | first :: rest => if m.char = '/' then [] :: first :: rest else (m :: first) :: rest

/-- Names in a directory that fit a pattern. Those with a dot in front have to be asked for. -/
def namesThatFit (tree : FileTree) (directory : String) (pattern : List Mark) : List String :=
  let items := Pattern.ofMarks pattern
  let isHidden (name : String) : Bool := name.startsWith "."
  let wantsHidden := (pattern.head?).any fun m => m.char = '.'
  let names := tree.names (if directory = "" then "." else directory)
  let names := if wantsHidden then [".", ".."] ++ names else names
  names.filter fun name => (wantsHidden || !isHidden name) && Pattern.fits items name

def pathsThatFit (tree : FileTree) : List (List Mark) → String → List String
  | [], path => [path]
  | [part], path =>
    if Pattern.isActive part then
      (namesThatFit tree path part).map (path ++ ·)
    else
      let path := path ++ Mark.text part
      if tree.contains path then [path] else []
  | part :: parts, path =>
    if Pattern.isActive part then
      (namesThatFit tree path part).flatMap fun name =>
        if (tree.find (path ++ name)).toOption.any Node.isDirectory then
          pathsThatFit tree parts (path ++ name ++ "/")
        else []
    else pathsThatFit tree parts (path ++ Mark.text part ++ "/")

/-- The files that a field stands for, or the field itself. -/
def files (tree : FileTree) (field : List Mark) : List String :=
  if Pattern.isActive field then
    match pathsThatFit tree (splitMarks field) "" with
    | [] => [Mark.text field]
    | paths => paths.mergeSort fun a b => a ≤ b
  else [Mark.text field]

def fields (tree : FileTree) (words : List Word) : Expanding (List String) := do
  let found ← words.mapM marks
  let s ← scopeNow
  let found := found.flatMap id
  return if s.hasOption 'f' then found.map Mark.text else found.flatMap (files tree)

end Expansion

end Corun.Shell
