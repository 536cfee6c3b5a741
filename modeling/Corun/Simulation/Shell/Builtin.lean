import Corun.Simulation.Program.Launch
import Corun.Simulation.Shell.Lookup
import Corun.Simulation.Shell.SignalName

namespace Corun.Shell
open Os Program

namespace Builtin

structure Call where
  name : String
  args : List String
  isSpecial : Bool
  standing : Standing

/-- What a command does to the shell and to the world around it. -/
abbrev Act := Pid → Session → World → Session × World

def fault (c : Call) (s : Session) : Session :=
  if c.isSpecial then s.giveUp Session.misuse else s.finish Session.misuse

def print (text : String) (status : Nat) (s : Session) : Session :=
  s.go (.writing 1 (bytesOf text) status)

def greatestNumber : Int := 2147483647

def number? (text : String) : Option Nat :=
  (Question.number? text).bind fun n =>
    if 0 ≤ n ∧ n ≤ greatestNumber then some n.toNat else none

def letters? (plain valued : List Char) :
    List Char → List String → Option (List (Char × String) × List String)
  | [], more => some ([], more)
  | c :: cs, more =>
    if plain.contains c then (letters? plain valued cs more).map fun (found, more) => ((c, "") :: found, more)
    else if valued.contains c then
      match cs, more with
      | [], [] => none
      | [], value :: more => some ([(c, value)], more)
      | cs, more => some ([(c, String.ofList cs)], more)
    else none

def optionsWithin (plain valued : List Char) :
    Nat → List String → Option (List (Char × String) × List String)
  | 0, args => some ([], args)
  | _ + 1, [] => some ([], [])
  | fuel + 1, a :: more =>
    if a = "--" then some ([], more)
    else if !Options.isOption a then some ([], a :: more)
    else do
      let (found, more) ← letters? plain valued (a.toList.drop 1) more
      let (rest, more) ← optionsWithin plain valued fuel more
      return (found ++ rest, more)

def options? (plain valued : List Char) (args : List String) :
    Option (List (Char × String) × List String) :=
  optionsWithin plain valued (args.length + 1) args

def operands? (c : Call) : Option (List String) := (options? [] [] c.args).map Prod.snd

/-- The status that counts while a trap is at work. -/
def outerStatus (s : Session) : Nat :=
  let kept := s.frames.filterMap fun
    | .resume status | .last status => some status
    | _ => none
  kept.getLast?.getD s.scope.status

def exits (c : Call) (s : Session) : Session :=
  match c.args with
  | [] => s.giveUp (outerStatus s)
  | a :: _ =>
    match number? a with
    | some n => s.giveUp n
    | none => fault c s

def returns (c : Call) (s : Session) : Session :=
  match c.args with
  | [] => s.go (.leaving (.returns (outerStatus s)))
  | a :: _ =>
    match number? a with
    | some n => (s.withStatus n).go (.leaving (.returns n))
    | none => fault c s

def leavesLoop (c : Call) (s : Session) : Session :=
  let wanted := match c.args with
    | [] => some 1
    | a :: _ => (number? a).filter (0 < ·)
  match wanted with
  | none => fault c s
  | some n =>
    let n := min n s.loops
    if n = 0 then s.finish 0
    else (s.withStatus 0).go (.leaving (if c.name = "break" then .breaks n else .continues n))

def perform (script : String) (origin : Origin) (c : Call) (s : Session) : Session :=
  (s.push (.script script.toList origin 0 { isTested := c.standing.isTested })).go .reading

def evaluate (c : Call) (s : Session) : Session :=
  if c.args.isEmpty then s.finish 0 else perform (" ".intercalate c.args) .called c s

def isReadable : Node → Bool
  | .directory _ => false
  | _ => true

def scriptPath? (tree : FileTree) (s : Session) (name : String) : Option String :=
  if name.toList.contains '/' then some name
  else (s.scope.searchPath.map fun d => if d = "" then name else d ++ "/" ++ name).find? fun path =>
    (tree.find path).toOption.any isReadable

def source (tree : FileTree) (c : Call) (s : Session) : Session :=
  match operands? c with
  | none => fault c s
  | some [] => s.finish 0
  | some (name :: _) =>
    match (scriptPath? tree s name).map fun path => tree.find path with
    | some (.ok (.file bytes)) => perform (Text.Lossy.text bytes) .file c s
    | some (.ok (.program _)) | some (.ok (.device .terminal)) => fault c s
    | some (.ok _) => perform "" .file c s
    | _ => fault c s

def splitAssignment (word : String) : String × Option String :=
  let cs := word.toList
  let name := cs.takeWhile (· ≠ '=')
  match cs.drop name.length with
  | [] => (String.ofList name, none)
  | _ :: value => (String.ofList name, some (String.ofList value))

def mark (f : String → Scope → Scope) : List String → Scope → Option Scope
  | [], s => some s
  | word :: words, s => do
    let (name, value) := splitAssignment word
    if !isName name then none
    let s ← match value with
      | some v => s.assign name v
      | none => some s
    mark f words (f name s)

def listVariables (front : String) (isWanted : Variable → Bool) (s : Scope) : String :=
  let named := s.entries.filter fun v => isWanted v.2
  String.join ((named.mergeSort fun a b => a.1 ≤ b.1).map fun (name, v) =>
    front ++ name ++ ((v.value.map fun value => "=" ++ Lookup.quoted value).getD "") ++ "\n")

def declare (c : Call) (f : String → Scope → Scope) (isWanted : Variable → Bool) (s : Session) :
    Session :=
  match options? ['p'] [] c.args with
  | none => fault c s
  | some (found, words) =>
    if !found.isEmpty ∨ words.isEmpty then
      print (listVariables (c.name ++ " ") isWanted s.scope) 0 s
    else match mark f words s.scope with
      | some scope => { s with scope }.finish 0
      | none => fault c s

def keepLocal (names : List (String × Option Variable)) : List Frame → Option (List Frame)
  | [] => none
  | .call operands place locals :: fs =>
    let fresh := names.filter fun v => (locals.lookup v.1).isNone
    some (.call operands place (locals ++ fresh) :: fs)
  | f :: fs => (keepLocal names fs).map (f :: ·)

def localize (c : Call) (s : Session) : Session :=
  let words := c.args.filter (· ≠ "-")
  let names := words.map fun w => (splitAssignment w).1
  let old := names.map fun name => (name, s.scope.entry? name)
  match keepLocal old s.frames, mark (fun _ s => s) words s.scope with
  | some frames, some scope => { s with scope, frames }.finish 0
  | _, _ => fault c s

/-- What the words behind `set` make of the options, the operands that are set, and what is listed;
nothing if an option is unknown. -/
def setWords : Nat → List String → Scope → String → Option (Scope × Option (List String) × String)
  | 0, _, s, listed => some (s, none, listed)
  | _ + 1, [], s, listed => some (s, none, listed)
  | fuel + 1, word :: words, s, listed =>
    let switch (isOn : Bool) (cs : List Char) :
        Option (Scope × Option (List String) × String) := do
      let (s, words, listed) ← letters isOn cs (s, words, listed)
      setWords fuel words s listed
    match word.toList with
    | ['-'] =>
      let s := (s.setOption 'x' false).setOption 'v' false
      some (s, if words.isEmpty then none else some words, listed)
    | ['-', '-'] => some (s, some words, listed)
    | '-' :: cs => switch true cs
    | '+' :: cs => switch false cs
    | _ => some (s, some (word :: words), listed)
where
  letters (isOn : Bool) : List Char → Scope × List String × String →
      Option (Scope × List String × String)
    | [], state => some state
    | 'o' :: cs, (s, words, listed) =>
      match words with
      | [] => letters isOn cs (s, [], listed ++ Scope.listOptions (!isOn) s)
      | name :: words =>
        (Scope.optionNames.lookup name).bind fun letter =>
          letters isOn cs (s.setOption letter isOn, words, listed)
    | c :: cs, (s, words, listed) =>
      if Scope.optionLetters.contains c then letters isOn cs (s.setOption c isOn, words, listed)
      else none

def set (c : Call) (s : Session) : Session :=
  if c.args.isEmpty then print (listVariables "" (fun v => v.value.isSome) s.scope) 0 s
  else match setWords (c.args.length + 1) c.args s.scope "" with
    | none => fault c s
    | some (scope, operands, listed) =>
      let scope := match operands with
        | some operands => scope.withOperands operands
        | none => scope
      print listed 0 { s with scope }

def shift (c : Call) (s : Session) : Session :=
  match (c.args.head?.map number?).getD (some 1) with
  | some n =>
    if n ≤ s.scope.operands.length then
      { s with scope := s.scope.withOperands (s.scope.operands.drop n) }.finish 0
    else fault c s
  | none => fault c s

def unset (c : Call) (s : Session) : Session :=
  match options? ['v', 'f'] [] c.args with
  | none => fault c s
  | some (found, names) =>
    if found.getLast?.map Prod.fst = some 'f' then
      { s with functions := s.functions.filter fun f => !names.contains f.1 }.finish 0
    else
      let isFixed (name : String) : Bool :=
        !isName name || name = "OPTIND" || (s.scope.entry? name).any Variable.isReadonly
      if names.any isFixed then fault c s
      else { s with scope := names.foldl (fun scope name => scope.dropVariable name) s.scope }.finish 0

def addAliases (c : Call) (s : Session) : Session :=
  let line (a : String × String) : String := a.1 ++ "=" ++ Lookup.quoted a.2 ++ "\n"
  if c.args.isEmpty then
    print (String.join ((s.aliases.mergeSort fun a b => a.1 ≤ b.1).map line)) 0 s
  else
    let (s, text, status) := c.args.foldl (fun (s, text, status) word =>
      match splitAssignment word with
      | (name, some value) =>
        ({ s with aliases := s.aliases.filter (·.1 ≠ name) ++ [(name, value)] }, text, status)
      | (name, none) =>
        match s.aliases.lookup name with
        | some value => (s, text ++ line (name, value), status)
        | none => (s, text, 1)) (s, "", 0)
    print text status s

def dropAliases (c : Call) (s : Session) : Session :=
  match options? ['a'] [] c.args with
  | none => fault c s
  | some (found, names) =>
    if !found.isEmpty then { s with aliases := [] }.finish 0
    else
      let isKnown (name : String) : Bool := (s.aliases.lookup name).isSome
      { s with aliases := s.aliases.filter fun a => !names.contains a.1 }.finish
        (if names.all isKnown then 0 else 1)

def typeOf (tree : FileTree) (c : Call) (s : Session) : Session :=
  match operands? c with
  | none => fault c s
  | some names =>
    let told := names.map fun name => Lookup.description tree s name false
    print (String.join (told.map Prod.fst)) (if told.all Prod.snd then 0 else Session.notFound) s

def hash (tree : FileTree) (c : Call) (s : Session) : Session :=
  match options? ['r'] [] c.args with
  | none => fault c s
  | some (_, names) =>
    let isKnown (name : String) : Bool :=
      match Lookup.find tree s true name with
      | .nothing => false
      | _ => true
    s.finish (if names.all isKnown then 0 else 1)

def describe (tree : FileTree) (isBrief : Bool) (names : List String) (s : Session) : Session :=
  match names with
  | [] => s.finish 0
  | name :: _ =>
    let (text, isKnown) := Lookup.description tree s name isBrief
    print text (if isKnown then 0 else Session.notFound) s

def simplified (path : String) : String :=
  let parts := (path.splitOn "/").foldl (fun (kept : List String) part =>
    if part = "" ∨ part = "." then kept else if part = ".." then kept.dropLast else kept ++ [part]) []
  FileTree.pathOf parts

/-- Where a path leads from the directory that the shell believes to be in. -/
def logical (s : Session) (path : String) : String :=
  simplified (if path.startsWith "/" then path else s.directory ++ "/" ++ path)

def enter (isPhysical : Bool) (path : String) (pid : Pid) (s : Session) (k : World) :
    Option (Session × World) := do
  let tree ← (k.treeOf pid).enter? (if isPhysical then path else logical s path)
  let directory := if isPhysical then FileTree.pathOf tree.working else logical s path
  let scope ← s.scope.assign "OLDPWD" s.directory
  let scope ← scope.assign "PWD" directory
  let scope := (scope.publish "OLDPWD").publish "PWD"
  return ({ s with scope, directory }, k.update pid fun p => { p with directory := tree.working })

/-- Whether a path is looked for only below the working directory. -/
def isDirect (path : String) : Bool :=
  path.startsWith "/" || [".", ".."].contains ((path.splitOn "/").headD "")

/-- Directories that a path may be meant in, and whether the one that is found is shown. -/
def places (s : Session) (path : String) : List (String × Bool) :=
  match (s.scope.entry? "CDPATH").bind Variable.value with
  | some cdPath =>
    if isDirect path then [(path, false)]
    else (cdPath.splitOn ":").map fun d => (if d = "" then (path, false) else (d ++ "/" ++ path, true))
  | none => [(path, false)]

def changeDirectory (c : Call) : Act := fun pid s k =>
  match options? ['L', 'P'] [] c.args with
  | none => (fault c s, k)
  | some (found, operands) =>
    let isPhysical := found.getLast?.map Prod.fst = some 'P'
    let value (name : String) : String := (s.scope.value? name).getD ""
    let (path, isShown) := match operands with
      | [] => (value "HOME", false)
      | "-" :: _ => (value "OLDPWD", true)
      | path :: _ => (path, false)
    let path := if path = "" then "." else path
    let tree := k.treeOf pid
    let isDirectory (p : String) : Bool := (tree.find p).toOption.any Node.isDirectory
    let (path, isShown) := match (places s path).find? fun p => isDirectory p.1 with
      | some (p, shown) => (p, isShown || shown)
      | none => (path, isShown)
    match enter isPhysical path pid s k with
    | some (s, k) => (if isShown then print (s.directory ++ "\n") 0 s else s.finish 0, k)
    | none => (fault c s, k)

def printDirectory (pid : Pid) (c : Call) (s : Session) (k : World) : Session :=
  match options? ['L', 'P'] [] c.args with
  | none => fault c s
  | some (found, _) =>
    let isPhysical := found.getLast?.map Prod.fst = some 'P'
    let directory := if isPhysical then FileTree.pathOf (World.directoryOf pid k) else s.directory
    print (directory ++ "\n") 0 s

def octalDigits (n : Nat) : String :=
  let digits := Nat.toDigits 8 n
  String.ofList (List.replicate (4 - digits.length) '0' ++ digits)

def symbolicMask (mask : Nat) : String :=
  let part (name : String) (shift : Nat) : String :=
    let bits := 7 - (mask >>> shift) % 8
    let letter (bit : Nat) (c : String) : String := if bits / bit % 2 = 1 then c else ""
    name ++ "=" ++ letter 4 "r" ++ letter 2 "w" ++ letter 1 "x"
  part "u" 6 ++ "," ++ part "g" 3 ++ "," ++ part "o" 0

namespace Permission

def all : Nat := 0o777

def kinds (cs : List Char) : Nat :=
  let kind : Char → Nat
    | 'u' => 0o100
    | 'g' => 0o10
    | 'o' => 0o1
    | _ => 0o111
  if cs.isEmpty then 0o111 else cs.foldl (fun n c => n ||| kind c) 0

/-- What letters stand for where `before` was permitted. -/
def granted (before : Nat) (cs : List Char) : Nat :=
  let bits : Char → Nat
    | 'r' => 4
    | 'w' => 2
    | 'x' => 1
    | 'u' => before / 64
    | 'g' => before / 8
    | 'o' => before
    | 'X' => if before &&& 0o111 = 0 then 0 else 1
    | _ => 0
  cs.foldl (fun n c => n ||| bits c) 0 % 8

/-- Changes that follow each other, each for the kinds of users in front of it or of the last one. -/
def changed? (before : Nat) : Nat → Option Nat → Nat → List Char → Option Nat
  | 0, _, _, _ => none
  | _ + 1, _, now, [] => some now
  | fuel + 1, users, now, cs =>
    let letters := cs.takeWhile ['u', 'g', 'o', 'a'].contains
    let users := if letters.isEmpty then users.getD (kinds []) else users.getD 0 ||| kinds letters
    match cs.drop letters.length with
    | op :: cs =>
      let letters := cs.takeWhile ['r', 'w', 'x', 'u', 'g', 'o', 'X', 's'].contains
      let bits := granted before letters * users
      let now? := match op with
        | '+' => some (now ||| bits)
        | '-' => some (now &&& (all ^^^ bits))
        | '=' => some (bits ||| (now &&& (all ^^^ (users * 7))))
        | _ => none
      now?.bind fun now => match cs.drop letters.length with
        | ',' :: cs => changed? before fuel none now cs
        | [] => some now
        | op :: cs =>
          if ['+', '-', '='].contains op then changed? before fuel (some users) now (op :: cs) else none
    | [] => none

end Permission

def umask (c : Call) (s : Session) : Session :=
  match options? ['S'] [] c.args with
  | none => fault c s
  | some (found, []) =>
    print ((if found.isEmpty then octalDigits s.umask else symbolicMask s.umask) ++ "\n") 0 s
  | some (_, mode :: _) =>
    let cs := mode.toList
    if cs.all fun c => '0' ≤ c && c ≤ '7' then
      { s with umask := (Sum.takeDigits 8 0 cs).1 % 512 }.finish 0
    else if (cs.head?).any Char.isDigit then fault c s
    else
      let before := Permission.all - s.umask
      match Permission.changed? before (cs.length + 1) none before cs with
      | some now => { s with umask := Permission.all - now }.finish 0
      | none => fault c s

def limitLetters : List Char :=
  ['H', 'S', 'a', 't', 'f', 'd', 's', 'c', 'm', 'l', 'p', 'n', 'v', 'w', 'r']

def ulimit (c : Call) (s : Session) : Session :=
  match options? limitLetters [] c.args with
  | none => fault c s
  | some (_, []) => print "unlimited\n" 0 s
  | some (_, [value]) =>
    if value = "unlimited" ∨ (!value.isEmpty && value.all Char.isDigit) then s.finish 0 else fault c s
  | some _ => fault c s

/-- What is done about a signal. Those that were ignored from the beginning stay so. -/
def heed (pid : Pid) (n : Nat) (action : Option String) (s : Session) (k : World) : World :=
  if n = 0 ∨ s.deaf.contains n then k
  else k.update pid fun p =>
    let ignored := p.ignored.filter (· ≠ n)
    let caught := p.caught.filter (· ≠ n)
    match action with
    | some "" => { p with ignored := n :: ignored, caught }
    | some _ => { p with ignored, caught := n :: caught }
    | none => { p with ignored, caught := if n = World.interrupt then n :: caught else caught }

def trapLine (t : Nat × String) : String :=
  "trap -- " ++ Lookup.quoted t.2 ++ " " ++ SignalName.ofNumber t.1 ++ "\n"

def setTraps (pid : Pid) (action : Option String) : List String → Session → World → Session × World
  | [], s, k => (s.finish 0, k)
  | word :: words, s, k =>
    match SignalName.parse? 0 word with
    | none => (s.finish 1, k)
    | some n =>
      let others := s.traps.filter fun t => t.1 ≠ n
      let traps := match action with
        | some text => others ++ [(n, text)]
        | none => others
      setTraps pid action words { s with traps } (heed pid n action s k)

def trap (c : Call) : Act := fun pid s k =>
  match operands? c with
  | none => (fault c s, k)
  | some [] =>
    (print (String.join ((s.traps.mergeSort fun a b => a.1 ≤ b.1).map trapLine)) 0 s, k)
  | some (action :: words) =>
    if words.isEmpty ∨ ((SignalName.number? action).any (· < SignalName.count)) then
      setTraps pid none (action :: words) s k
    else setTraps pid (if action = "-" then none else some action) words s k

/-- The job that a word names; nothing if it is no job that is known. -/
def job? (word : String) (s : Session) : Option (List Pid) :=
  match word.toList with
  | ['%'] | ['%', '%'] | ['%', '+'] => s.jobs.getLast?.map BackgroundJob.pids
  | ['%', '-'] => s.jobs.dropLast.getLast?.map BackgroundJob.pids
  | '%' :: digits => do
    let n ← SignalName.number? (String.ofList digits)
    return (← s.jobs.find? fun j => j.slot = n).pids
  | _ => none

def killTarget? (word : String) (s : Session) : Option Int :=
  match word.toList with
  | '%' :: _ => ((job? word s).bind List.head?).map fun pid => -(pid : Int)
  | '-' :: cs => (number? (String.ofList cs)).map fun n => -(n : Int)
  | _ => (number? word).map fun n => (n : Int)

def signalAll (pid : Pid) (n : Nat) (c : Call) :
    List String → Nat → Session → World → Session × World
  | [], status, s, k => (s.finish status, k)
  | word :: words, status, s, k =>
    match killTarget? word s with
    | none => (fault c s, k)
    | some target =>
      match k.send pid n target with
      | .ok k => signalAll pid n c words status s k
      | .error _ => signalAll pid n c words 1 s k

def listSignals (operands : List String) (c : Call) (s : Session) : Session :=
  match operands with
  | [] => print ("0\n" ++ String.join (((List.range SignalName.count).drop 1).map fun n =>
      SignalName.ofNumber n ++ "\n")) 0 s
  | word :: _ =>
    match (number? word).map fun n => if 128 < n then n - 128 else n with
    | some n =>
      if 0 < n ∧ n < SignalName.count then print (SignalName.ofNumber n ++ "\n") 0 s else fault c s
    | none => fault c s

def terminate : Nat := 15

def kill (c : Call) : Act := fun pid s k =>
  let named := match c.args with
    | a :: words =>
      if a.startsWith "-" then
        (SignalName.parse? 1 (String.ofList (a.toList.drop 1))).map fun n => (n, words)
      else none
    | [] => none
  match named with
  | some (_, []) => (fault c s, k)
  | some (n, words) => signalAll pid n c words 0 s k
  | none =>
    match options? ['l'] ['s'] c.args with
    | none => (fault c s, k)
    | some (found, words) =>
      let signals := (found.filter (·.1 = 's')).map fun f => SignalName.parse? 1 f.2
      if (found.lookup 'l').isSome then
        (if signals.isEmpty then listSignals words c s else fault c s, k)
      else match signals.getLast?.getD (some terminate), words with
        | some n, word :: words => signalAll pid n c (word :: words) 0 s k
        | _, _ => (fault c s, k)

/-- A job that is waited for by a word. Nothing inside if it is not known. -/
def target? (word : String) (s : Session) : Option (List Pid) :=
  match word.toList with
  | '%' :: _ => job? word s
  | _ => (number? word).map fun n =>
    ((s.jobs.map BackgroundJob.pids).find? fun pids => pids.getLast? = some (n : Pid)).getD []

def wait (c : Call) (s : Session) : Session :=
  match operands? c with
  | none => fault c s
  | some [] => s.go (.waiting (s.jobs.map BackgroundJob.pids) none)
  | some words =>
    match words.mapM fun w => target? w s with
    | some jobs => s.go (.waiting jobs (some Session.notFound))
    | none => fault c s

def moveJob (c : Call) (s : Session) : Session := fault c s

def listJobs (c : Call) (s : Session) : Session :=
  match options? ['l', 'p'] [] c.args with
  | none => fault c s
  | some (_, words) => if words.all fun w => (job? w s).isSome then s.finish 0 else fault c s

def read (c : Call) (s : Session) : Session :=
  match options? ['r'] ['p'] c.args with
  | none => fault c s
  | some (found, names) =>
    if names.isEmpty ∨ !names.all isName then fault c s
    else s.go (.taking names (found.lookup 'r').isSome [] false)

/-- The fields of a line, at most so many. The last one takes what is left. -/
def splitLine (separators : List Char) : Nat → List Mark → List String
  | 0, _ => []
  | count + 1, marks =>
    let isSeparator (m : Mark) : Bool := !m.isQuoted && separators.contains m.char
    let isGap (m : Mark) : Bool := isSeparator m && Fields.isBlank m.char
    let marks := marks.dropWhile isGap
    let front := marks.takeWhile fun m => !isSeparator m
    let behind := (marks.drop front.length).dropWhile isGap
    let behind := match behind with
      | m :: more => if isSeparator m then more.dropWhile isGap else behind
      | [] => []
    if count = 0 then
      if behind.isEmpty then [Mark.text front]
      else [Mark.text (marks.reverse.dropWhile isGap).reverse]
    else if marks.isEmpty then []
    else Mark.text front :: splitLine separators count behind

def deal (names : List String) (values : List String) (scope : Scope) : Option Scope :=
  match names with
  | [] => some scope
  | name :: more => do deal more (values.drop 1) (← scope.assign name (values.headD ""))

structure Found where
  letter : String
  value : Option String
  place : OptionPlace

/-- Looks at the operands from an index on, and there behind so many letters. -/
def nextOption (plan : List Char) (operands : List String) (index offset : Nat) : Option Found :=
  match operands[index - 1]? with
  | none => none
  | some word =>
    let cs := word.toList
    if offset = 0 ∧ (!Options.isOption word ∨ word = "--") then none
    else
      let at_ := if offset = 0 then 1 else offset
      match cs[at_]? with
      | none => none
      | some c =>
        let isEnd := cs.length ≤ at_ + 1
        let next : OptionPlace := if isEnd then ⟨index + 1, 0⟩ else ⟨index, at_ + 1⟩
        let isQuiet := plan.head? = some ':'
        let missing (value : String) : Found := ⟨"?", if isQuiet then some value else none, next⟩
        match plan.dropWhile (· ≠ c) with
        | [] => some (missing c.toString)
        | _ :: more =>
          if c = ':' then some (missing c.toString)
          else if more.head? ≠ some ':' then some ⟨c.toString, none, next⟩
          else if !isEnd then
            some ⟨c.toString, some (String.ofList (cs.drop (at_ + 1))), ⟨index + 1, 0⟩⟩
          else match operands[index]? with
            | some value => some ⟨c.toString, some value, ⟨index + 2, 0⟩⟩
            | none =>
              if isQuiet then some ⟨":", some c.toString, ⟨index + 1, 0⟩⟩
              else some ⟨"?", none, ⟨index + 1, 0⟩⟩

def getopts (c : Call) (s : Session) : Session :=
  match operands? c with
  | some (plan :: name :: operands) =>
    let operands := if operands.isEmpty then s.scope.operands else operands
    let place := s.scope.optionPlace
    let place := if operands.length + 1 < place.shownIndex then {} else place
    if !isName name then fault c s
    else
      let finish (status : Nat) (place : OptionPlace) (scope : Option Scope) : Session :=
        match scope.bind fun scope => scope.put "OPTIND" (toString place.shownIndex) with
        | some scope => { s with scope := { scope with optionPlace := place } }.finish status
        | none => fault c s
      match nextOption plan.toList operands place.index place.offset with
      | none =>
        let isMark := operands[place.index - 1]? == some "--"
        finish 1 { index := place.index + isMark.toNat } (s.scope.assign name "?")
      | some f =>
        finish 0 f.place do
          let scope ← s.scope.assign name f.letter
          match f.value with
          | some v => scope.assign "OPTARG" v
          | none => some (scope.dropVariable "OPTARG")
  | _ => fault c s

def times : String := "0m0.000000s 0m0.000000s\n0m0.000000s 0m0.000000s\n"

def run (c : Call) : Act := fun pid s k =>
  let tree := k.treeOf pid
  let only (f : Call → Session → Session) : Session × World := (f c s, k)
  match c.name with
  | ":" | "true" => (s.finish 0, k)
  | "false" => (s.finish 1, k)
  | "echo" => (s.go (.writing 1 (Echo.builtin c.args) 0), k)
  | "printf" =>
    let (bytes, status) := Printf.run .builtin c.args
    (s.go (.writing 1 bytes status), k)
  | "test" => (s.finish (Question.status tree false c.args), k)
  | "[" => (s.finish (Question.bracketStatus tree false c.args), k)
  | "exit" => only exits
  | "return" => only returns
  | "break" | "continue" => only leavesLoop
  | "eval" => only evaluate
  | "." => only (source tree)
  | "export" => only fun c s => declare c Scope.publish Variable.isExported s
  | "readonly" => only fun c s => declare c Scope.freeze Variable.isReadonly s
  | "local" => only localize
  | "set" => only set
  | "shift" => only shift
  | "unset" => only unset
  | "times" => only fun _ s => print times 0 s
  | "trap" => trap c pid s k
  | "alias" => only addAliases
  | "unalias" => only dropAliases
  | "type" => only (typeOf tree)
  | "hash" => only (hash tree)
  | "cd" | "chdir" => changeDirectory c pid s k
  | "pwd" => only fun c s => printDirectory pid c s k
  | "umask" => only umask
  | "ulimit" => only ulimit
  | "kill" => kill c pid s k
  | "wait" => only wait
  | "jobs" => only listJobs
  | "read" => only read
  | "getopts" => only getopts
  | _ => only moveJob

end Builtin

end Corun.Shell
