import Corun.Simulation.Lossy
import Corun.Simulation.Program.Duration
import Corun.Simulation.Program.Execution
import Corun.Simulation.Program.Reckoning
import Corun.Simulation.Program.Setting
import Corun.Simulation.Program.Task
import Corun.Simulation.Shell.Invocation
import Corun.Simulation.Shell.Printf
import Corun.Simulation.Shell.Question

namespace Corun.Program
open Os Shell

def lineOf (text : String) : List UInt8 := bytesOf (text ++ "\n")

def misuse : Nat := 1

def sleepTask (now : Nat) : List String → Task
  | [] => .exits misuse
  | args =>
    match Options.standard args with
    | .information => .exits 0
    | .misuse => .exits misuse
    | .work operands =>
      match Duration.total? operands with
      | some span => .sleeps (span.map (now + ·))
      | none => .exits misuse

def isInformation (args : List String) : Bool := args = ["--help"] || args = ["--version"]

def echoTask (args : List String) : Task :=
  if isInformation args then .exits 0 else .writes (Echo.program {} args) 0

def printfTask (args : List String) : Task :=
  if isInformation args then .exits 0
  else
    let (bytes, status) := Printf.run .program args
    .writes bytes status

def testTask (tree : FileTree) (name : String) (args : List String) : Task :=
  if (name.splitOn "/").getLast? = some "[" then .exits (Question.bracketStatus tree true args)
  else .exits (Question.status tree true args)

def catTask (args : List String) : Task :=
  let isKnown (a : String) : Bool := (a.toList.drop 1).all "AbeEnstTuv".toList.contains
  match Options.standard (args.filter fun a => !(Options.isOption a && isKnown a)) with
  | .information => .exits 0
  | .misuse => .exits misuse
  | .work [] => .streams { names := ["-"] }
  | .work names => .streams { names }

def headTask (s : Stream) : List String → Task
  | [] => .streams (if s.names.isEmpty then { s with names := ["-"] } else s)
  | "-n" :: count :: more =>
    match Options.wholeNumber? count with
    | some n => headTask { s with left := some n, countsLines := true } more
    | none => .exits misuse
  | "-c" :: count :: more =>
    match Options.wholeNumber? count with
    | some n => headTask { s with left := some n, countsLines := false } more
    | none => .exits misuse
  | a :: more =>
    if !Options.isOption a then headTask { s with names := s.names ++ [a] } more
    else
      let (isBytes, digits) := match a.toList.drop 1 with
        | 'n' :: digits => (false, digits)
        | 'c' :: digits => (true, digits)
        | digits => (false, digits)
      match Options.wholeNumber? (String.ofList digits) with
      | some n => headTask { s with left := some n, countsLines := !isBytes } more
      | none => .exits misuse

def yesTask (args : List String) : Task :=
  match Options.standard args with
  | .information => .exits 0
  | .misuse => .exits misuse
  | .work operands =>
    let line := lineOf (if operands.isEmpty then "y" else " ".intercalate operands)
    .repeats (List.replicate (1 + 1024 / (line.length + 1)) line).flatten

def seqTask (args : List String) : Task :=
  let count (first step last : Int) : Task :=
    if step = 0 then .exits misuse
    else
      let n := if 0 < step then (last - first) / step + 1 else (first - last) / (-step) + 1
      let lines := (List.range n.toNat).flatMap fun i => lineOf (toString (first + step * (i : Nat)))
      .writes lines 0
  match args.mapM Reckoning.number? with
  | some [last] => count 1 1 last
  | some [first, last] => count first 1 last
  | some [first, step, last] => count first step last
  | _ => .exits misuse

def exprTask (args : List String) : Task :=
  if isInformation args then .exits 0
  else match Reckoning.value? (if args.head? = some "--" then args.drop 1 else args) with
    | some value => .writes (lineOf value) (if Reckoning.isNull value then 1 else 0)
    | none => .exits 2

def showEnvironment (lineEnd : UInt8) (e : Environment) : List UInt8 :=
  e.flatMap fun (name, value) => bytesOf (name ++ "=" ++ value) ++ [lineEnd]

def printenvTask (e : Environment) (args : List String) : Task :=
  match Options.standard args with
  | .information => .exits 0
  | .misuse => .exits 2
  | .work [] => .writes (showEnvironment 10 e) 0
  | .work names =>
    let found := names.map fun name => List.lookup name e
    .writes (found.flatMap fun value => (value.map lineOf).getD []) (if found.all Option.isSome then 0 else 1)

structure GuardOptions where
  signal : Nat := 15
  patience : Option Nat := none
  coversGroup : Bool := true
  isFaithful : Bool := false

def millisecondsOf? (text : String) : Option (Option Nat) := Duration.total? [text]

def guardOptions (o : GuardOptions) : Nat → List String → Option (GuardOptions × List String)
  | 0, _ => none
  | _ + 1, [] => some (o, [])
  | fuel + 1, a :: more =>
    let setSignal (text : String) (more : List String) : Option (GuardOptions × List String) := do
      guardOptions { o with signal := ← Options.signal? text } fuel more
    let setPatience (text : String) (more : List String) : Option (GuardOptions × List String) := do
      guardOptions { o with patience := ← millisecondsOf? text } fuel more
    if a = "--" then some (o, more)
    else if !Options.isOption a then some (o, a :: more)
    else if a.startsWith "--" then
      let (name, value) := Options.splitLong a
      let known := ["foreground", "kill-after", "preserve-status", "signal", "verbose"]
      match Options.long? known name, value, more with
      | some "foreground", none, _ => guardOptions { o with coversGroup := false } fuel more
      | some "preserve-status", none, _ => guardOptions { o with isFaithful := true } fuel more
      | some "verbose", none, _ => guardOptions o fuel more
      | some "signal", some text, _ | some "signal", none, text :: _ =>
        setSignal text (if value.isNone then more.drop 1 else more)
      | some "kill-after", some text, _ | some "kill-after", none, text :: _ =>
        setPatience text (if value.isNone then more.drop 1 else more)
      | _, _, _ => none
    else
      match a.toList.drop 1, more with
      | ['v'], _ => guardOptions o fuel more
      | ['s'], text :: more => setSignal text more
      | ['k'], text :: more => setPatience text more
      | 's' :: c :: cs, more => setSignal (String.ofList (c :: cs)) more
      | 'k' :: c :: cs, more => setPatience (String.ofList (c :: cs)) more
      | _, _ => none

def canceled : Nat := 125

/-- The command behind the options of what makes it nicer; nothing if they make no sense. -/
def niceCommand? : List String → Option (List String)
  | "-n" :: value :: more => if isAdjustment value then niceCommand? more else none
  | "--" :: more => some more
  | [] => some []
  | a :: more =>
    if !Options.isOption a then some (a :: more)
    else
      let value := match Options.splitLong a with
        | (name, some value) => if Options.long? ["adjustment"] name = some "adjustment" then value else ""
        | _ => String.ofList ((a.toList.drop 1).dropWhile fun c => c = 'n')
      if isAdjustment value then niceCommand? more else none
where
  isAdjustment (text : String) : Bool :=
    match text.toList with
    | '-' :: cs | '+' :: cs | cs => !cs.isEmpty && cs.all Char.isDigit

namespace World

def directoryOf (pid : Pid) (k : World) : Place := ((k.proc? pid).map Proc.directory).getD []

def heed (pid : Pid) (ignored usual : List Nat) (k : World) : World :=
  k.update pid fun p =>
    { p with ignored := ignored ++ p.ignored.filter fun n => !usual.contains n }

def interrupt : Nat := 2

def beginShell (pid : Pid) (e : Environment) (args : List String) (k : World) : World :=
  match k.proc? pid, Invocation.ofArgs (args.drop 1) with
  | none, _ => k
  | some _, none => exit pid Session.misuse k
  | some p, some v =>
    match v.listed with
    | some text => setTask pid (.writes (bytesOf text) (if v.takesScript then Session.misuse else 0)) k
    | none =>
      let directory := FileTree.pathOf p.directory
      let scope (name : String) (operands : List String) : Scope :=
        v.apply (Scope.ofEnvironment name operands pid p.parent directory e)
      let start (s : Session) : World :=
        let isInteractive := s.scope.hasOption 'i'
        let k := if isInteractive then heed pid [15] [] k else k
        let k := k.update pid fun p =>
          { p with caught := if p.ignored.contains interrupt then [] else [interrupt] }
        setImage pid (.shell { s with deaf := p.ignored, directory }) k
      match v.source? (args.headD "") with
      | none => exit pid Session.misuse k
      | some (.text script, name, operands) =>
        start (Session.ofScript (scope name operands) script true)
      | some (.input, name, operands) => start (Session.ofInput (scope name operands))
      | some (.path path, name, operands) =>
        match (k.treeOf pid).find path with
        | .ok (.file bytes) =>
          start (Session.ofScript (scope name operands) (Text.Lossy.text bytes) false)
        | .ok (.device (.descriptor 0)) => start (Session.ofInput (scope name operands))
        | .ok (.program _) | .error _ | .ok (.device .terminal) => exit pid Session.misuse k
        | .ok _ => start (Session.ofScript (scope name operands) "" false)

mutual

/-- A process executes a file. Programs that run commands get less fuel. -/
def launch : Nat → Pid → String → List String → Environment → World → Except Errno World
  | 0, _, _, _, _, _ => .error .tryAgain
  | fuel + 1, pid, path, args, e, k =>
    match executable (k.treeOf pid) path args with
    | .error e => .error e
    | .ok tool => .ok (begin fuel pid tool args e (k.load pid (.task (.exits 0))))

def run : Nat → Pid → List String → Environment → World → World
  | 0, pid, _, _, k => exit pid canceled k
  | fuel + 1, pid, words, e, k =>
    let searchPath := (e.lookup "PATH").getD plainPath
    match findCommand (k.treeOf pid) searchPath words with
    | .error e => exit pid (refusalStatus e) k
    | .ok (path, _) =>
      match launch fuel pid path words e k with
      | .error e => exit pid (refusalStatus e) k
      | .ok k => k

def begin : Nat → Pid → Tool → List String → Environment → World → World
  | 0, pid, _, _, _, k => exit pid canceled k
  | fuel + 1, pid, tool, args, e, k =>
    let operands := args.drop 1
    let perform (t : Task) : World := setTask pid t k
    match tool with
    | .shell => beginShell pid e args k
    | .succeed => perform (.exits 0)
    | .fail => perform (.exits 1)
    | .sleep => perform (sleepTask k.now operands)
    | .echo => perform (echoTask operands)
    | .printf => perform (printfTask operands)
    | .test => perform (testTask (k.treeOf pid) (args.headD "") operands)
    | .cat => perform (catTask operands)
    | .head => perform (headTask { left := some 10, countsLines := true } operands)
    | .seq => perform (seqTask operands)
    | .yes => perform (yesTask operands)
    | .expr => perform (exprTask operands)
    | .printenv => perform (printenvTask e operands)
    | .pwd => perform (.writes (lineOf (FileTree.pathOf (directoryOf pid k))) 0)
    | .env =>
      match Setting.ofArgs operands e with
      | .information => perform (.exits 0)
      | .misuse => perform (.exits canceled)
      | .work s [] =>
        perform (if s.directory.isSome then .exits canceled
          else .writes (showEnvironment s.lineEnd s.environment) 0)
      | .work s words =>
        if s.lineEnd ≠ 10 then perform (.exits canceled)
        else
          let k := heed pid s.ignored (s.usual ++ s.ignored) k
          match s.directory with
          | none => run fuel pid words s.environment k
          | some path =>
            match (k.treeOf pid).enter? path with
            | some tree =>
              run fuel pid words s.environment (k.update pid fun p => { p with directory := tree.working })
            | none => setTask pid (.exits canceled) k
    | .nohup =>
      match operands with
      | ["--help"] | ["--version"] => perform (.exits 0)
      | "--" :: [] | [] => perform (.exits canceled)
      | "--" :: words => run fuel pid words e (heed pid [1] [1] k)
      | a :: words =>
        if Options.isOption a then perform (.exits canceled)
        else run fuel pid (a :: words) e (heed pid [1] [1] k)
    | .nice =>
      if isInformation operands then perform (.exits 0)
      else match niceCommand? operands with
        | none => perform (.exits canceled)
        | some [] => perform (if operands.isEmpty then .writes (lineOf "0") 0 else .exits canceled)
        | some words => run fuel pid words e k
    | .setsid =>
      match Options.sessionCommand? {} operands with
      | none => perform (.exits (if isInformation operands then 0 else misuse))
      | some (o, words) =>
        let leads := (k.proc? pid).any fun p => p.group == pid
        let lead (pid : Pid) (k : World) : World :=
          run fuel pid words e (k.update pid fun p => { p with group := pid })
        if leads || o.forks then
          let (child, k) := k.fork pid (.task (.exits 0))
          let k := lead child k
          if o.waits then setTask pid (.guards { command := child, deadline := none, signal := 0 }) k else k
        else lead pid k
    | .timeout =>
      if isInformation operands then perform (.exits 0)
      else match guardOptions {} (operands.length + 1) operands with
        | some (o, span :: name :: words) =>
          match millisecondsOf? span with
          | none => perform (.exits canceled)
          | some span =>
            let k := if o.coversGroup then k.update pid fun p => { p with group := pid } else k
            let (child, k) := k.fork pid (.task (.exits 0))
            let k := run fuel child (name :: words) e k
            let g : Guard :=
              { command := child, signal := o.signal, patience := o.patience
                coversGroup := o.coversGroup, isFaithful := o.isFaithful
                deadline := (span.filter (0 < ·)).map (k.now + ·) }
            (setTask pid (.guards g) k).update pid fun p =>
              { p with caught := [1, 2, 3, 15, o.signal].filter fun n => !p.ignored.contains n }
        | _ => perform (.exits canceled)

end

/-- More fuel than commands that run each other need: each is a part of the arguments of the one
before. -/
def fuelFor (args : List String) : Nat := args.foldl (fun n a => n + 4 * (a.length + 1)) 8

def execute (pid : Pid) (path : String) (args : List String) (e : Environment) (k : World) :
    Except Errno World :=
  launch (fuelFor args) pid path args e k

end World

end Corun.Program
