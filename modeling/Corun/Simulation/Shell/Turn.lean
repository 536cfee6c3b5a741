import Corun.Simulation.Shell.Builtin

namespace Corun.Shell
open Os Program

namespace Turn

def keep (pid : Pid) (s : Session) (k : World) : World := World.setImage pid (.shell s) k

/-- A process with a shell of its own. It reacts to interrupts as this one does, and to no other
signal. -/
def spawn (pid : Pid) (s : Session) (k : World) : Pid × World :=
  let (child, k) := k.fork pid (.shell s)
  (child, k.update child fun p => { p with caught := p.caught.filter (· = World.interrupt) })

def gather (pid : Pid) (s : Session) (k : World) : Session × World :=
  let ended := (k.procs.filter fun p => p.parent == pid && p.hasEnded).map Proc.pid
  ended.foldl (fun (s, k) child =>
    match k.reap? pid child with
    | some (status, k) => ({ s with known := s.known ++ [(child, status)] }, k)
    | none => (s, k)) (s, k)

def jobStatus? (pids : List Pid) (s : Session) : Option Nat := do
  if pids.all fun pid => (s.known.lookup pid).isSome then
    return Session.statusOf (← s.known.lookup (← pids.getLast?))
  else none

/-- A process that is in the background does not hear interrupts. -/
def muffle (pid : Pid) (k : World) : World :=
  k.update pid fun p =>
    { p with
      ignored := [2, 3] ++ p.ignored.filter fun n => n ≠ 2 && n ≠ 3
      caught := p.caught.filter fun n => n ≠ 2 && n ≠ 3 }

def nullInput (pid : Pid) (k : World) : World :=
  let (file, k) := k.addFile { target := .device .null, canRead := true }
  k.point pid 0 file

inductive Route where
  | file (d : Direction) (path : String)
  | copy (number source : Nat)
  | close (number : Nat)
  | text (number : Nat) (bytes : List UInt8)

def Route.number : Route → Nat
  | file d _ => d.number
  | copy number _ => number
  | close number => number
  | text number _ => number

def route : Redirect → Expanding Route
  | .file d w => return .file d (← Expansion.wholeText (Expansion.withHome ['/'] w (← Expansion.scopeNow)))
  | .copy number w => do
    let text ← Expansion.wholeText w
    match text.toList with
    | ['-'] => return .close number
    | [c] => if c.isDigit then return .copy number (c.toNat - '0'.toNat) else Expansion.fault
    | _ => Expansion.fault
  | .text number w => return .text number (bytesOf (← Expansion.wholeText w))

def openingOf (tree : FileTree) (s : Session) (d : Direction) (path : String) : Kernel.Opening :=
  match d.opening with
  | .input => { reads := true }
  | .output =>
    let isGuarded := s.scope.hasOption 'C'
      && !(tree.find path).toOption.any fun node => !Question.isRegular node
    { writes := true, creates := true, truncates := true, exclusive := isGuarded }
  | .clobber => { writes := true, creates := true, truncates := true }
  | .append => { writes := true, creates := true, appends := true }
  | .both => { reads := true, writes := true, creates := true }

def follow (pid : Pid) (s : Session) (r : Route) (k : World) : Option World :=
  match r with
  | .file d path =>
    match k.openPath pid path (openingOf (k.treeOf pid) s d path) with
    | .ok (file, k) => some (k.point pid d.number file)
    | .error _ => none
  | .copy number source => (k.copyDescriptor pid source number).toOption
  | .close number => some (k.close pid number)
  | .text number bytes => some (k.supply pid number bytes)

def followAll (pid : Pid) (s : Session) : List Route → World → Option World
  | [], k => some k
  | r :: rs, k => do followAll pid s rs (← follow pid s r k)

def restoreDescriptors (pid : Pid) : List (Nat × Option Nat) → World → World
  | [], k => k
  | (number, kept) :: more, k =>
    let k := match kept with
      | some copy => ((k.copyDescriptor pid copy number).toOption.getD k).close pid copy
      | none => k.close pid number
    restoreDescriptors pid more k

/-- Follows redirections, and keeps what is to be put back. What was done before one of them fails is
put back at once. -/
def followKeeping (pid : Pid) (s : Session) : List Route → List (Nat × Option Nat) → World →
    Except World (List (Nat × Option Nat) × World)
  | [], kept, k => .ok (kept, k)
  | r :: rs, kept, k =>
    let (kept, k) :=
      if (kept.lookup r.number).isSome then (kept, k)
      else match k.keep? pid r.number with
        | some (copy, k) => ((r.number, some copy) :: kept, k)
        | none => ((r.number, none) :: kept, k)
    match follow pid s r k with
    | some k => followKeeping pid s rs kept k
    | none => .error (restoreDescriptors pid kept k)

def restore (pid : Pid) (b : Backup) (s : Session) (k : World) : Session × World :=
  let scope := b.entries.foldl (fun scope (name, v) => scope.restoreVariable name v) s.scope
  ({ s with scope }, restoreDescriptors pid b.descriptors k)

def withBackup (b : Backup) (s : Session) : Session := if b.isEmpty then s else s.push (.restore b)

def quit (pid : Pid) (status : Nat) (s : Session) (k : World) : World :=
  match s.traps.lookup 0 with
  | some action =>
    let s := { s.withStatus status with
      traps := s.traps.filter (·.1 ≠ 0)
      frames := [.script action.toList .trap status {}, .last status] }
    keep pid (s.go .reading) k
  | none => World.exit pid status k

def judged (st : Standing) (s : Session) : Session :=
  if s.scope.hasOption 'e' && !st.isTested then s.push .judgment else s

/-- Starts the parts of a pipeline, each of which reads what the one before writes. -/
def startParts (pid : Pid) (st : Standing) (inBackground : Bool) (s : Session) :
    List Command → Option Nat → List Pid → World → List Pid × World
  | [], _, pids, k => (pids, k)
  | c :: cs, input, pids, k =>
    let (ends, k) : Option (Nat × Nat) × World :=
      if cs.isEmpty then (none, k)
      else
        let (reading, writing, k) := k.openPipe pid
        (some (reading, writing), k)
    let (child, k) :=
      spawn pid (if inBackground then s.backgroundChild c else s.child c st.isTested) k
    let k := if inBackground ∧ pids.isEmpty then nullInput child k else k
    let lead (source number : Nat) (k : World) : World :=
      ((k.copyDescriptor child source number).toOption.getD k).close child source
    let k := match input with
      | some number => lead number 0 k
      | none => k
    let k := match ends with
      | some (reading, writing) => lead writing 1 (k.close child reading)
      | none => k
    let k := match input with
      | some number => k.close pid number
      | none => k
    let k := match ends with
      | some (_, writing) => k.close pid writing
      | none => k
    startParts pid st inBackground s cs (ends.map Prod.fst) (pids ++ [child]) k

def begin (pid : Pid) (c : Command) (st : Standing) (s : Session) (k : World) : World :=
  let tested : Standing := { isTested := true }
  let plain : Standing := { isTested := st.isTested }
  let go (s : Session) : World := keep pid s k
  match c with
  | .nothing => go (s.finish s.scope.status)
  | .simple given words redirects => go ((judged st s).go (.pursuing (.simple given words redirects st) []))
  | .pipeline parts =>
    let (pids, k) := startParts pid st false s parts none [] k
    keep pid ((judged st s.makeRoom).go (.awaiting pids)) k
  | .negation c => go ((s.push .negation).go (.running c tested))
  | .conjunction a b => go ((s.push (.sequelIf true b st)).go (.running a tested))
  | .disjunction a b => go ((s.push (.sequelIf false b st)).go (.running a tested))
  | .sequence a b => go ((s.push (.sequel b st)).go (.running a plain))
  | .background (.pipeline parts) =>
    let (pids, k) := startParts pid st true s parts none [] k
    keep pid (s.makeRoom.addJob pids) k
  | .background (.redirected c redirects) => go (s.go (.pursuing (.background c redirects) []))
  | .background c => go (s.go (.pursuing (.background c []) []))
  | .redirected (.nested c) redirects =>
    go ((judged st s).go (.pursuing (.nested c redirects st) []))
  | .nested c => go ((judged st s).go (.pursuing (.nested c [] st) []))
  | .redirected c redirects => go (s.go (.pursuing (.redirected c redirects plain) []))
  | .choice condition yes no => go ((s.push (.branch yes no st)).go (.running condition tested))
  | .repetition wanted condition body =>
    go ((s.push (.loopCondition wanted condition body plain 0)).go (.running condition tested))
  | .iteration name words body => go (s.go (.pursuing (.iteration name words body plain) []))
  | .selection w clauses => go (s.go (.pursuing (.selection w clauses st) []))
  | .definition name body =>
    let others := s.functions.filter fun f => f.1 ≠ name
    go ({ s with functions := others ++ [(name, body)] }.finish 0)

/-- Commands whose operands may be assignments, the values of which are one field each. -/
def declares (words : List Word) : Bool :=
  match words.filterMap letters? with
  | "command" :: name :: _ | name :: _ => ["export", "readonly", "local"].contains name
  | [] => false

def declaredFields (tree : FileTree) (words : List Word) : Expanding (List String) := do
  let parts ← words.mapM fun w =>
    match assignment? w with
    | some (name, value) => return [name ++ "=" ++ (← Expansion.assigned value)]
    | none => Expansion.fields tree [w]
  return parts.flatten

def fieldsOf (tree : FileTree) (words : List Word) : Expanding (List String) :=
  if declares words then declaredFields tree words else Expansion.fields tree words

structure Wanted where
  words : List String
  seesFunctions : Bool := true
  isBrief : Option Bool := none

/-- Takes `command` off the front; nothing if its options make no sense. -/
def wanted : Nat → Wanted → Option Wanted
  | 0, w => some w
  | fuel + 1, w =>
    match w.words with
    | "command" :: args => do
      let (found, words) ← Builtin.options? ['p', 'v', 'V'] [] args
      if (found.lookup 'v').isSome then return { w with words, isBrief := some true }
      if (found.lookup 'V').isSome then return { w with words, isBrief := some false }
      wanted fuel { w with words, seesFunctions := false }
    | _ => some w

/-- The status of a command that the shell cannot execute. It counts as not found also where its path
leads nowhere. -/
def refusalStatus (e : Errno) : Nat :=
  if e = .noEntry ∨ e = .notDirectory ∨ e = .nameTooLong then Session.notFound
  else Session.notExecutable

/-- Runs a program, in place of the shell if nothing comes after it. -/
def runFile (pid : Pid) (path : String) (r : Ready) (words : List String) (s : Session) (k : World) :
    World :=
  let e := s.scope.environment
  if r.standing.isLast ∧ !s.hasTraps then
    match World.execute pid path words e k with
    | .ok k => k
    | .error e => keep pid (s.giveUp (refusalStatus e)) k
  else
    let (child, k) := k.fork pid (.task (.exits 0))
    let k := match World.execute child path words e k with
      | .ok k => k
      | .error e => World.exit child (refusalStatus e) k
    keep pid ((withBackup r.backup s.makeRoom).go (.awaiting [child])) k

def replace (pid : Pid) (words : List String) (s : Session) (k : World) : World :=
  let searchPath := ":".intercalate s.scope.searchPath
  match findCommand (k.treeOf pid) searchPath words with
  | .error e => keep pid (s.giveUp (refusalStatus e)) k
  | .ok (path, _) =>
    match World.execute pid path words s.scope.environment k with
    | .ok k => k
    | .error e => keep pid (s.giveUp (refusalStatus e)) k

def deepest : Nat := 1000

def dispatch (pid : Pid) (r : Ready) (s : Session) (k : World) : World :=
  let finish (status : Nat) : World := keep pid ((withBackup r.backup s).finish status) k
  let builtin (name : String) (args : List String) (isSpecial : Bool) : World :=
    let (s, k) := Builtin.run ⟨name, args, isSpecial, r.standing⟩ pid (withBackup r.backup s) k
    keep pid s k
  match r.fields, wanted (r.fields.length + 1) { words := r.fields } with
  | [], _ => finish r.status
  | _, none => finish Session.misuse
  | _, some w =>
    let tree := k.treeOf pid
    match w.isBrief, w.words with
    | some isBrief, words => keep pid (Builtin.describe tree isBrief words (withBackup r.backup s)) k
    | none, [] => finish 0
    | none, "exec" :: [] => finish 0
    | none, "exec" :: words => replace pid words s k
    | none, "local" :: args =>
      if w.seesFunctions then builtin "local" args true else finish 0
    | none, name :: args =>
      match Lookup.find tree s w.seesFunctions name with
      | .special => builtin name args w.seesFunctions
      | .builtin => builtin name args false
      | .function body =>
        if s.callDepth = deepest then keep pid (s.giveUp Session.misuse) k
        else
          let s := (withBackup r.backup s).push (.call s.scope.operands s.scope.optionPlace [])
          keep pid ({ s with scope := s.scope.withOperands args }.go
            (.running body { isTested := r.standing.isTested })) k
      | .file path => runFile pid path r (name :: args) s k
      | .nothing => finish Session.notFound

inductive Giving where
  | stays (isExported : Bool)
  | passes

def giving (r : Ready) : Giving :=
  match r.fields with
  | [] => .stays false
  | "exec" :: words => .stays (!words.isEmpty)
  | name :: _ => if Reader.specialBuiltins.contains name then .stays false else .passes

def give (exports : Bool) : List (String × Word) → Expanding Unit
  | [] => return ()
  | (name, w) :: more => do
    Expansion.assign name (← Expansion.assigned w)
    if exports then modify fun e => { e with scope := e.scope.publish name }
    give exports more

inductive Pursued (α : Type) where
  | done (a : α) (e : Expansion)
  | asks (c : Command) (s : Scope)
  | fault

def expand (x : Expanding α) (answers : List Answer) (s : Session) : Pursued α :=
  match x.run { scope := s.scope, answers } with
  | .ok (a, e) => .done a e
  | .error (.asks c scope) => .asks c scope
  | .error .fault => .fault

def listen (pid : Pid) (p : Pursuit) (answers : List Answer) (c : Command) (scope : Scope)
    (s : Session) (k : World) : World :=
  let (reading, writing, k) := k.openPipe pid
  let (child, k) := spawn pid ({ s with scope }.child c false) k
  let k := (k.copyDescriptor child writing 1).toOption.getD k
  let k := ((k.close child writing).close child reading).close pid writing
  keep pid (s.makeRoom.go (.listening p answers reading child [])) k

def pursueWith (x : Expanding α) (pid : Pid) (p : Pursuit) (answers : List Answer) (s : Session)
    (k : World) (next : α → Expansion → Session → World) : World :=
  match expand x answers s with
  | .fault => keep pid (s.giveUp Session.misuse) k
  | .asks c scope => listen pid p answers c scope s k
  | .done a e => next a e { s with scope := e.scope }

def fitsOne (text : String) : List Word → Expanding Bool
  | [] => return false
  | w :: more => do
    let marks ← Expansion.whole (Expansion.withHome ['/'] w (← Expansion.scopeNow))
    if Pattern.fits (Pattern.ofMarks marks) text then return true else fitsOne text more

def select (text : String) : List (List Word × Command) → Expanding (Option Command)
  | [] => return none
  | (patterns, c) :: more => do
    if ← fitsOne text patterns then return some c else select text more

def redirectsForGood (fields : List String) : Bool :=
  match fields with
  | ["exec"] => true
  | "command" :: more => more = ["exec"]
  | _ => false

def isSpecialCommand (fields : List String) : Bool :=
  (fields.head?).any Reader.specialBuiltins.contains

def nextRound (pid : Pid) (name : String) (values : List String) (body : Command) (st : Standing)
    (status : Nat) (s : Session) (k : World) : World :=
  match values with
  | [] => keep pid (s.finish status) k
  | value :: values =>
    match s.scope.assign name value with
    | some scope =>
      keep pid (({ s with scope }.push (.each name values body st)).go (.running body st)) k
    | none => keep pid (s.giveUp Session.misuse) k

def pursue (pid : Pid) (p : Pursuit) (answers : List Answer) (s : Session) (k : World) : World :=
  let tree := k.treeOf pid
  match p with
  | .simple given words redirects st =>
    let x : Expanding (List String × List Route) := do
      return (← fieldsOf tree words, ← redirects.mapM route)
    pursueWith x pid p answers s k fun (fields, routes) e s =>
      let ready (descriptors : List (Nat × Option Nat)) : Ready :=
        { fields, given, backup := { descriptors }, status := e.status.getD 0, standing := st }
      let failed (k : World) : World :=
        keep pid (if isSpecialCommand fields then s.giveUp Session.misuse
          else s.finish Session.misuse) k
      if redirectsForGood fields then
        match followAll pid s routes k with
        | some k => keep pid (s.go (.pursuing (.assigning (ready [])) [])) k
        | none => failed k
      else match followKeeping pid s routes [] k with
        | .ok (kept, k) => keep pid (s.go (.pursuing (.assigning (ready kept)) [])) k
        | .error k => failed k
  | .assigning r =>
    let exports := match giving r with
      | .stays isExported => isExported
      | .passes => true
    let before := r.given.map fun (name, _) => (name, s.scope.entry? name)
    pursueWith (give exports r.given) pid p answers s k fun _ e s =>
      let entries := match giving r with
        | .stays _ => []
        | .passes => before
      dispatch pid { r with
        backup := { r.backup with entries }, status := e.status.getD r.status } s k
  | .redirected c redirects st =>
    pursueWith (redirects.mapM route) pid p answers s k fun routes _ s =>
      match followKeeping pid s routes [] k with
      | .ok (descriptors, k) =>
        keep pid ((withBackup { descriptors } s).go (.running c st)) k
      | .error k => keep pid ((judged st s).finish Session.misuse) k
  | .nested c redirects st =>
    pursueWith (redirects.mapM route) pid p answers s k fun routes _ s =>
      if st.isLast ∧ !s.hasTraps then
        match followAll pid s routes k with
        | some k => keep pid ({ s with frames := [], jobs := [] }.go (.running c st)) k
        | none => keep pid (s.giveUp Session.misuse) k
      else
        let (child, k) := spawn pid (s.child c st.isTested) k
        let k := match followAll child s routes k with
          | some k => k
          | none => World.exit child Session.misuse k
        keep pid (s.makeRoom.go (.awaiting [child])) k
  | .background c redirects =>
    pursueWith (redirects.mapM route) pid p answers s k fun routes _ s =>
      let (child, k) := spawn pid (s.backgroundChild c) k
      let k := nullInput child k
      let k := match followAll child s routes k with
        | some k => k
        | none => World.exit child Session.misuse k
      keep pid (s.makeRoom.addJob [child]) k
  | .iteration name words body st =>
    pursueWith (Expansion.fields tree words) pid p answers s k fun values _ s =>
      nextRound pid name values body st 0 s k
  | .selection w clauses st =>
    let x : Expanding (Option Command) := do
      select (← Expansion.wholeText (Expansion.withHome ['/'] w (← Expansion.scopeNow))) clauses
    pursueWith x pid p answers s k fun c _ s =>
      match c with
      | none | some .nothing => keep pid (s.finish 0) k
      | some c => keep pid (s.go (.running c st)) k

def readLine (pid : Pid) (s : Session) (k : World) : World :=
  match s.frames with
  | .script rest origin status st :: frames =>
    match Reader.firstLine s.aliases rest with
    | .ended =>
      let status := if origin = .given then s.scope.status else status
      keep pid ({ s with frames }.finish status) k
    | .broken => keep pid (s.giveUp Session.misuse) k
    | .command c rest isLast =>
      let s := { s with frames := .script rest origin status st :: frames }
      if Reader.isNothing c then keep pid (s.go .reading) k
      else keep pid (s.go (.running c { st with isLast := st.isLast && isLast })) k
  | _ => keep pid (s.finish s.scope.status) k

/-- Goes on after a command. -/
def resume (pid : Pid) (status : Nat) (s : Session) (k : World) : World :=
  match s.frames with
  | [] => quit pid status s k
  | f :: frames =>
    let below := { s.withStatus status with frames }
    let go (s : Session) : World := keep pid s k
    match f with
    | .script rest origin _ st =>
      go ({ below with frames := .script rest origin status st :: frames }.go .reading)
    | .sequel c st => go (below.go (.running c st))
    | .sequelIf success c st =>
      if (status == 0) == success then go (below.go (.running c st)) else go (below.finish status)
    | .negation => go (below.finish (if status = 0 then 1 else 0))
    | .branch yes no st =>
      if status = 0 then go (below.go (.running yes st))
      else if Reader.isNothing no then go (below.finish 0)
      else go (below.go (.running no st))
    | .loopCondition wanted condition body st last =>
      if (status == 0) == wanted then
        go ((below.push (.loopBody wanted condition body st)).go (.running body st))
      else go (below.finish last)
    | .loopBody wanted condition body st =>
      go ((below.push (.loopCondition wanted condition body st status)).go
        (.running condition { isTested := true }))
    | .each name values body st => nextRound pid name values body st status below k
    | .judgment => if status = 0 then go (below.finish 0) else go (below.giveUp status)
    | .restore b =>
      let (s, k) := restore pid b below k
      keep pid (s.finish status) k
    | .call operands optionPlace locals =>
      let (s, k) := restore pid { entries := locals } below k
      keep pid ({ s with scope := { s.scope with operands, optionPlace } }.finish status) k
    | .resume before => go (below.finish before)
    | .last before => World.exit pid before k

/-- Leaves one more of the things that the shell would go on with. A shell that ends keeps its variables
as they are. -/
def leave (pid : Pid) (l : Leave) (s : Session) (k : World) : World :=
  match s.frames with
  | [] =>
    match l with
    | .exits status | .returns status => quit pid status s k
    | _ => quit pid s.scope.status s k
  | f :: frames =>
    let below := { s with frames }
    let on (s : Session) (k : World) : World := keep pid (s.go (.leaving l)) k
    match f, l with
    | .restore b, .exits _ => on below (restoreDescriptors pid b.descriptors k)
    | .restore b, _ =>
      let (s, k) := restore pid b below k
      on s k
    | .call operands optionPlace _, .exits _ =>
      on { below with scope := { below.scope with operands, optionPlace } } k
    | .call operands optionPlace locals, l =>
      let (s, k) := restore pid { entries := locals } below k
      let s := { s with scope := { s.scope with operands, optionPlace } }
      match l with
      | .returns status => keep pid (s.finish status) k
      | _ => on s k
    | .last _, .exits status => World.exit pid status k
    | .last before, _ => World.exit pid before k
    | .script _ .file _ _, .returns status | .script _ .given _ _, .returns status =>
      keep pid (below.finish status) k
    | .judgment, .returns status =>
      if status = 0 then on below k else keep pid (below.giveUp status) k
    | .loopCondition _ _ _ _ last, .breaks n =>
      keep pid (if n ≤ 1 then below.finish last else below.go (.leaving (.breaks (n - 1)))) k
    | .loopBody .., .breaks n | .each .., .breaks n =>
      keep pid (if n ≤ 1 then below.finish 0 else below.go (.leaving (.breaks (n - 1)))) k
    | .loopCondition wanted condition body st last, .continues n =>
      if n ≤ 1 then
        keep pid ((below.push (.loopCondition wanted condition body st last)).go
          (.running condition { isTested := true })) k
      else keep pid (below.go (.leaving (.continues (n - 1)))) k
    | .loopBody wanted condition body st, .continues n =>
      if n ≤ 1 then
        keep pid ((below.push (.loopCondition wanted condition body st 0)).go
          (.running condition { isTested := true })) k
      else keep pid (below.go (.leaving (.continues (n - 1)))) k
    | .each name values body st, .continues n =>
      if n ≤ 1 then nextRound pid name values body st 0 below k
      else keep pid (below.go (.leaving (.continues (n - 1)))) k
    | _, _ => on below k

def trap? (p : Proc Image) (s : Session) : Option (Nat × String) :=
  let due := p.pending.filterMap fun n => (s.traps.lookup n).map (n, ·)
  (due.mergeSort fun a b => a.1 ≤ b.1).head?

def isShielded : Focus → Bool
  | .awaiting _ | .listening .. | .hearing .. => true
  | _ => false

def isInterrupted (p : Proc Image) (s : Session) : Bool :=
  p.pending.contains World.interrupt && (s.traps.lookup World.interrupt).isNone
    && !isShielded s.focus

def forget (pid : Pid) (n : Nat) (k : World) : World :=
  k.update pid fun p => { p with pending := p.pending.erase n }

def chunk : Nat := 4096

def hear (pid : Pid) (p : Pursuit) (answers : List Answer) (number : Nat) (child : Pid)
    (bytes : List UInt8) (s : Session) (k : World) : Option World :=
  let ended (k : World) : World :=
    let isText (b : UInt8) : Bool := b ≠ 0
    keep pid (s.go (.hearing p answers child (Text.Lossy.text (bytes.filter isText))))
      (k.close pid number)
  match k.read pid number chunk with
  | (.waits, _) => none
  | (.fails _, k) | (.done [], k) => some (ended k)
  | (.done more, k) => some (keep pid (s.go (.listening p answers number child (bytes ++ more))) k)

/-- Waits for jobs one after another. -/
def waitFor (pid : Pid) (status : Option Nat) : List (List Pid) → Session → World → Option World
  | [], s, k => some (keep pid (s.finish (status.getD 0)) k)
  | pids :: jobs, s, k =>
    let last (n : Nat) : Option Nat := status.map fun _ => n
    if pids = [] then waitFor pid (last Session.notFound) jobs s k
    else match jobStatus? pids s with
      | some n => waitFor pid (last n) jobs (s.settleJob pids) k
      | none => none

def marksOf : List (UInt8 × Bool) → List UInt8 → List Mark
  | [], plain => Mark.plain (Text.Lossy.text plain).toList
  | (b, true) :: more, plain =>
    Mark.plain (Text.Lossy.text plain).toList
      ++ Mark.quoted (Text.Lossy.text [b]).toList ++ marksOf more []
  | (b, false) :: more, plain => marksOf more (plain ++ [b])

def deal (names : List String) (bytes : List (UInt8 × Bool)) (status : Nat) (s : Session) : Session :=
  let values := Builtin.splitLine s.scope.separators.toList names.length (marksOf bytes [])
  match Builtin.deal names values s.scope with
  | some scope => { s with scope }.finish status
  | none => s.finish Session.misuse

def take (p : Proc Image) (names : List String) (isRaw : Bool) (bytes : List (UInt8 × Bool))
    (isEscaped : Bool) (s : Session) (k : World) : Option World :=
  let go (bytes : List (UInt8 × Bool)) (isEscaped : Bool) (k : World) : World :=
    keep p.pid (s.go (.taking names isRaw bytes isEscaped)) k
  match k.read p.pid 0 1 with
  | (.waits, k) => if (trap? p s).isSome then some (keep p.pid (deal names bytes 1 s) k) else none
  | (.fails _, k) | (.done [], k) => some (keep p.pid (deal names bytes 1 s) k)
  | (.done (b :: _), k) =>
    some (if b = 0 then go bytes isEscaped k
      else if isEscaped then go (if b = 10 then bytes else bytes ++ [(b, true)]) false k
      else if b = 92 ∧ !isRaw then go bytes true k
      else if b = 10 then keep p.pid (deal names bytes 0 s) k
      else go (bytes ++ [(b, false)]) false k)

def slurp (pid : Pid) (bytes : List UInt8) (s : Session) (k : World) : Option World :=
  let ended (k : World) : World :=
    let script := Text.Lossy.text bytes
    keep pid ((s.push (.script script.toList .given 0 {})).go .reading) k
  match k.read pid 0 chunk with
  | (.waits, _) => none
  | (.fails _, k) | (.done [], k) => some (ended k)
  | (.done more, k) => some (keep pid (s.go (.slurping (bytes ++ more))) k)

def step (p : Proc Image) (s : Session) (k : World) : Option World :=
  let pid := p.pid
  if isInterrupted p s then some (k.finish pid (.killed World.interrupt))
  else match s.focus with
    | .slurping bytes => slurp pid bytes s k
    | .reading => some (readLine pid s k)
    | .running c st =>
      some (if s.scope.hasOption 'n' then keep pid (s.finish s.scope.status) k
        else begin pid c st s k)
    | .withdrawing c st => some (keep pid (s.go (.running c st)) (muffle pid k))
    | .pursuing p answers => some (pursue pid p answers s k)
    | .listening p answers number child bytes => hear pid p answers number child bytes s k
    | .hearing p answers child text =>
      let (s, k) := gather pid s k
      (s.known.lookup child).map fun status =>
        keep pid (s.go (.pursuing p (answers ++ [⟨text, Session.statusOf status⟩]))) k
    | .writing number bytes status =>
      if bytes = [] then some (keep pid (s.finish status) k)
      else match World.offer pid number bytes k with
        | (.rest rest, k) => some (keep pid (s.go (.writing number rest status)) k)
        | (.waits, _) => none
        | (.fails, k) => some (keep pid (s.finish (status ||| 1)) k)
    | .awaiting pids =>
      let (s, k) := gather pid s k
      (jobStatus? pids s).map fun status => keep pid (s.finish status) k
    | .waiting jobs status =>
      let interrupted (s : Session) (k : World) (t : Nat × String) : World :=
        keep pid (s.finish (128 + t.1)) k
      match (trap? p s).filter fun t => t.1 ≠ Signal.child.number with
      | some t => some (interrupted s k t)
      | none =>
        let (s, k) := gather pid s k
        (waitFor pid status jobs s k).orElse fun _ => (trap? p s).map (interrupted s k)
    | .taking names isRaw bytes isEscaped => take p names isRaw bytes isEscaped s k
    | .done status =>
      match trap? p s with
      | some (n, action) =>
        let s := (s.push (.resume status)).push (.script action.toList .trap 0 {})
        some (keep pid (s.go .reading) (forget pid n k))
      | none => some (resume pid status s k)
    | .leaving l => some (leave pid l s k)

end Turn

end Corun.Shell
