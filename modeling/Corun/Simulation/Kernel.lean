import Corun.Os.Channel
import Corun.Os.Signal
import Corun.Os.WaitStatus
import Corun.Simulation.FileTree

namespace Corun.Os

inductive Target where
  | outlet (isError : Bool)
  | file (place : Place)
  | folder (place : Place)
  | device (d : Device)
  | reader (pipe : Nat)
  | writer (pipe : Nat)
deriving DecidableEq

structure OpenFile where
  target : Target
  offset : Nat := 0
  appends : Bool := false
  canRead : Bool := false
  canWrite : Bool := false

structure Descriptor where
  number : Nat
  /-- The open file, which other descriptors may share. -/
  file : Nat
  closesOnExec : Bool := false

inductive Condition where
  | running
  | stopped
  | ended (status : WaitStatus)
deriving DecidableEq

structure Proc (ι : Type) where
  pid : Pid
  parent : Pid
  group : Pid
  image : ι
  descriptors : List Descriptor
  ignored : List Nat := []
  caught : List Nat := []
  pending : List Nat := []
  directory : Place
  condition : Condition := .running

namespace Proc

variable {ι : Type}

def hasEnded (p : Proc ι) : Bool :=
  match p.condition with
  | .ended _ => true
  | _ => false

def status? (p : Proc ι) : Option WaitStatus :=
  match p.condition with
  | .ended status => some status
  | _ => none

def descriptor? (number : Nat) (p : Proc ι) : Option Descriptor :=
  p.descriptors.find? fun d => d.number = number

def closing (number : Nat) (p : Proc ι) : Proc ι :=
  { p with descriptors := p.descriptors.filter fun d => d.number ≠ number }

def opening (d : Descriptor) (p : Proc ι) : Proc ι :=
  { p with descriptors := (p.closing d.number).descriptors ++ [d] }

def freeNumber (least : Nat) (p : Proc ι) : Nat :=
  let numbers := (List.range (p.descriptors.length + 1)).map (least + ·)
  (numbers.find? fun n => (p.descriptor? n).isNone).getD least

end Proc

structure Kernel (ι : Type) where
  /-- Milliseconds. -/
  now : Nat
  tree : FileTree
  /-- In the order in which they were created. Those that ended stay until their parents are told. -/
  procs : List (Proc ι)
  files : List (Nat × OpenFile) := []
  pipes : List (Nat × List UInt8) := []
  nextPid : Pid
  nextName : Nat := 0
  /-- What was written on the standard output of the first process and when, the latest first. -/
  written : List (Nat × List UInt8) := []

namespace Kernel

variable {ι : Type}

def owner : Pid := 0
def init : Pid := 1

def proc? (pid : Pid) (k : Kernel ι) : Option (Proc ι) := k.procs.find? fun p => p.pid == pid

def update (pid : Pid) (f : Proc ι → Proc ι) (k : Kernel ι) : Kernel ι :=
  { k with procs := k.procs.map fun p => if p.pid == pid then f p else p }

def file? (name : Nat) (k : Kernel ι) : Option OpenFile := k.files.lookup name

def behind? (pid : Pid) (number : Nat) (k : Kernel ι) : Option (Nat × OpenFile) := do
  let p ← k.proc? pid
  let d ← p.descriptor? number
  let f ← k.file? d.file
  return (d.file, f)

def holders (target : Target) (k : Kernel ι) : Nat :=
  let names := k.files.filterMap fun (name, f) => if f.target = target then some name else none
  k.procs.foldl (fun total p =>
    total + (p.descriptors.filter fun d => names.contains d.file).length) 0

def channel (pipe : Nat) (k : Kernel ι) : Channel :=
  ⟨(k.pipes.lookup pipe).getD [], k.holders (.reader pipe), k.holders (.writer pipe)⟩

def setPipe (pipe : Nat) (bytes : List UInt8) (k : Kernel ι) : Kernel ι :=
  { k with pipes := k.pipes.map fun e => if e.1 = pipe then (pipe, bytes) else e }

def setFile (name : Nat) (f : OpenFile) (k : Kernel ι) : Kernel ι :=
  { k with files := k.files.map fun e => if e.1 = name then (name, f) else e }

def tidy (k : Kernel ι) : Kernel ι :=
  let held := k.procs.flatMap fun p => p.descriptors.map Descriptor.file
  let files := k.files.filter fun e => held.contains e.1
  let isUsed (pipe : Nat) : Bool := files.any fun e =>
    e.2.target = .reader pipe || e.2.target = .writer pipe
  { k with files, pipes := k.pipes.filter fun e => isUsed e.1 }

inductive Transfer (α : Type) where
  | done (a : α)
  | waits
  | fails (e : Errno)

/-- What a pipe has room for. -/
def pipeSize : Nat := 65536

def readFile (offset count : Nat) (place : Place) (k : Kernel ι) : List UInt8 :=
  match k.tree.root.at? place with
  | some (.file bytes) => (bytes.drop offset).take count
  | _ => []

def readDevice (count : Nat) : Device → Transfer (List UInt8)
  | .zero | .full | .random => .done (List.replicate count 0)
  | _ => .done []

def read (pid : Pid) (number count : Nat) (k : Kernel ι) : Transfer (List UInt8) × Kernel ι :=
  match k.behind? pid number with
  | none => (.fails .badFile, k)
  | some (name, f) =>
    if !f.canRead then (.fails .badFile, k)
    else match f.target with
      | .file place =>
        let bytes := k.readFile f.offset count place
        (.done bytes, k.setFile name { f with offset := f.offset + bytes.length })
      | .folder _ => (.fails .isDirectory, k)
      | .device d => (readDevice count d, k)
      | .outlet _ => (.done [], k)
      | .writer _ => (.fails .badFile, k)
      | .reader pipe =>
        let channel := k.channel pipe
        if channel.blocks then (.waits, k)
        else
          let (bytes, channel) := channel.read count
          (.done bytes, k.setPipe pipe channel.bytes)

/-- Puts bytes into a file from an offset on, over what is there. -/
def overlay (offset : Nat) (bytes old : List UInt8) : List UInt8 :=
  let gap := List.replicate (offset - old.length) 0
  old.take offset ++ gap ++ bytes ++ old.drop (offset + bytes.length)

def writeFile (name : Nat) (f : OpenFile) (bytes : List UInt8) (place : Place) (k : Kernel ι) :
    Kernel ι :=
  match k.tree.root.at? place with
  | some (.file old) =>
    let offset := if f.appends then old.length else f.offset
    let tree := k.tree.put (some (.file (overlay offset bytes old))) place
    { k with tree }.setFile name { f with offset := offset + bytes.length }
  | _ => k

def write (pid : Pid) (number : Nat) (bytes : List UInt8) (k : Kernel ι) :
    Transfer (List UInt8) × Kernel ι :=
  match k.behind? pid number with
  | none => (.fails .badFile, k)
  | some (name, f) =>
    if !f.canWrite then (.fails .badFile, k)
    else if bytes = [] then (.done [], k)
    else match f.target with
      | .outlet isError =>
        (.done [], if isError then k else { k with written := (k.now, bytes) :: k.written })
      | .file place => (.done [], k.writeFile name f bytes place)
      | .device .full => (.fails .noSpace, k)
      | .device _ => (.done [], k)
      | .folder _ | .reader _ => (.fails .badFile, k)
      | .writer pipe =>
        let channel := k.channel pipe
        let room := pipeSize - channel.bytes.length
        match channel.write (bytes.take room) with
        | .ok (_, channel) =>
          if room = 0 ∧ 0 < channel.readers then (.waits, k)
          else if room = 0 then (.fails .brokenPipe, k)
          else (.done (bytes.drop room), k.setPipe pipe channel.bytes)
        | .error e => (.fails e, k)

def addFile (f : OpenFile) (k : Kernel ι) : Nat × Kernel ι :=
  (k.nextName, { k with files := k.files ++ [(k.nextName, f)], nextName := k.nextName + 1 })

def point (pid : Pid) (number file : Nat) (k : Kernel ι) : Kernel ι :=
  (k.update pid (Proc.opening { number, file })).tidy

def close (pid : Pid) (number : Nat) (k : Kernel ι) : Kernel ι :=
  (k.update pid (Proc.closing number)).tidy

def copyDescriptor (pid : Pid) (source number : Nat) (k : Kernel ι) : Except Errno (Kernel ι) :=
  match k.behind? pid source with
  | some (file, _) => .ok (k.point pid number file)
  | none => .error .badFile

def leastKept : Nat := 10

/-- A copy of a descriptor that is kept for later, and closed when a program is executed. -/
def keep? (pid : Pid) (number : Nat) (k : Kernel ι) : Option (Nat × Kernel ι) := do
  let p ← k.proc? pid
  let d ← p.descriptor? number
  let copy := p.freeNumber leastKept
  return (copy, k.update pid (Proc.opening { d with number := copy, closesOnExec := true }))

def openPipe (pid : Pid) (k : Kernel ι) : Nat × Nat × Kernel ι :=
  let name := k.nextName
  let k := { k with pipes := k.pipes ++ [(name, [])], nextName := name + 1 }
  let (reading, k) := k.addFile { target := .reader name, canRead := true }
  let (writing, k) := k.addFile { target := .writer name, canWrite := true }
  match k.proc? pid with
  | none => (0, 0, k)
  | some p =>
    let first : Descriptor := { number := p.freeNumber leastKept, file := reading, closesOnExec := true }
    let p := p.opening first
    let second : Descriptor := { number := p.freeNumber leastKept, file := writing, closesOnExec := true }
    (first.number, second.number, k.update pid fun _ => p.opening second)

def supply (pid : Pid) (number : Nat) (bytes : List UInt8) (k : Kernel ι) : Kernel ι :=
  let name := k.nextName
  let k := { k with pipes := k.pipes ++ [(name, bytes)], nextName := name + 1 }
  let (file, k) := k.addFile { target := .reader name, canRead := true }
  k.point pid number file

structure Opening where
  reads : Bool := false
  writes : Bool := false
  creates : Bool := false
  exclusive : Bool := false
  truncates : Bool := false
  appends : Bool := false

def treeOf (pid : Pid) (k : Kernel ι) : FileTree :=
  match k.proc? pid with
  | some p => { k.tree with working := p.directory }
  | none => k.tree

def createFile (pid : Pid) (path : String) (o : Opening) (k : Kernel ι) :
    Except Errno (OpenFile × Kernel ι) :=
  if path.endsWith "/" then .error .isDirectory
  else match (k.treeOf pid).entryOf path with
    | .error f => .error f.errno
    | .ok (place, name) =>
      let place := place ++ [name]
      .ok ({ target := .file place, appends := o.appends, canRead := o.reads, canWrite := o.writes },
        { k with tree := k.tree.put (some (.file [])) place })

def openPath (pid : Pid) (path : String) (o : Opening) (k : Kernel ι) :
    Except Errno (Nat × Kernel ι) :=
  let tree := k.treeOf pid
  match tree.locate path with
  | .error .missing =>
    if o.creates then do
      let (f, k) ← k.createFile pid path o
      return k.addFile f
    else .error .noEntry
  | .error f => .error f.errno
  | .ok place =>
    let add (target : Target) (k : Kernel ι) : Except Errno (Nat × Kernel ι) :=
      .ok (k.addFile { target, appends := o.appends, canRead := o.reads, canWrite := o.writes })
    match tree.root.at? place with
    | some (.file _) =>
      if o.exclusive then .error .fileExists
      else
        let k := if o.truncates then { k with tree := k.tree.put (some (.file [])) place } else k
        add (.file place) k
    | some (.directory _) => if o.writes then .error .isDirectory else add (.folder place) k
    | some (.program _) => if o.writes then .error .textBusy else add (.file place) k
    | some (.device .terminal) => .error .noDevice
    | some (.device (.descriptor number)) =>
      match k.behind? pid number with
      | some (name, _) => .ok (name, k)
      | none => .error .noEntry
    | some (.device d) => add (.device d) k
    | _ => .error .noEntry

def fork (pid : Pid) (image : ι) (k : Kernel ι) : Pid × Kernel ι :=
  match k.proc? pid with
  | none => (k.nextPid, k)
  | some p =>
    let child := { p with pid := k.nextPid, parent := pid, image, pending := [] }
    (k.nextPid, { k with procs := k.procs ++ [child], nextPid := k.nextPid + 1 })

/-- A process takes a new image. Signals that it handled do again what they do by themselves. -/
def load (pid : Pid) (image : ι) (k : Kernel ι) : Kernel ι :=
  (k.update pid fun p =>
    { p with image, caught := [], descriptors := p.descriptors.filter fun d => !d.closesOnExec }).tidy

def isTold (p : Proc ι) (k : Kernel ι) : Bool :=
  p.parent == owner || (k.proc? p.parent).any fun q => !q.hasEnded

def bury (k : Kernel ι) : Kernel ι :=
  { k with procs := k.procs.filter fun p => !p.hasEnded || k.isTold p }

def note (n : Nat) (p : Proc ι) : Proc ι :=
  if p.pending.contains n then p else { p with pending := p.pending ++ [n] }

def tell (parent : Pid) (k : Kernel ι) : Kernel ι :=
  k.update parent fun p =>
    if p.caught.contains Signal.child.number then note Signal.child.number p else p

/-- A process ends. Its children become orphans. -/
def finish (pid : Pid) (status : WaitStatus) (k : Kernel ι) : Kernel ι :=
  let k := (((k.proc? pid).map Proc.parent).map fun parent => k.tell parent).getD k
  let k := k.update pid fun p => { p with descriptors := [], pending := [], condition := .ended status }
  let adopted (p : Proc ι) : Proc ι := if p.parent == pid then { p with parent := init } else p
  ({ k with procs := k.procs.map adopted }.bury).tidy

/-- The status of a child that has ended. The child is then gone. -/
def reap? (parent pid : Pid) (k : Kernel ι) : Option (WaitStatus × Kernel ι) := do
  let p ← k.proc? pid
  if p.parent == parent then
    let status ← p.status?
    return (status, { k with procs := k.procs.filter fun p => p.pid != pid })
  else none

inductive Effect where
  | none
  | dies
  | stops
  | waits
deriving DecidableEq

def isStop (n : Nat) : Bool := n = 20 || n = 21 || n = 22

def greatestSignal : Nat := 64

/-- The group of the first process, unless that leads one. -/
def ownerGroup : Pid := 0

/-- The group that the parent of a process is in. Orphans count as those of their own group. -/
def parentGroup (p : Proc ι) (k : Kernel ι) : Pid :=
  if p.parent == owner then ownerGroup
  else ((k.proc? p.parent).map Proc.group).getD p.group

/-- Whether a group has a parent outside, who might continue it when it stops. -/
def isCared (group : Pid) (k : Kernel ι) : Bool :=
  k.procs.any fun p => p.group == group && !p.hasEnded && k.parentGroup p != group

def effect (n : Nat) (p : Proc ι) (k : Kernel ι) : Effect :=
  if p.hasEnded then .none
  else if n = Signal.kill.number then .dies
  else if n = Signal.stop.number then .stops
  else if p.ignored.contains n then .none
  else if p.caught.contains n then .waits
  else if isStop n then if k.isCared p.group then .stops else .none
  else if (Signal.ofNumber? n).any Signal.isHarmless then .none
  else if p.condition = .stopped then .waits
  else .dies

def settle (pid : Pid) (k : Kernel ι) : Kernel ι :=
  match (k.proc? pid).bind fun p => p.pending.find? fun n => !p.caught.contains n with
  | some n => k.finish pid (.killed n)
  | none => k

def post (n : Nat) (pid : Pid) (k : Kernel ι) : Kernel ι :=
  match k.proc? pid with
  | none => k
  | some p =>
    let k := if n = Signal.continued.number ∧ p.condition = .stopped then
        (k.update pid fun p => { p with condition := .running }).settle pid
      else k
    match k.effect n p with
    | .none => k
    | .dies => k.finish pid (.killed n)
    | .stops => k.update pid fun p => { p with condition := .stopped }
    | .waits => k.update pid (note n)

/-- Those that a target of a signal stands for. Below zero it is a group. -/
def targets (sender : Pid) (target : Int) (k : Kernel ι) : List Pid :=
  let ofGroup (group : Pid) : List Pid :=
    (k.procs.filter fun p => p.group == group).map Proc.pid
  if 0 < target then ((k.proc? target).map Proc.pid).toList
  else if target = 0 then ((k.proc? sender).map fun p => ofGroup p.group).getD []
  else ofGroup (-target)

/-- Sends a signal. Number zero only asks whether there is somebody. -/
def send (sender : Pid) (n : Nat) (target : Int) (k : Kernel ι) : Except Errno (Kernel ι) :=
  if greatestSignal < n then .error .invalidArgument
  else
    let pids := k.targets sender target
    if pids = [] then
      if target = init ∨ (k.proc? sender).any fun p => target = p.parent then .ok k
      else .error .noProcess
    else if n = 0 then .ok k
    else .ok (pids.foldl (fun k pid => k.post n pid) k)

end Kernel

end Corun.Os
