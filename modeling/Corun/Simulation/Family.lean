import Corun.Simulation.Child
import Corun.Watch

namespace Corun
open Os Child Program

structure Family.Member where
  gated : Gated
  job : Option Job := none
  history : List Gated.Entry := []
  isDropped : Bool := false
  isAwaited : Bool := false
  threads : Nat := 0
  /-- Those of them that were not asked since. -/
  awaiters : List Nat := []

structure Family where
  tree : FileTree
  now : Nat
  members : List Family.Member
  watch : Watch
  direct : List Pid
  nextPid : Pid

namespace Family

def owner : Nat := 0
def watcher : Nat := 1
def firstAwaiter : Nat := 2

def create (tree : FileTree) : Family := ⟨tree, 0, [], .empty, [], firstFreePid⟩

namespace Member

/-- Whether another thread is inside of a call, and so keeps the record. -/
def isShared (m : Member) : Bool := m.gated.calls.any fun c => c.1 != owner

def isRunning (m : Member) : Bool :=
  match m.gated.life with
  | .running => true
  | _ => false

def nextTime? (m : Member) : Option Nat := m.job.bind Job.nextTime?

def absorb (tree : FileTree) (now : Nat) (r : Gated × List Gated.Entry) (m : Member) : Member :=
  { m with
    gated := r.1
    history := m.history ++ r.2
    job := r.1.jobAfter tree now r.2 m.job }

end Member

def answered : Result Answer → Result Termination
  | .ok (.ended t) => .ok t
  | .ok _ => Result.fail .noPid
  | .error stop => .error stop

def report (r : Gated × List Gated.Entry) (w : Watch) : Watch :=
  match Gated.returned? watcher r.2, r.1.pid? with
  | some result, some pid => w.finish pid (answered result)
  | _, _ => w

def act (i : Nat) (f : Member → Gated × List Gated.Entry) (y : Family) : Family :=
  match y.members[i]? with
  | none => y
  | some m =>
    let r := f m
    { y with members := y.members.set i (m.absorb y.tree y.now r), watch := report r y.watch }

def perform (i : Nat) (a : Gated.Action) (y : Family) : Family :=
  y.act i fun m => m.gated.perform (m.gated.refusal? y.tree) a

def follow (i : Nat) : Nat → Family → Family
  | 0, y => y
  | moves + 1, y =>
    match (y.members[i]?).bind fun m => m.job.bind m.gated.jobMove? with
    | some move => follow i moves (y.perform i (.child move))
    | none => y

def mostMoves : Nat := 2

def keepUp (i : Nat) (y : Family) : Family := y.follow i mostMoves

def seize (g : Gated) : Gated × List Gated.Entry := Machine.attempt Gated.step .seize g

def find? (pid : Pid) (y : Family) : Option Nat :=
  y.members.findIdx? fun m => m.gated.pid? == some pid

def life (i : Nat) (y : Family) : Life :=
  match y.members[i]? with
  | some m => m.gated.life
  | none => .absent

/-- Whether a child is among those that somebody waits for. Zero and what is below it stand for groups,
minus one for all. -/
def isMeant (pid : Pid) (m : Member) : Bool :=
  match m.gated.pid? with
  | none => false
  | some own =>
    own == pid || pid == -1 || (pid == 0 && m.gated.killMode = .single)
      || (pid == -own && m.gated.killMode = .tree)

def hasGone (m : Member) : Bool :=
  match m.gated.life with
  | .absent | .reaped _ => true
  | _ => false

def isZombie (m : Member) : Bool :=
  match m.gated.life with
  | .zombie _ => true
  | _ => false

def reapedAs (pid : Pid) (status : WaitStatus) : Result Termination :=
  match Termination.ofStatus? status with
  | some t => .ok t
  | none => Result.fail (.waitFailed pid .invalidArgument)

def seizePid (pid : Pid) (y : Family) : Option (Result Termination) × Family :=
  let meant := y.members.zipIdx.filter fun (m, _) => isMeant pid m && !hasGone m
  match meant.find? fun (m, _) => isZombie m with
  | some (m, i) =>
    match m.gated.life with
    | .zombie status => (some (reapedAs pid status), (y.act i fun m => seize m.gated).keepUp i)
    | _ => (none, y)
  | none =>
    if meant.isEmpty then (some (Result.fail (.waitFailed pid (waitRefusal pid))), y) else (none, y)

def tend (y : Family) : Family :=
  y.direct.foldl (fun y pid =>
    match y.seizePid pid with
    | (some r, y) => { y with direct := y.direct.erase pid, watch := y.watch.finish pid r }
    | (none, y) => y) y

def call (i thread : Nat) (c : Call) (y : Family) : Family :=
  ((y.perform i (.call thread c)).keepUp i).tend

def nextEvent? (y : Family) : Option (Nat × Nat) :=
  let timed := y.members.zipIdx.filterMap fun (m, i) => m.nextTime?.map fun t => (t, i)
  timed.foldl (fun best e => match best with
    | none => some e
    | some b => if e.1 < b.1 then some e else some b) none

def happen (y : Family) : Family :=
  match y.nextEvent? with
  | none => y
  | some (time, i) =>
    let members := y.members.modify i fun m => { m with job := m.job.map Job.next }
    ({ y with now := max y.now time, members }.keepUp i).tend

def manyEvents : Nat := 200000

def passWhile (isWanted : Family → Bool) (deadline : Option Nat) : Nat → Family → Family
  | 0, y => y
  | events + 1, y =>
    if !isWanted y then y
    else match y.nextEvent? with
      | none => y
      | some (time, _) =>
        if deadline.any (· ≤ time) then y else passWhile isWanted deadline events y.happen

def outlast (i : Nat) (y : Family) : Family :=
  y.passWhile (fun y => (y.members[i]?).any Member.isRunning) none manyEvents

/-- Waits until a child has ended, and leaves it unreaped. An end without a name cannot be told; that a
child is reaped already does not matter. -/
def observe (i : Nat) (y : Family) : Option (Result Unit) × Family :=
  let y := y.outlast i
  match y.life i with
  | .zombie status =>
    (some (if (Termination.ofStatus? status).isSome then .ok ()
      else Result.fail (.system .invalidArgument)), y)
  | .reaped _ => (some (.ok ()), y)
  | _ => (none, y)

def history (i : Nat) (y : Family) : List Gated.Entry :=
  ((y.members[i]?).map Member.history).getD []

def result? (i thread : Nat) (y : Family) : Option (Result Answer) :=
  (y.history i).reverse.findSome? (Gated.Entry.returned? thread)

def isBusy (i thread : Nat) (y : Family) : Bool :=
  (y.members[i]?).any fun m => (m.gated.pending? thread).isSome

/-- A call of the owner. While it does not come back, time passes until the child has ended. -/
def ask (i : Nat) (c : Call) (y : Family) : Option (Result Answer) × Family :=
  let y := y.call i owner c
  let y := if y.isBusy i owner then y.outlast i else y
  (if y.isBusy i owner then none else y.result? i owner, y)

def adopt (args : List String) (killMode : KillMode) (y : Family) : Except Failure (Nat × Family) :=
  (Gated.ofArgs args killMode).map fun g =>
    (y.members.length, { y with members := y.members ++ [{ gated := g }] })

def fork (i : Nat) (y : Family) : Option (Result Answer) × Family :=
  match y.members[i]? with
  | none => (none, y)
  | some m =>
    let pid := y.nextPid
    let (r, y) := y.ask i (.create (m.gated.fork y.tree.contains pid))
    (r, { y with nextPid := pid + 1 })

def awaitInThread (i : Nat) (y : Family) : Family :=
  match y.members[i]? with
  | none => y
  | some m =>
    let thread := firstAwaiter + m.threads
    let m := { m with
      isAwaited := true, threads := m.threads + 1, awaiters := m.awaiters ++ [thread] }
    { y with members := y.members.set i m }.call i thread .await

def awaited (i : Nat) (y : Family) : Option (Result Answer) × Family :=
  match ((y.members[i]?).map Member.awaiters).getD [] with
  | thread :: awaiters =>
    let y := if y.isBusy i thread then y.outlast i else y
    let members := y.members.modify i fun m => { m with awaiters, isAwaited := false }
    (y.result? i thread, { y with members })
  | [] => (none, y)

def track (i : Nat) (y : Family) : Option (Result Unit) × Family :=
  match y.ask i .pid with
  | (some (.ok (.pid pid)), y) =>
    match y.watch.add pid with
    | (.error f, _) => (some (.error (.failed f)), y)
    | (.ok (), watch) =>
      let members := y.members.modify i fun m => { m with isAwaited := true }
      (some (.ok ()), { y with watch, members }.call i watcher .await)
  | (r, y) => (r.map fun r => r.map fun _ => (), y)

def trackPid (pid : Pid) (y : Family) : Result Unit × Family :=
  match y.watch.add pid with
  | (.error f, _) => (.error (.failed f), y)
  | (.ok (), watch) => (.ok (), { y with watch, direct := y.direct ++ [pid] }.tend)

/-- Takes what the watch says, if it says anything. A child that ended well is awaited no more. -/
def poll (y : Family) : Option (Result (Option (Pid × Termination)) × Family) :=
  (y.watch.poll .wait).map fun (r, watch) =>
    let taken := match r with
      | .ok (some (pid, _)) => some pid
      | _ => none
    let members := y.members.map fun m =>
      { m with isAwaited := m.isAwaited && (taken.isNone || m.gated.pid? != taken) }
    (.ofExcept r, { y with watch, members })

def isSilent (y : Family) : Bool := (y.watch.poll .wait).isNone

def waitAny (limit : Option Nat) (y : Family) :
    Option (Result (Option (Pid × Termination))) × Family :=
  let deadline := limit.map (y.now + ·)
  let y := y.passWhile isSilent deadline manyEvents
  match y.poll with
  | some (r, y) => (some r, y)
  | none =>
    match deadline with
    | some d => (some (.ok none), { y with now := max y.now d })
    | none => (none, y)

def reap (i : Nat) (y : Family) : Option (Result Termination) × Family :=
  let y := y.outlast i
  match (y.members[i]?).bind fun m => m.gated.pid? with
  | some pid => y.seizePid pid
  | none => (none, y)

/-- Gives the record of a child up, and says whether its pid is then gone. Others who await it keep the
record. -/
def drop (i : Nat) (y : Family) : Bool × Family :=
  let calls := ((y.members[i]?).map fun m =>
    if m.isShared then [] else m.gated.giveUpCalls).getD []
  let y := calls.foldl (fun y c => (y.ask i c).2) y
  let y := { y with members := y.members.modify i fun m => { m with isDropped := true } }
  let isGone := match y.life i with
    | .absent | .reaped _ => true
    | _ => false
  (isGone, y)

end Family

end Corun
