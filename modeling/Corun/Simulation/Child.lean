import Corun.Child.Gated
import Corun.Simulation.Program.Job

namespace Corun.Child
open Os Program

namespace Gated

def refusal? (tree : FileTree) (g : Gated) : Option Errno :=
  match executable tree g.path g.args with
  | .ok _ => none
  | .error e => some e

def jobAfter (tree : FileTree) (now : Nat) (g : Gated) (entries : List Entry) (j : Option Job) :
    Option Job :=
  entries.foldl (fun j e => match e with
    | .executed none => (Job.start tree (g.killMode = .tree) (g.pid?.getD 0) g.path g.args now).toOption
    | .signaled mode (.ok ()) => j.map fun j => (j.setTime now).kill (mode = .tree)
    | .reaped _ => j.map Job.reaped
    | _ => j) j

/-- What a child does because its job has come to its end, or because of who is in its group. -/
def jobMove? (g : Gated) (j : Job) : Option Move :=
  match g.life, j.status? with
  | .running, some (.exited status) => some (.exit status)
  | .running, some (.killed signal) => some (.die signal)
  | _, _ =>
    if g.life ≠ .absent ∧ g.hasFollowers ≠ j.hasFollowers then some (.follow j.hasFollowers) else none

def threadActions (g : Gated) : List Action :=
  g.calls.flatMap fun (thread, p) => match p.stage with
    | .reading _ => [.receive thread reportSize]
    | _ => [.advance thread]

def promptActions (refusal : Option Errno) (g : Gated) : List Action :=
  [.child .settle, .child .pass, .child (.execute refusal), .child .report, .child .giveUp,
   .bell (.ring 0), .resume 0] ++ g.threadActions

/-- More steps than a thread or the child can take without time passing. -/
def promptSteps (g : Gated) : Nat := 16 * (g.calls.length + 2)

def settle (refusal : Option Errno) (g : Gated) : Gated × List Entry :=
  Machine.exhaust step (promptActions refusal) g.promptSteps g

def perform (refusal : Option Errno) (a : Action) (g : Gated) : Gated × List Entry :=
  let (g, before) := Machine.attempt step a g
  let (g, after) := g.settle refusal
  (g, before ++ after)

def fork (hasFile : String → Bool) (pid : Pid) (g : Gated) : Except Failure Pid :=
  if !hasFile g.path then .error (.ofCause (.notFound g.path))
  else match g.args.findSome? nulPosition? with
    | some position => .error ((Failure.ofCause (.nulInArgument position)).within (.arguments g.path))
    | none => .ok pid
where
  nulPosition? (text : String) : Option Nat :=
    if text.toList.contains '\x00' then
      some (String.ofList (text.toList.takeWhile (· ≠ '\x00'))).utf8ByteSize
    else none

end Gated

end Corun.Child
