import Corun.Counter.Group
import Corun.Number.Fixed
import Corun.Os.PidMap
import Corun.Strategy.Basic

namespace Corun.Counter
open Os

structure Sampler (κ : Type) where
  name : String
  /-- Milliseconds between two samples. -/
  interval : Nat
  mode : Mode
  attach : Bool
  generic : Generic
  supply : Nat → κ
  created : Nat
  groups : PidMap (Group κ)

namespace Sampler

variable {κ : Type} [Source κ]

def create (name backend : String) (supply : Nat → κ) : Except Failure (Sampler κ) :=
  (Generic.ofBackend backend).map fun generic =>
    { name, interval := 1000, mode := .relative, attach := true, generic, supply, created := 0,
      groups := [] }

def labels : List String := ["cycles", "instructions"]

def add (pid : Pid) (s : Sampler κ) : Step (Sampler κ) Unit :=
  if PidMap.contains pid s.groups then .fail s (.duplicateTarget pid) []
  else
    let opened := Group.openOn s.supply pid s.attach s.created s.generic.events
    let s := { s with created := opened.state }
    let notes := .info s!"adding process {pid}" :: opened.notes
    match opened.result with
    | .error stop => ⟨Result.within (.openingCounters pid) (.error stop), s, notes⟩
    | .ok group => .done { s with groups := PidMap.insert pid group s.groups } () notes

def boolText (b : Bool) : String := if b then "true" else "false"

def sampleLine (pid : Pid) (label : String) (s : Sample) : LogLine :=
  let enabled := boolText s.isEnabled
  let count := Number.fixed 0 s.value
  let scaling := Number.fixed 3 s.scaling
  .info s!"process {pid} {label}: enabled: {enabled}, count: {count}, scaling: {scaling}"

def ratioLine? (pid : Pid) : List Sample → Option LogLine
  | [cycles, instructions] =>
    if cycles.isEnabled && instructions.isEnabled && 0.0 < cycles.value then
      let ratio := Number.fixed 3 (instructions.value / cycles.value)
      some (.info s!"process {pid} IPC: {ratio}")
    else none
  | _ => none

def sampleLines (pid : Pid) (samples : List Sample) : List LogLine :=
  List.zipWith (sampleLine pid) labels samples ++ (ratioLine? pid samples).toList

/-- One process. Only a broken invariant, or a panic, is passed on. -/
def sampleOne (mode : Mode) (pid : Pid) (g : Group κ) : Step (Group κ) Unit :=
  let sampled := g.sample mode
  match sampled.result with
  | .ok samples =>
    .done sampled.state () (sampled.notes ++ (sampleLines pid samples).map Note.log)
  | .error (.panicked p) => ⟨.error (.panicked p), sampled.state, sampled.notes⟩
  | .error (.failed f) =>
    if f.cause.isCounterInvariant then
      ⟨.error (.failed (f.within (.inconsistentCounters pid))), sampled.state, sampled.notes⟩
    else
      .done sampled.state ()
        (sampled.notes ++ [.warn s!"failed to sample process {pid}: {f.message}"])

def sampleGroups (mode : Mode) : PidMap (Group κ) → Step (PidMap (Group κ)) Unit
  | [] => .done [] () []
  | (pid, g) :: more =>
    let one := sampleOne mode pid g
    match one.result with
    | .error stop => ⟨.error stop, (pid, one.state) :: more, one.notes⟩
    | .ok () =>
      let rest := sampleGroups mode more
      ⟨rest.result, (pid, one.state) :: rest.state, one.notes ++ rest.notes⟩

def sample (s : Sampler κ) : Step (Sampler κ) Unit :=
  (sampleGroups s.mode s.groups).onto fun groups => { s with groups }

def latest? (pid : Pid) (s : Sampler κ) : Option (List Sample) :=
  (PidMap.find? pid s.groups).map Group.latest

/-- Closes the counters of every process. The first panic is passed on in the end. -/
def close (s : Sampler κ) : Result Unit × List Note :=
  s.groups.foldl (fun (r, notes) e =>
    let (closed, more) := e.2.close
    (r.bind fun _ => closed, notes ++ more)) (.ok (), [])

instance : Strategy (Sampler κ) where
  name s := s.name
  setUp := Strategy.pass
  prepare := Strategy.pass
  tick := sample
  asides _ := []
  handle a s := Strategy.handledBy (s.add a.pid)
  finalize := Strategy.pass
  discard := close
  interval s := s.interval

end Sampler

end Corun.Counter
