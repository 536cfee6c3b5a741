import Corun.Cpu.Table
import Corun.Note
import Corun.Os.PidMap
import Corun.Strategy.Basic

namespace Corun.Cpu
open Os

/-- What comes of pinning a process to a CPU, by how many pins were tried before. -/
abbrev Binder := Nat → Pid → Nat → Except Failure Unit

structure Hopper where
  /-- Milliseconds between two hops. -/
  interval : Nat
  table : Table
  slots : PidMap Nat
  binder : Binder
  attempts : Nat

namespace Hopper

def listText (cpus : List Nat) : String := "[" ++ ", ".intercalate (cpus.map toString) ++ "]"

def create (interval : Nat) (cpus : List Nat) (binder : Binder) : Except Failure Hopper :=
  if cpus = [] then
    .error (.ofCause (.invalidConfig "the CPU hopper needs at least one CPU"))
  else if !cpus.Nodup then
    .error (.ofCause (.invalidConfig ("duplicate CPUs in " ++ listText cpus)))
  else .ok ⟨interval, .ofCpus cpus, [], binder, 0⟩

def slotOf? (pid : Pid) (h : Hopper) : Option Nat := PidMap.find? pid h.slots

def cpuOf? (pid : Pid) (h : Hopper) : Result (Option Nat) :=
  match h.slotOf? pid with
  | none => .ok none
  | some slot => (h.table.cpu slot).map some

def pin (pid : Pid) (cpu : Nat) (h : Hopper) : Hopper × List Note :=
  let outcome := h.binder h.attempts pid cpu
  let warnings := match outcome with
    | .ok () => []
    | .error f => [Note.warn s!"failed to bind process {pid} to cpu {cpu}: {f.message}"]
  ({ h with attempts := h.attempts + 1 }, .bind pid cpu outcome :: warnings)

def settle (pid : Pid) (slot cpu : Nat) (h : Hopper) : Step Hopper Unit :=
  let (h, notes) := h.pin pid cpu
  match h.table.allocate slot with
  | .error stop => ⟨.error stop, h, notes⟩
  | .ok table => .done { h with table, slots := PidMap.insert pid slot h.slots } () notes

/-- Tracks a process, unless that would leave no CPU free. -/
def add (pid : Pid) (h : Hopper) : Step Hopper Unit :=
  if PidMap.contains pid h.slots then .fail h (.duplicateTarget pid) []
  else if h.table.size ≤ h.slots.length + 1 then .fail h (.noFreeCpu h.table.size) []
  else
    match h.table.firstFree? with
    | none => .fail h (.noFreeCpu h.table.size) []
    | some slot =>
      match h.table.cpu slot with
      | .error stop => ⟨.error stop, h, []⟩
      | .ok cpu =>
        let settled := h.settle pid slot cpu
        { settled with notes := .info s!"adding process {pid} on cpu {cpu}" :: settled.notes }

def move (pid : Pid) (old : Nat) (h : Hopper) : Step Hopper Unit :=
  match h.table.firstFree? with
  | none => .done h () [.warn s!"no free cpu to move process {pid} to"]
  | some new =>
    match h.table.cpu new with
    | .error stop => ⟨.error stop, h, []⟩
    | .ok cpu =>
      let settled := h.settle pid new cpu
      match settled.result with
      | .error _ => settled
      | .ok () =>
        match settled.state.table.release old with
        | .error stop => ⟨.error stop, settled.state, settled.notes⟩
        | .ok table => .done { settled.state with table } () settled.notes

def moveAll : List (Pid × Nat) → Hopper → Step Hopper Unit
  | [], h => .done h () []
  | (pid, old) :: more, h =>
    let moved := h.move pid old
    match moved.result with
    | .error _ => moved
    | .ok () =>
      let rest := moveAll more moved.state
      { rest with notes := moved.notes ++ rest.notes }

def hop (h : Hopper) : Step Hopper Unit := moveAll h.slots h

instance : Strategy Hopper where
  name _ := "cpu-hopper"
  setUp := Strategy.pass
  prepare := Strategy.pass
  tick := hop
  asides _ := []
  handle a h := Strategy.handledBy (h.add a.pid)
  finalize := Strategy.pass
  discard _ := (.ok (), [])
  interval h := h.interval

end Hopper

end Corun.Cpu
