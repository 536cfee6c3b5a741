import Corun.Counter.Source
import Corun.Note

namespace Corun.Counter
open Os

structure Meter (κ : Type) where
  event : Event
  /-- Place in the order of creation. -/
  ordinal : Nat
  source : κ
  gauge : Gauge

namespace Meter

variable {κ : Type} [Source κ]

def create (event : Event) (ordinal : Nat) (source : κ) : Meter κ :=
  ⟨event, ordinal, source, .fresh⟩

def succeeded : Result α → Bool
  | .ok _ => true
  | .error _ => false

def openOn (m : Meter κ) (pid : Pid) (attach : Bool) : Step (Meter κ) Unit :=
  let (r, source) := Source.openOn m.source m.event pid attach
  ⟨r, { m with source }, [.counter m.ordinal (.opened m.event pid attach (succeeded r))]⟩

/-- A reading that fails leaves the gauge as it was. -/
def read (m : Meter κ) : Step (Meter κ) Unit :=
  let (r, source) := Source.read m.source
  let note := Note.counter m.ordinal (.read (succeeded r))
  match r with
  | .ok count => ⟨.ok (), { m with source, gauge := m.gauge.observe count }, [note]⟩
  | .error stop => ⟨.error stop, { m with source }, [note]⟩

def scale (mode : Mode) (m : Meter κ) : Except Cause Sample × Meter κ :=
  let (r, gauge) := m.gauge.scale mode
  (r, { m with gauge })

def close (m : Meter κ) : Step (Meter κ) Unit :=
  let (r, source) := Source.close m.source
  ⟨r, { m with source }, [.counter m.ordinal (.closed (succeeded r))]⟩

end Meter

structure Group (κ : Type) where
  pid : Pid
  meters : List (Meter κ)
  latest : List Sample

namespace Group

variable {κ : Type} [Source κ]

/-- Creates and opens a counter for each event. The first that cannot be opened ends the row; those
before it are given up as they are. The state is the ordinal of the next counter. -/
def openMeters (supply : Nat → κ) (pid : Pid) (attach : Bool) (next : Nat) :
    List Event → Step Nat (List (Meter κ))
  | [] => .done next [] []
  | event :: events =>
    let opened := (Meter.create event next (supply next)).openOn pid attach
    match opened.result with
    | .error stop =>
      ⟨Result.within (.openingEvent event pid) (.error stop), next + 1, opened.notes⟩
    | .ok () =>
      let more := openMeters supply pid attach (next + 1) events
      ⟨more.result.map (opened.state :: ·), more.state, opened.notes ++ more.notes⟩

def openOn (supply : Nat → κ) (pid : Pid) (attach : Bool) (next : Nat) (events : List Event) :
    Step Nat (Group κ) :=
  let opened := openMeters supply pid attach next events
  ⟨opened.result.map fun meters => ⟨pid, meters, meters.map fun _ => Sample.none⟩,
    opened.state, opened.notes⟩

def events (g : Group κ) : List Event := g.meters.map Meter.event

def readMeters : List (Meter κ) → Step (List (Meter κ)) Unit
  | [] => .done [] () []
  | m :: ms =>
    let r := m.read
    match r.result with
    | .error stop => ⟨.error stop, r.state :: ms, r.notes⟩
    | .ok () =>
      let more := readMeters ms
      ⟨more.result, r.state :: more.state, r.notes ++ more.notes⟩

def scaleMeters (mode : Mode) : List (Meter κ) → List Sample →
    Except Cause Unit × List (Meter κ) × List Sample
  | m :: ms, s :: ss =>
    match m.scale mode with
    | (.error cause, m') => (.error cause, m' :: ms, s :: ss)
    | (.ok s', m') =>
      let (r, ms', ss') := scaleMeters mode ms ss
      (r, m' :: ms', s' :: ss')
  | ms, ss => (.ok (), ms, ss)

def sample (mode : Mode) (g : Group κ) : Step (Group κ) (List Sample) :=
  let read := readMeters g.meters
  match read.result with
  | .error stop => ⟨.error stop, { g with meters := read.state }, read.notes⟩
  | .ok () =>
    let (r, meters, latest) := scaleMeters mode read.state g.latest
    let g := { g with meters, latest }
    match r with
    | .error cause => .fail g cause read.notes
    | .ok () => .done g latest read.notes

/-- Closes counters one after another. One that fails does not keep the others from being closed, but
a panic does. -/
def closeMeters : List (Meter κ) → Result Unit × List Note
  | [] => (.ok (), [])
  | m :: ms =>
    let closed := m.close
    match closed.result with
    | .error (.panicked p) => (.error (.panicked p), closed.notes)
    | _ =>
      let (r, notes) := closeMeters ms
      (r, closed.notes ++ notes)

def close (g : Group κ) : Result Unit × List Note := closeMeters g.meters

end Group

end Corun.Counter
