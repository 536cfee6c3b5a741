import Corun.Machine
import Corun.Sync.Bell

namespace Corun.Sync

structure Queue (α : Type) where
  values : List α
  bell : Bell

namespace Queue

inductive Action (α : Type) where
  | push (producer : Nat) (value : α)
  /-- Takes the oldest value, or sleeps until there is one or, if timed, the time is up. -/
  | pop (consumer : Nat) (timed : Bool)
  | tryPop (consumer : Nat)
  | bell (a : Bell.Action)
  | resume (k : Nat)

inductive Entry (α : Type) where
  | pushed (producer : Nat) (value : α)
  | popped (consumer : Nat) (value : α)
  | left (consumer : Nat)

def empty : Queue α := ⟨[], .silent⟩

def take (consumer : Nat) (q : Queue α) (otherwise : Queue α × List (Entry α)) :
    Queue α × List (Entry α) :=
  match q.values with
  | [] => otherwise
  | a :: values => ({ q with values }, [.popped consumer a])

def sleep (consumer : Nat) (timed : Bool) (q : Queue α) : Queue α :=
  { q with bell := q.bell.sleep consumer timed }

def step : Machine (Queue α) (Action α) (Entry α)
  | q, .push producer a =>
    some (⟨q.values ++ [a], q.bell.announce⟩, [.pushed producer a])
  | q, .pop consumer timed => some (q.take consumer (q.sleep consumer timed, []))
  | q, .tryPop consumer => some (q.take consumer (q, [.left consumer]))
  | q, .bell a => (q.bell.step a).map fun bell => ({ q with bell }, [])
  | q, .resume k =>
    (q.bell.rise k).map fun (r, bell) =>
      let q := { q with bell }
      q.take r.thread
        (if r.expired then (q, [.left r.thread]) else (q.sleep r.thread r.timed, []))

def run : Queue α → List (Action α) → Option (Queue α × List (Entry α)) := Machine.run step

def poppedValue? : Entry α → Option α
  | .popped _ a => some a
  | _ => none

def popped (entries : List (Entry α)) : List α := entries.filterMap poppedValue?

structure Arrival (α : Type) where
  delay : Nat
  value : α

def Arrival.actions (a : Arrival α) : List (Action α) := [.push 1 a.value, .bell (.ring 0)]

def arrive (arrival : Option (Arrival α)) : List (Action α) :=
  (arrival.map Arrival.actions).getD []

def Arrival.isWithin (limit : Nat) (a : Arrival α) : Bool := a.delay < limit

def pushActions (a : α) : List (Action α) := [.push 0 a, .bell (.ring 0)]

def popActions (arrival : Option (Arrival α)) : List (Action α) :=
  .pop 0 false :: arrive arrival ++ [.resume 0]

def popTimedActions (limit : Nat) (arrival : Option (Arrival α)) : List (Action α) :=
  if arrival.any (Arrival.isWithin limit) then .pop 0 true :: arrive arrival ++ [.resume 0]
  else [.pop 0 true, .bell (.expire 0), .resume 0] ++ arrive arrival

def tryPopActions (arrival : Option (Arrival α)) : List (Action α) := .tryPop 0 :: arrive arrival

/-- A pop of an empty queue that nothing arrives at never comes back. -/
def popBlocks (q : Queue α) (arrival : Option (Arrival α)) : Bool :=
  q.values.isEmpty && arrival.isNone

def perform (q : Queue α) (actions : List (Action α)) : List α × Queue α :=
  let (q, entries) := Machine.attemptAll step actions q
  (popped entries, q)

def handOver (consumers : Nat) (producers : List (List α)) : List (Nat × α) × Queue (Nat × α) :=
  let tagged := producers.zipIdx.flatMap fun (values, p) => values.map fun a => (p, a)
  let pushes := tagged.flatMap fun (p, a) => [Action.push p (p, a), .bell (.ring 0)]
  let pops := (List.range tagged.length).map fun k => Action.tryPop (k % consumers)
  perform empty (pushes ++ pops)

end Queue

end Corun.Sync
