import Corun.Proofs.Cpu.Settled

namespace Corun.Cpu.Hopper
open Os

variable {h : Hopper} {pid : Pid} {old : Nat}

/-- What can be asked of a hopper, by itself and as the strategy that it is. -/
inductive Call where
  | add (pid : Pid)
  | announce (a : Announcement)
  | hop
  | tick

def call (c : Call) (h : Hopper) : Step Hopper Unit :=
  match c with
  | .add pid => h.add pid
  | .announce a =>
    let handled := Strategy.handle a h
    ⟨handled.result.map fun _ => (), handled.state, handled.notes⟩
  | .hop => h.hop
  | .tick => Strategy.tick h

/-- The hopper after calls one after another, those that fail included. -/
def after (calls : List Call) (h : Hopper) : Hopper :=
  calls.foldl (fun h c => (h.call c).state) h

/-- To announce a process is to add it. -/
theorem call_announce (a : Announcement) : h.call (.announce a) = h.add a.pid := by
  change (⟨((h.add a.pid).result.map _).map _, (h.add a.pid).state, (h.add a.pid).notes⟩ :
    Step Hopper Unit) = h.add a.pid
  cases h.add a.pid with
  | mk r s ns => cases r <;> rfl

theorem Settled.add (hs : Settled h) (pid : Pid) :
    Settled (h.add pid).state ∧ ∀ p, (h.add pid).result ≠ .error (.panicked p) := by
  cases hp : h.slotOf? pid with
  | some slot =>
    rw [add_tracked hp]
    exact ⟨hs, by simp [Step.fail, Result.fail]⟩
  | none =>
    by_cases hr : h.table.size ≤ h.slots.length + 1
    · rw [add_full hp hr]
      exact ⟨hs, by simp [Step.fail, Result.fail]⟩
    · obtain ⟨slot, cpu, _, hf, _, hadd⟩ := hs.add_room hp (Nat.not_le.mp hr)
      rw [hadd]
      exact ⟨hs.placed hp hf (Nat.not_le.mp hr), by simp [Step.done]⟩

/-- A part of the processes, in their order, finds each where the table says. -/
theorem Settled.listed (hs : Settled h) :
    (∀ e ∈ h.slots, h.slotOf? e.1 = some e.2) ∧ (h.slots.map Prod.fst).Nodup :=
  ⟨fun _ he => PidMap.find?_of_mem hs.ascending he,
    List.Pairwise.imp (fun hlt => Int.ne_of_lt hlt) hs.ascending⟩

theorem Settled.hop (hs : Settled h) : Settled h.hop.state ∧ h.hop.result = .ok () := by
  obtain ⟨hl, hd⟩ := hs.listed
  obtain ⟨hok, hsettled, _⟩ := hs.moveAll hl hd
  exact ⟨hsettled, hok⟩

theorem Settled.call (hs : Settled h) (c : Call) :
    Settled (h.call c).state ∧ ∀ p, (h.call c).result ≠ .error (.panicked p) := by
  cases c with
  | add pid => exact hs.add pid
  | announce a =>
    rw [call_announce]
    exact hs.add a.pid
  | hop | tick =>
    obtain ⟨hsettled, hok⟩ := hs.hop
    exact ⟨hsettled, fun p hp => by cases hok.symm.trans hp⟩

theorem Settled.after (hs : Settled h) (calls : List Call) : Settled (h.after calls) := by
  induction calls generalizing h with
  | nil => exact hs
  | cons c calls ih => exact ih (hs.call c).1

/-- When the turn of a process comes within a hop, it still has its slot and a free one is found. -/
theorem Settled.turn (hs : Settled h) {before rest : List (Pid × Nat)}
    (he : h.slots = before ++ (pid, old) :: rest) :
    (Hopper.moveAll before h).state.slotOf? pid = some old ∧
      ∃ new, (Hopper.moveAll before h).state.table.firstFree? = some new ∧ new ≠ old ∧
        new < (Hopper.moveAll before h).state.table.size := by
  obtain ⟨hl, hd⟩ := hs.listed
  rw [he] at hl
  rw [he, List.map_append, List.map_cons] at hd
  obtain ⟨hbefore, _, hdisjoint⟩ := List.nodup_append.mp hd
  have hnew : pid ∉ before.map Prod.fst := fun hm =>
    hdisjoint pid hm pid List.mem_cons_self rfl
  obtain ⟨_, hsettled, hothers⟩ :=
    hs.moveAll (fun e hm => hl e (List.mem_append_left _ hm)) hbefore
  have hp : (Hopper.moveAll before h).state.slotOf? pid = some old := by
    rw [hothers pid hnew]
    exact hl (pid, old) (by simp)
  obtain ⟨new, _, hfirst, hf, _, _⟩ := hsettled.move hp
  exact ⟨hp, new, hfirst, hsettled.free_ne hp hf, hsettled.sized ▸ Table.lt_of_taken hf⟩

/-- Between two calls, and throughout the next one. -/
structure SlotsKept (h : Hopper) : Prop where
  apart : ∀ p q slot, h.slotOf? p = some slot → h.slotOf? q = some slot → p = q
  within : ∀ p slot, h.slotOf? p = some slot → slot < h.table.size
  marked : ∀ slot, h.table.taken[slot]? = some true ↔ ∃ p, h.slotOf? p = some slot
  tracked : (PidMap.pids h.slots).Nodup
  counted : h.table.occupied = h.slots.length
  spare : h.table.occupied + 1 ≤ h.table.size
  free : ∃ slot, h.table.firstFree? = some slot
  /-- No index is out of range, and no slot is taken twice. -/
  calm : ∀ c p, (h.call c).result ≠ .error (.panicked p)
  /-- What is not refused at first is not given up for want of a free slot. -/
  admits : ∀ p, h.slotOf? p = none → h.slots.length + 1 < h.table.size →
    (h.add p).result = .ok ()
  hops : h.hop.result = .ok ()
  /-- No process is passed over in a hop. -/
  turns : ∀ before pid old rest, h.slots = before ++ (pid, old) :: rest →
    (moveAll before h).state.slotOf? pid = some old ∧
      ∃ new, (moveAll before h).state.table.firstFree? = some new ∧ new ≠ old ∧
        new < (moveAll before h).state.table.size

theorem Settled.kept (hs : Settled h) : SlotsKept h where
  apart := hs.apart
  within := fun _ _ hp => hs.within hp
  marked := hs.marked
  tracked := hs.listed.2
  counted := hs.counted
  spare := hs.counted ▸ hs.room
  free := by
    obtain ⟨slot, _, hf, _⟩ := hs.landing
    exact ⟨slot, hf⟩
  calm := fun c => (hs.call c).2
  admits := by
    intro p hp hr
    obtain ⟨_, _, _, _, _, hadd⟩ := hs.add_room hp hr
    rw [hadd]
    rfl
  hops := hs.hop.2
  turns := fun _ _ _ _ he => hs.turn he

/-- Pins may fail at any time without any effect on this. -/
theorem slots_kept_by_every_call (interval : Nat) (cpus : List Nat) (binder : Binder)
    (hne : cpus ≠ []) (hd : cpus.Nodup) :
    ∃ h, create interval cpus binder = .ok h ∧ ∀ calls, SlotsKept (h.after calls) := by
  obtain ⟨h, hc, hs⟩ := create_settled interval binder hne hd
  exact ⟨h, hc, fun calls => (hs.after calls).kept⟩

/-- Two CPUs, of which one is lost to every other pin. -/
theorem slots_kept_on_two_cpus :
    [4, 6] ≠ ([] : List Nat) ∧ [4, 6].Nodup ∧
      ∃ h, create 0 [4, 6] (fun attempt _ cpu =>
          if attempt % 2 = 1 then .error (.ofCause (.scripted s!"cpu {cpu} is offline")) else .ok ())
        = .ok h ∧
        SlotsKept (h.after [.add 77, .announce (.created 77), .hop, .add 78, .tick]) := by
  obtain ⟨h, hc, hk⟩ := slots_kept_by_every_call 0 [4, 6] (fun attempt _ cpu =>
    if attempt % 2 = 1 then .error (.ofCause (.scripted s!"cpu {cpu} is offline")) else .ok ())
    (by decide) (by decide)
  exact ⟨by decide, by decide, h, hc, hk _⟩

end Corun.Cpu.Hopper
