import Mathlib.Data.List.Perm.Basic
import Mathlib.Data.Option.Basic
import Corun.Proofs.Cpu.Rotation

namespace Corun.Cpu.Hopper
open Os

variable {h : Hopper} {pid : Pid} {free interval : Nat} {cpus : List Nat} {binder : Binder}

/-- The CPU that the next process goes to, and then those of the processes in ascending order of the
pid. -/
def ring (h : Hopper) : List Nat :=
  (h.table.firstFree?.toList ++ h.places).filterMap (h.table.cpus[·]?)

/-- The CPU of a slot, for a process that may have none. -/
def seatOf (cpus : List Nat) (slot : Option Nat) : Result (Option Nat) :=
  .ok (slot.bind (cpus[·]?))

theorem Settled.cpuOf (hs : Settled h) (pid : Pid) :
    h.cpuOf? pid = seatOf h.table.cpus (h.slotOf? pid) := by
  cases hp : h.slotOf? pid with
  | none => simp [cpuOf?, seatOf, hp]
  | some slot =>
    obtain ⟨cpu, hc⟩ := Table.cpu_of_lt (hs.within hp)
    simp [cpuOf?, seatOf, hp, hc, Table.cpu_eq_ok.mp hc, Except.map]

theorem Packed.ring (hs : Settled h) (hp : Packed free h) :
    h.ring.map some = (free :: h.places).map (h.table.cpus[·]?) := by
  rw [Hopper.ring, hp.firstFree hs, List.map_filterMap]
  refine List.filterMap_eq_map_iff_forall_eq_some.mpr fun slot hm => ?_
  have hlt : slot < h.table.cpus.length := hp.slots_lt hs slot hm
  simp [hlt]

/-- The first slots of a table have the first CPUs of the list. -/
theorem cpus_of_range {n : Nat} (hn : n ≤ cpus.length) :
    (List.range n).map (cpus[·]?) = (cpus.take n).map some := by
  refine List.ext_getElem (by simp [hn]) fun k hk _ => ?_
  have hk : k < n := by simpa using hk
  simp [hk.trans_le hn]

theorem seats_of_range {n : Nat} (hn : n ≤ cpus.length) :
    ((List.range n).map some).map (seatOf cpus) = (cpus.take n).map fun c => .ok (some c) := by
  have hcpus := congrArg (List.map (Except.ok (ε := Stop))) (cpus_of_range hn)
  rw [List.map_map, List.map_map] at hcpus
  rw [List.map_map]
  exact hcpus

theorem Packed.inPlay (hs : Settled h) (hp : Packed free h) :
    h.ring.Perm (h.table.cpus.take (h.slots.length + 1)) := by
  refine (List.map_perm_map_iff (Option.some_injective _)).mp ?_
  rw [hp.ring hs, ← cpus_of_range hs.room]
  exact hp.map _

theorem Packed.seated (hs : Settled h) (hp : Packed free h) :
    (PidMap.pids h.slots).map (cpuOf? · h) = h.ring.tail.map fun c => .ok (some c) := by
  have hcpus : (PidMap.pids h.slots).map (cpuOf? · h) =
      (h.places.map (h.table.cpus[·]?)).map Except.ok := by
    rw [PidMap.pids, places, List.map_map, List.map_map, List.map_map]
    refine List.map_congr_left fun e he => ?_
    simp [hs.cpuOf, seatOf, hs.listed.1 e he]
  have htail : h.ring.tail.map some = h.places.map (h.table.cpus[·]?) := by
    rw [List.map_tail, hp.ring hs, List.map_cons, List.tail_cons]
  rw [hcpus, ← htail, List.map_map]
  rfl

theorem Settled.hop_cpus (hs : Settled h) : h.hop.state.table.cpus = h.table.cpus :=
  (hs.call_shifts .hop).same_cpus

/-- The ring is turned on by one. -/
theorem Settled.hop_ring (hs : Settled h) (hp : Packed free h) :
    h.hop.state.ring.rotate 1 = h.ring := by
  obtain ⟨last, hlast, hturned, _⟩ := hs.hop_passes hp
  refine List.map_injective_iff.mpr (Option.some_injective _) ?_
  rw [List.map_rotate, hlast.ring hs.hop.1, hp.ring hs, ← hturned, hs.hop_cpus, List.map_rotate]

theorem Settled.hop_tail (hs : Settled h) (hp : Packed free h) :
    h.hop.state.ring.tail = h.ring.dropLast := by
  rw [← hs.hop_ring hp]
  cases h.hop.state.ring with
  | nil => rfl
  | cons c ring => simp

theorem Settled.tracks_iff (hs : Settled h) : h.Tracks pid ↔ pid ∈ PidMap.pids h.slots := by
  constructor
  · rintro ⟨slot, hp⟩
    exact List.mem_map.mpr ⟨_, PidMap.mem_of_find? hp, rfl⟩
  · intro hm
    obtain ⟨e, he, rfl⟩ := List.mem_map.mp hm
    exact ⟨e.2, hs.listed.1 e he⟩

theorem Packed.seat_at (hs : Settled h) (hp : Packed free h) {i : Nat}
    (hi : (PidMap.pids h.slots)[i]? = some pid) :
    ∃ c, h.ring.tail[i]? = some c ∧ h.cpuOf? pid = .ok (some c) := by
  have hseat := congrArg (·[i]?) (hp.seated hs)
  simp only [List.getElem?_map, hi, Option.map_some] at hseat
  obtain ⟨c, hc, hcpu⟩ := Option.map_eq_some_iff.mp hseat.symm
  exact ⟨c, hc, hcpu.symm⟩

theorem Packed.ring_nodup (hs : Settled h) (hp : Packed free h) (hd : h.table.cpus.Nodup) :
    h.ring.Nodup :=
  (hp.inPlay hs).nodup_iff.mpr (hd.sublist (List.take_sublist _ _))

/-- A process that moved is not where it was. -/
theorem Settled.hop_moves (hs : Settled h) (hp : Packed free h) (hd : h.table.cpus.Nodup)
    (hm : pid ∈ PidMap.pids h.slots) : h.hop.state.cpuOf? pid ≠ h.cpuOf? pid := by
  obtain ⟨last, hlast, _, hpids, _⟩ := hs.hop_passes hp
  obtain ⟨i, hi⟩ := List.getElem?_of_mem hm
  obtain ⟨c, hc, hnow⟩ := hp.seat_at hs hi
  obtain ⟨d, hd', hnext⟩ := hlast.seat_at hs.hop.1 (hpids ▸ hi)
  rw [hnow, hnext]
  intro hsame
  obtain rfl : d = c := by simpa using hsame
  rw [hs.hop_tail hp, List.getElem?_dropLast] at hd'
  rw [List.getElem?_tail] at hc
  split at hd'
  · rename_i hlt
    have := (List.getElem?_inj (hlt.trans_le (Nat.sub_le _ _)) (hp.ring_nodup hs hd)).mp
      (hd'.trans hc.symm)
    omega
  · cases hd'

/-- The CPU that the next process goes to has no process. -/
theorem Packed.vacant (hs : Settled h) (hp : Packed free h) (hd : h.table.cpus.Nodup) {cpu : Nat}
    (hfirst : cpu ∈ h.ring.head?) (pid : Pid) : h.cpuOf? pid ≠ .ok (some cpu) := by
  intro hcpu
  obtain ⟨slot, hslot, _⟩ := slotOf_of_cpuOf hcpu
  obtain ⟨i, hi⟩ := List.getElem?_of_mem (hs.tracks_iff.mp ⟨slot, hslot⟩)
  obtain ⟨c, hc, hnow⟩ := hp.seat_at hs hi
  obtain rfl : c = cpu := by simpa using hnow.symm.trans hcpu
  rw [List.head?_eq_getElem?] at hfirst
  rw [List.getElem?_tail] at hc
  have hlt := (List.getElem?_eq_some_iff.mp hfirst).1
  have := (List.getElem?_inj hlt (hp.ring_nodup hs hd)).mp (hfirst.trans hc.symm)
  omega

theorem Settled.hop_pins (hs : Settled h) (hp : Packed free h) :
    (pins h.hop.notes).map Pin.pid = PidMap.pids h.slots ∧
      (pins h.hop.notes).map Pin.cpu = h.ring.dropLast := by
  obtain ⟨last, hlast, _, hpids, hpins⟩ := hs.hop_passes hp
  refine ⟨?_, ?_⟩
  · have hfst := congrArg (List.map Prod.fst) hpins
    rw [List.map_map, List.map_map] at hfst
    exact hfst.trans hpids
  · have hsnd := congrArg (List.map Prod.snd) hpins
    rw [List.map_map, List.map_map] at hsnd
    refine List.map_injective_iff.mpr (Option.some_injective _) ?_
    rw [List.map_map, ← hs.hop_tail hp, List.map_tail, hlast.ring hs.hop.1, List.map_cons,
      List.tail_cons, hs.hop_cpus]
    rw [places, List.map_map]
    exact hsnd

/-- The slots of the processes say which slots of the table are taken. -/
theorem Settled.table_eq {k : Hopper} (hs : Settled h) (hk : Settled k)
    (hcpus : k.table.cpus = h.table.cpus) (hslots : k.slots = h.slots) : k.table = h.table := by
  have hlen : k.table.taken.length = h.table.taken.length := by
    rw [hk.sized, hs.sized, Table.size, Table.size, hcpus]
  refine congrArg₂ Table.mk hcpus (List.ext_getElem hlen fun i hi hj => Bool.eq_iff_iff.mpr ?_)
  have hsame : k.table.taken[i]? = some true ↔ h.table.taken[i]? = some true := by
    rw [hk.marked, hs.marked]
    simp only [slotOf?, hslots]
  rw [List.getElem?_eq_getElem hi, List.getElem?_eq_getElem hj] at hsame
  simpa using hsame

/-- As many hops as there are CPUs in play lead back to where they started. On the way, each process has
been on every one of these CPUs once. -/
theorem Packed.round (hs : Settled h) (hp : Packed free h) {calls : List Call} (hh : Hops calls)
    (hn : calls.length = h.slots.length + 1) :
    (∀ pid ∈ PidMap.pids h.slots,
      ((List.range calls.length).map fun k => (h.after (calls.take (k + 1))).cpuOf? pid).Perm
        ((h.table.cpus.take calls.length).map fun c => .ok (some c))) ∧
    (h.after calls).slots = h.slots ∧ (h.after calls).table = h.table := by
  obtain ⟨hslots, hvisits⟩ := hs.after_round hp hh hn
  have hcpus : ∀ more, (h.after more).table.cpus = h.table.cpus := fun more =>
    (hs.noted_shifts more).same_cpus
  refine ⟨?_, hslots, hs.table_eq (hs.after calls) (hcpus calls) hslots⟩
  intro pid hm
  have hseats : ((List.range calls.length).map fun k => (h.after (calls.take (k + 1))).cpuOf? pid) =
      ((List.range calls.length).map fun k =>
        (h.after (calls.take (k + 1))).slotOf? pid).map (seatOf h.table.cpus) := by
    rw [List.map_map]
    refine List.map_congr_left fun k _ => ?_
    rw [(hs.after _).cpuOf, hcpus]
    rfl
  rw [hseats, ← seats_of_range (hn.le.trans hs.room)]
  exact (hvisits pid hm).map (seatOf h.table.cpus)

/-- What a call does to the CPUs in play: as many as before stay in play at least, and processes are
pinned to them only. -/
structure KeepsTo (cpus : List Nat) (h : Hopper) (s : Step Hopper Unit) : Prop where
  packed : ∃ free, Packed free s.state
  grows : h.slots.length ≤ s.state.slots.length
  pinned : ∀ p ∈ pins s.notes, p.cpu ∈ cpus.take (s.state.slots.length + 1)

theorem Packed.fail (hp : Packed free h) (cause : Cause) :
    KeepsTo cpus h (.fail h cause []) :=
  ⟨⟨free, hp⟩, Nat.le_refl _, fun p hm => by cases hm⟩

theorem Packed.add (hs : Settled h) (hp : Packed free h) (pid : Pid) :
    KeepsTo h.table.cpus h (h.add pid) := by
  cases hpid : h.slotOf? pid with
  | some slot =>
    rw [add_tracked hpid]
    exact hp.fail _
  | none =>
    by_cases hr : h.table.size ≤ h.slots.length + 1
    · rw [add_full hpid hr]
      exact hp.fail _
    · obtain ⟨slot, cpu, hfirst, hf, hc, hadd⟩ := hs.add_room hpid (Nat.not_le.mp hr)
      cases (hp.firstFree hs).symm.trans hfirst
      have hlen : (h.placed pid free).slots.length = h.slots.length + 1 :=
        PidMap.length_insert_of_none hpid
      have hfree : free < h.slots.length + 2 :=
        (hp.mem_iff.mp List.mem_cons_self).trans (Nat.lt_succ_self _)
      rw [hadd]
      refine ⟨⟨_, hp.placed hpid⟩, by simp only [Step.done, hlen]; omega, ?_⟩
      intro p hm
      have hpins : pins (Note.info s!"adding process {pid} on cpu {cpu}" :: (h.pin pid cpu).2) =
          [⟨pid, cpu, h.binder h.attempts pid cpu⟩] := pins_pin h pid cpu
      simp only [Step.done, hpins, List.mem_singleton] at hm
      subst hm
      simp only [Step.done, hlen]
      refine List.mem_of_getElem? (i := free) ?_
      rw [List.getElem?_take_of_lt hfree]
      exact Table.cpu_eq_ok.mp hc

theorem Packed.hop (hs : Settled h) (hp : Packed free h) : KeepsTo h.table.cpus h h.hop := by
  obtain ⟨last, hlast, _, hpids, _⟩ := hs.hop_passes hp
  have hlen : h.hop.state.slots.length = h.slots.length := by
    have := congrArg List.length hpids
    rwa [PidMap.pids, PidMap.pids, List.length_map, List.length_map] at this
  refine ⟨⟨last, hlast⟩, hlen.ge, ?_⟩
  intro p hm
  have hcpu : p.cpu ∈ h.ring.dropLast := (hs.hop_pins hp).2 ▸ List.mem_map_of_mem hm
  rw [hlen]
  exact (hp.inPlay hs).mem_iff.mp (List.mem_of_mem_dropLast hcpu)

theorem Packed.call (hs : Settled h) (hp : Packed free h) (c : Call) :
    KeepsTo h.table.cpus h (h.call c) := by
  cases c with
  | add pid => exact hp.add hs pid
  | announce a =>
    rw [call_announce]
    exact hp.add hs a.pid
  | hop | tick => exact hp.hop hs

theorem Packed.after (hs : Settled h) (hp : Packed free h) (calls : List Call) :
    ∃ last, Packed last (h.after calls) ∧ h.slots.length ≤ (h.after calls).slots.length ∧
      ∀ p ∈ pins (noted calls h), p.cpu ∈ h.table.cpus.take ((h.after calls).slots.length + 1) := by
  induction calls generalizing h free with
  | nil => exact ⟨free, hp, Nat.le_refl _, fun p hm => by cases hm⟩
  | cons c calls ih =>
    obtain ⟨⟨next, hnext⟩, hgrows, hpinned⟩ := hp.call hs c
    obtain ⟨last, hlast, hmore, hrest⟩ := ih (hs.call c).1 hnext
    refine ⟨last, hlast, hgrows.trans hmore, ?_⟩
    intro p hm
    rw [noted, pins_append] at hm
    rcases List.mem_append.mp hm with hm | hm
    · exact List.take_subset_take_left _ (Nat.succ_le_succ hmore) (hpinned p hm)
    · exact (hs.call_shifts c).same_cpus ▸ hrest p hm

/-- What holds of a hopper with some processes: of the CPUs that it has, those in play are the first of
the list, and they go around among the processes. -/
structure Rotates (cpus : List Nat) (h : Hopper) : Prop where
  room : h.slots.length + 1 ≤ cpus.length
  ascending : PidMap.Ascending h.slots
  /-- One CPU is in play for each process, and one more. -/
  inPlay : h.ring.Perm (cpus.take (h.slots.length + 1))
  seated : (PidMap.pids h.slots).map (cpuOf? · h) = h.ring.tail.map fun c => .ok (some c)
  vacant : ∀ cpu ∈ h.ring.head?, ∀ pid, h.cpuOf? pid ≠ .ok (some cpu)
  hops : h.hop.result = .ok () ∧ PidMap.pids h.hop.state.slots = PidMap.pids h.slots
  /-- The first process goes to the CPU that was free, and each other to that of the one before it. -/
  passed : (PidMap.pids h.slots).map (cpuOf? · h.hop.state) =
    h.ring.dropLast.map fun c => .ok (some c)
  pinned : (pins h.hop.notes).map Pin.pid = PidMap.pids h.slots ∧
    (pins h.hop.notes).map Pin.cpu = h.ring.dropLast
  moves : ∀ pid ∈ PidMap.pids h.slots, h.hop.state.cpuOf? pid ≠ h.cpuOf? pid
  /-- Each process has every CPU in play once until all are back. -/
  round : ∀ calls, Hops calls → calls.length = h.slots.length + 1 →
    (∀ pid ∈ PidMap.pids h.slots,
      ((List.range calls.length).map fun k => (h.after (calls.take (k + 1))).cpuOf? pid).Perm
        ((cpus.take calls.length).map fun c => .ok (some c))) ∧
    (h.after calls).slots = h.slots ∧ (h.after calls).table = h.table

theorem Packed.rotates (hs : Settled h) (hp : Packed free h) (hd : h.table.cpus.Nodup) :
    Rotates h.table.cpus h where
  room := hs.room
  ascending := hs.ascending
  inPlay := hp.inPlay hs
  seated := hp.seated hs
  vacant := fun _ hfirst => hp.vacant hs hd hfirst
  hops := by
    obtain ⟨_, _, _, hpids, _⟩ := hs.hop_passes hp
    exact ⟨hs.hop.2, hpids⟩
  passed := by
    obtain ⟨last, hlast, _, hpids, _⟩ := hs.hop_passes hp
    rw [← hpids, hlast.seated hs.hop.1, hs.hop_tail hp]
  pinned := hs.hop_pins hp
  moves := fun _ hm => hs.hop_moves hp hd hm
  round := fun _ hh hn => hp.round hs hh hn

/-- However processes were added and hops were made before. CPUs that are not in play were never used. -/
theorem hops_pass_cpus_on (hc : create interval cpus binder = .ok h) (calls : List Call) :
    Rotates cpus (h.after calls) ∧
      ∀ p ∈ pins (noted calls h), p.cpu ∈ cpus.take ((h.after calls).slots.length + 1) := by
  have hs := created_settled hc
  obtain ⟨free, hp, _, hpinned⟩ := (created_packed hc).after hs calls
  have hcpus : (h.after calls).table.cpus = cpus := created_cpus hc calls
  have hstart : h.table.cpus = cpus := created_cpus hc []
  have hrotates := hp.rotates (hs.after calls) (hcpus ▸ (create_ok hc).2.1)
  exact ⟨hcpus ▸ hrotates, hstart ▸ hpinned⟩

/-- The process that was added second has the smaller pid, so it is the first in the ring. -/
theorem two_processes_go_around :
    ∃ h, create 0 [4, 6, 9, 11] (fun _ _ _ => .ok ()) = .ok h ∧
      (h.after [.add 5, .hop, .add 3]).ring = [9, 4, 6] ∧
      Rotates [4, 6, 9, 11] (h.after [.add 5, .hop, .add 3]) ∧
      ∀ p ∈ pins (noted [.add 5, .hop, .add 3] h), p.cpu ∈ [4, 6, 9] := by
  obtain ⟨h, hc, hring, hlen⟩ : ∃ h, create 0 [4, 6, 9, 11] (fun _ _ _ => .ok ()) = .ok h ∧
      (h.after [.add 5, .hop, .add 3]).ring = [9, 4, 6] ∧
      (h.after [.add 5, .hop, .add 3]).slots.length = 2 := ⟨_, rfl, rfl, rfl⟩
  obtain ⟨hrotates, hpinned⟩ := hops_pass_cpus_on hc [.add 5, .hop, .add 3]
  refine ⟨h, hc, hring, hrotates, ?_⟩
  rw [hlen] at hpinned
  exact hpinned

end Corun.Cpu.Hopper
