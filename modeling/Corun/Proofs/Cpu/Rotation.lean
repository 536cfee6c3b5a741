import Mathlib.Data.List.Rotate
import Corun.Proofs.Cpu.Pins

namespace Corun.Cpu.Hopper
open Os

variable {h : Hopper} {pid : Pid} {free old new : Nat}

/-- The slots of the processes, in ascending order of the pid. -/
def places (h : Hopper) : List Nat := h.slots.map Prod.snd

/-- One slot and those of the processes are the first of the table. -/
def Packed (free : Nat) (h : Hopper) : Prop :=
  (free :: h.places).Perm (List.range (h.slots.length + 1))

theorem Settled.mem_places (hs : Settled h) {slot : Nat} :
    slot ∈ h.places ↔ ∃ p, h.slotOf? p = some slot := by
  constructor
  · intro hm
    obtain ⟨e, he, rfl⟩ := List.mem_map.mp hm
    exact ⟨e.1, hs.listed.1 e he⟩
  · rintro ⟨p, hp⟩
    exact List.mem_map.mpr ⟨_, PidMap.mem_of_find? hp, rfl⟩

namespace Packed

theorem nodup (hp : Packed free h) : (free :: h.places).Nodup := hp.nodup_iff.mpr List.nodup_range

theorem mem_iff (hp : Packed free h) {slot : Nat} :
    slot ∈ free :: h.places ↔ slot < h.slots.length + 1 := by
  rw [List.Perm.mem_iff hp, List.mem_range]

/-- The slots before the one that is left over are all taken, and it is not. -/
theorem firstFree (hs : Settled h) (hp : Packed free h) : h.table.firstFree? = some free := by
  have hfree : free < h.table.taken.length := by
    have hlt := hp.mem_iff.mp List.mem_cons_self
    have hroom := hs.room
    rw [hs.sized]
    omega
  have huntaken : h.table.taken[free]? ≠ some true := fun ht =>
    (List.nodup_cons.mp hp.nodup).1 (hs.mem_places.mpr ((hs.marked free).mp ht))
  have htaken : ∀ slot < free, h.table.taken[slot]? = some true := by
    intro slot hlt
    have hmem : slot ∈ free :: h.places :=
      hp.mem_iff.mpr (hlt.trans (hp.mem_iff.mp List.mem_cons_self))
    have hplace := (List.mem_cons.mp hmem).resolve_left hlt.ne
    exact (hs.marked slot).mpr (hs.mem_places.mp hplace)
  exact Table.firstFree_eq_some.mpr ⟨Table.free_of_untaken hfree huntaken, htaken⟩

/-- A new process takes the slot that was left over, and the next slot of the table is left over then. -/
theorem placed (hp : Packed free h) (hpid : h.slotOf? pid = none) :
    Packed (h.slots.length + 1) (h.placed pid free) := by
  have hperm : ((h.placed pid free).places).Perm (free :: h.places) :=
    (PidMap.insert_perm hpid).map Prod.snd
  have hlen : (h.placed pid free).slots.length = h.slots.length + 1 :=
    PidMap.length_insert_of_none hpid
  rw [Packed, hlen, List.range_succ]
  exact ((hperm.trans hp).cons _).trans (List.perm_append_singleton _ _).symm

end Packed

theorem created_packed {interval : Nat} {cpus : List Nat} {binder : Binder}
    (hc : create interval cpus binder = .ok h) : Packed 0 h := by
  obtain ⟨_, _, rfl⟩ := create_ok hc
  exact .refl _

/-- A process that moves leaves its place in the list and changes its slot. -/
theorem slots_moved (hs : Settled h) {before rest : List (Pid × Nat)}
    (he : h.slots = before ++ (pid, old) :: rest) :
    (h.moved pid old new).slots = before ++ (pid, new) :: rest := by
  change PidMap.insert pid new h.slots = _
  rw [he, PidMap.insert_replace (he ▸ hs.ascending)]

theorem Packed.moved (hs : Settled h) (hp : Packed free h) {before rest : List (Pid × Nat)}
    (he : h.slots = before ++ (pid, old) :: rest) : Packed old (h.moved pid old free) := by
  have hmoved : (h.moved pid old free).slots = before ++ (pid, free) :: rest := slots_moved hs he
  have hlen : (h.moved pid old free).slots.length = h.slots.length := by
    rw [hmoved, he]
    simp
  have hperm : (old :: (h.moved pid old free).places).Perm (free :: h.places) := by
    simp only [places, hmoved, he, List.map_append, List.map_cons]
    refine (List.perm_middle.cons old).trans (.trans (.swap ..) (.cons free ?_))
    exact List.perm_middle.symm
  rw [Packed, hlen]
  exact hperm.trans hp

/-- A round of moves passes slots on: the first of the processes goes to the slot that was left over, and
each other one to that of the process before it. The slot of the last process is left over in the end. -/
theorem Settled.moveAll_passes {before l : List (Pid × Nat)} (hs : Settled h) (hp : Packed free h)
    (he : h.slots = before ++ l) :
    ∃ seated last, (Hopper.moveAll l h).state.slots = before ++ seated ∧
      seated.map Prod.fst = l.map Prod.fst ∧
      seated.map Prod.snd ++ [last] = free :: l.map Prod.snd ∧
      Packed last (Hopper.moveAll l h).state ∧
      (pins (Hopper.moveAll l h).notes).map (fun p => (p.pid, some p.cpu)) =
        seated.map fun e => (e.1, h.table.cpus[e.2]?) := by
  induction l generalizing before h free with
  | nil => exact ⟨[], free, he, rfl, rfl, hp, rfl⟩
  | cons e l ih =>
    obtain ⟨pid, old⟩ := e
    have hold : h.slotOf? pid = some old := hs.listed.1 (pid, old) (by simp [he])
    obtain ⟨new, cpu, hfirst, hf, hc, hmove⟩ := hs.move hold
    cases (hp.firstFree hs).symm.trans hfirst
    have hslots : (h.moved pid old free).slots = (before ++ [(pid, free)]) ++ l := by
      rw [slots_moved hs he]
      simp
    -- What this process leaves is the first free slot for the one after it.
    obtain ⟨seated, last, hseated, hpids, hpassed, hpacked, hpins⟩ :=
      ih (hs.moved hold hf) (hp.moved hs he) hslots
    simp only [Hopper.moveAll, hmove, Step.done]
    refine ⟨(pid, free) :: seated, last, ?_, ?_, ?_, hpacked, ?_⟩
    · rw [hseated]
      simp
    · rw [List.map_cons, List.map_cons, hpids]
    · rw [List.map_cons, List.cons_append, hpassed, List.map_cons]
    · rw [pins_append, pins_pin, List.map_append, hpins]
      simp only [List.map_cons, List.map_nil, List.singleton_append, Table.cpu_eq_ok.mp hc]
      rfl

theorem Settled.hop_passes (hs : Settled h) (hp : Packed free h) :
    ∃ last, Packed last h.hop.state ∧ (last :: h.hop.state.places).rotate 1 = free :: h.places ∧
      PidMap.pids h.hop.state.slots = PidMap.pids h.slots ∧
      (pins h.hop.notes).map (fun p => (p.pid, some p.cpu)) =
        h.hop.state.slots.map fun e => (e.1, h.table.cpus[e.2]?) := by
  obtain ⟨seated, last, hseated, hpids, hpassed, hpacked, hpins⟩ :=
    hs.moveAll_passes hp (List.nil_append h.slots).symm
  rw [List.nil_append] at hseated
  refine ⟨last, hpacked, ?_, ?_, ?_⟩
  · rw [List.rotate_cons_succ, List.rotate_zero, places, Hopper.hop, hseated]
    exact hpassed
  · rw [PidMap.pids, Hopper.hop, hseated]
    exact hpids
  · rw [Hopper.hop, hpins, hseated]

/-- Calls that do nothing but hop. -/
def Hops (calls : List Call) : Prop := ∀ c ∈ calls, c = .hop ∨ c = .tick

theorem call_hops {c : Call} (hc : c = .hop ∨ c = .tick) : h.call c = h.hop := by
  rcases hc with rfl | rfl <;> rfl

theorem Settled.after_passes {hops : List Call} (hs : Settled h) (hp : Packed free h)
    (hh : Hops hops) :
    ∃ last, Packed last (h.after hops) ∧
      (last :: (h.after hops).places).rotate hops.length = free :: h.places ∧
      PidMap.pids (h.after hops).slots = PidMap.pids h.slots := by
  induction hops generalizing h free with
  | nil => exact ⟨free, hp, List.rotate_zero _, rfl⟩
  | cons c hops ih =>
    have hc : h.call c = h.hop := call_hops (hh c List.mem_cons_self)
    obtain ⟨next, hnext, hone, hpids, _⟩ := hs.hop_passes hp
    obtain ⟨last, hlast, hmany, hsame⟩ :=
      ih hs.hop.1 hnext fun d hd => hh d (List.mem_cons_of_mem _ hd)
    simp only [Hopper.after, List.foldl_cons, hc] at hlast hmany hsame ⊢
    refine ⟨last, hlast, ?_, hsame.trans hpids⟩
    rw [List.length_cons, ← List.rotate_rotate, hmany, hone]

/-- The place of a process in the list says which slot it has. -/
theorem Settled.slotOf_at (hs : Settled h) {i : Nat} (hi : (PidMap.pids h.slots)[i]? = some pid) :
    h.slotOf? pid = h.places[i]? := by
  rw [PidMap.pids, List.getElem?_map] at hi
  obtain ⟨e, he, rfl⟩ := Option.map_eq_some_iff.mp hi
  rw [hs.listed.1 e (List.mem_of_getElem? he), places, List.getElem?_map, he]
  rfl

theorem Packed.slots_lt (hs : Settled h) (hp : Packed free h) :
    ∀ slot ∈ free :: h.places, slot < h.table.size := by
  intro slot hm
  have hlt := hp.mem_iff.mp hm
  have hroom := hs.room
  omega

theorem places_length (h : Hopper) : h.places.length = h.slots.length := List.length_map ..

/-- After some hops, no more than there are slots in play, these have gone on by so many processes. -/
theorem Settled.ring_after {hops : List Call} (hs : Settled h) (hp : Packed free h) (hh : Hops hops)
    (hle : hops.length ≤ h.slots.length + 1) :
    ∃ last, Packed last (h.after hops) ∧ PidMap.pids (h.after hops).slots = PidMap.pids h.slots ∧
      last :: (h.after hops).places =
        (free :: h.places).rotate (h.slots.length + 1 - hops.length) := by
  obtain ⟨last, hlast, hturned, hpids⟩ := hs.after_passes hp hh
  refine ⟨last, hlast, hpids, ?_⟩
  have hlen : (last :: (h.after hops).places).length = h.slots.length + 1 := by
    rw [← List.length_rotate (last :: _) hops.length, hturned, List.length_cons, places_length]
  -- Turned back by the hops and on by the rest of the round, the ring is as it was.
  rw [← hturned, List.rotate_rotate, Nat.add_sub_cancel' hle, ← hlen, List.rotate_length]

theorem Settled.slot_after {hops : List Call} {i : Nat} (hs : Settled h) (hp : Packed free h)
    (hh : Hops hops) (hle : hops.length ≤ h.slots.length + 1)
    (hi : (PidMap.pids h.slots)[i]? = some pid) :
    (h.after hops).slotOf? pid =
      ((free :: h.places).rotate (h.slots.length + 1 - hops.length))[i + 1]? := by
  obtain ⟨last, _, hpids, hring⟩ := hs.ring_after hp hh hle
  rw [(hs.after hops).slotOf_at (hpids ▸ hi), ← hring, List.getElem?_cons_succ]

/-- What comes to one place of a ring that is turned on until it is back is all of it, read backwards. -/
theorem turns_at (l : List Nat) {i : Nat} (hi : i < l.length) :
    ((List.range l.length).map fun k => (l.rotate (l.length - (k + 1)))[i]?) =
      (l.rotate i).reverse.map some := by
  refine List.ext_getElem (by simp) fun k hk _ => ?_
  have hk : k < l.length := by simpa using hk
  have hsame : i + (l.length - (k + 1)) = l.length - 1 - k + i := by omega
  simp only [List.getElem_map, List.getElem_range, List.getElem_reverse, List.length_rotate,
    List.getElem_rotate, List.getElem?_rotate hi, hsame]
  exact List.getElem?_eq_getElem _

/-- As many hops as there are slots in play lead back to where they started. On the way, each process
has had every one of these slots once. -/
theorem Settled.after_round {hops : List Call} (hs : Settled h) (hp : Packed free h)
    (hh : Hops hops) (hn : hops.length = h.slots.length + 1) :
    (h.after hops).slots = h.slots ∧
    ∀ pid ∈ PidMap.pids h.slots,
      ((List.range hops.length).map fun k => (h.after (hops.take (k + 1))).slotOf? pid).Perm
        ((List.range hops.length).map some) := by
  refine ⟨?_, ?_⟩
  · obtain ⟨last, _, hpids, hring⟩ := hs.ring_after hp hh hn.le
    rw [hn, Nat.sub_self, List.rotate_zero] at hring
    exact (List.zip_of_prod hpids (List.cons.inj hring).2).trans (List.zip_of_prod rfl rfl).symm
  · intro pid hpid
    have hlen : (free :: h.places).length = hops.length := by
      rw [hn, List.length_cons, places_length]
    obtain ⟨i, hi⟩ := List.getElem?_of_mem hpid
    have hplace : i + 1 < (free :: h.places).length := by
      have hlt := (List.getElem?_eq_some_iff.mp hi).1
      simpa [PidMap.pids, places] using hlt
    have hslots : ((List.range hops.length).map fun k => (h.after (hops.take (k + 1))).slotOf? pid) =
        ((free :: h.places).rotate (i + 1)).reverse.map some := by
      rw [← turns_at _ hplace, hlen]
      refine List.map_congr_left fun k hk => ?_
      have htake : (hops.take (k + 1)).length = k + 1 :=
        List.length_take_of_le (List.mem_range.mp hk)
      have hhops : Hops (hops.take (k + 1)) := fun c hc => hh c (List.mem_of_mem_take hc)
      rw [hs.slot_after hp hhops (by rw [htake, ← hn]; exact List.mem_range.mp hk) hi, htake, hn]
    rw [hslots, hn]
    exact (((List.reverse_perm _).trans (List.rotate_perm _ _)).trans hp).map some

end Corun.Cpu.Hopper
