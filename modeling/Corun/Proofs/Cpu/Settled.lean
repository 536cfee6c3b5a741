import Corun.Cpu.Hopper
import Corun.Proofs.Cpu.Table
import Corun.Proofs.PidMap

namespace Corun.Cpu.Hopper
open Os

variable {h : Hopper} {pid : Pid} {old new slot cpu : Nat}

/-- Tables and slots agree, and there is always room for one process to move. -/
structure Settled (h : Hopper) : Prop where
  sized : h.table.taken.length = h.table.size
  ascending : PidMap.Ascending h.slots
  apart : ∀ p q slot, h.slotOf? p = some slot → h.slotOf? q = some slot → p = q
  marked : ∀ slot, h.table.taken[slot]? = some true ↔ ∃ p, h.slotOf? p = some slot
  counted : h.table.occupied = h.slots.length
  room : h.slots.length < h.table.size

theorem Settled.within (hs : Settled h) (hp : h.slotOf? pid = some slot) :
    slot < h.table.size := by
  rw [← hs.sized]
  exact Table.lt_of_taken ((hs.marked slot).mpr ⟨pid, hp⟩)

/-- A settled hopper finds a free slot, and a CPU for it. -/
theorem Settled.landing (hs : Settled h) : ∃ slot cpu, h.table.firstFree? = some slot ∧
    h.table.taken[slot]? = some false ∧ h.table.cpu slot = .ok cpu := by
  have hroom : h.table.occupied < h.table.taken.length := by
    rw [hs.counted, hs.sized]
    exact hs.room
  obtain ⟨slot, hf⟩ := Table.firstFree_of_room hroom
  have hfree := Table.free_of_firstFree hf
  obtain ⟨cpu, hc⟩ := Table.cpu_of_lt (hs.sized ▸ Table.lt_of_taken hfree)
  exact ⟨slot, cpu, hf, hfree, hc⟩

theorem create_settled (interval : Nat) {cpus : List Nat} (binder : Binder)
    (hne : cpus ≠ []) (hd : cpus.Nodup) :
    ∃ h, create interval cpus binder = .ok h ∧ Settled h := by
  refine ⟨⟨interval, .ofCpus cpus, [], binder, 0⟩, by simp [create, hne, hd], ?_⟩
  refine ⟨by simp [Table.ofCpus, Table.size], PidMap.ascending_nil, ?_, ?_, ?_, ?_⟩
  · intro p q slot hp
    simp [slotOf?, PidMap.find?_nil] at hp
  · intro slot
    constructor
    · intro h
      exact absurd (List.mem_of_getElem? h) (Table.not_mem_ofCpus cpus)
    · rintro ⟨p, hp⟩
      simp [slotOf?, PidMap.find?_nil] at hp
  · exact List.count_eq_zero.mpr (Table.not_mem_ofCpus cpus)
  · exact List.length_pos_iff.mpr hne

theorem create_ok {interval : Nat} {cpus : List Nat} {binder : Binder}
    (hc : create interval cpus binder = .ok h) :
    cpus ≠ [] ∧ cpus.Nodup ∧ h = ⟨interval, .ofCpus cpus, [], binder, 0⟩ := by
  simp only [create] at hc
  split at hc
  · cases hc
  · rename_i hne
    split at hc
    · cases hc
    · rename_i hd
      cases hc
      exact ⟨hne, by simpa using hd, rfl⟩

theorem created_settled {interval : Nat} {cpus : List Nat} {binder : Binder}
    (hc : create interval cpus binder = .ok h) : Settled h := by
  obtain ⟨hne, hd, -⟩ := create_ok hc
  obtain ⟨k, hk, hs⟩ := create_settled interval binder hne hd
  cases hc.symm.trans hk
  exact hs

/-- A process put on a slot, with one more pin tried. -/
def placed (pid : Pid) (slot : Nat) (h : Hopper) : Hopper :=
  { h with
    attempts := h.attempts + 1
    table := h.table.mark slot true
    slots := PidMap.insert pid slot h.slots }

/-- A process that was put on a new slot and has left its old one. -/
def moved (pid : Pid) (old new : Nat) (h : Hopper) : Hopper :=
  { h.placed pid new with table := (h.table.mark new true).mark old false }

theorem slotOf_placed (q : Pid) :
    (h.placed pid slot).slotOf? q = if q = pid then some slot else h.slotOf? q :=
  PidMap.find?_insert pid q slot h.slots

theorem slotOf_moved (q : Pid) :
    (h.moved pid old new).slotOf? q = if q = pid then some new else h.slotOf? q :=
  PidMap.find?_insert pid q new h.slots

theorem settle_free (hf : h.table.taken[slot]? = some false) :
    h.settle pid slot cpu = .done (h.placed pid slot) () (h.pin pid cpu).2 := by
  simp [settle, pin, Table.allocate_free hf, placed]

theorem Settled.fresh (hs : Settled h) (hf : h.table.taken[slot]? = some false) (q : Pid) :
    h.slotOf? q ≠ some slot := by
  intro hq
  have := (hs.marked slot).mpr ⟨q, hq⟩
  simp [hf] at this

/-- The slot of a process is not free, so it is not the one that it moves to. -/
theorem Settled.free_ne (hs : Settled h) (hp : h.slotOf? pid = some old)
    (hf : h.table.taken[new]? = some false) : new ≠ old := by
  rintro rfl
  exact hs.fresh hf pid hp

theorem Settled.apart_insert (hs : Settled h) (hf : h.table.taken[slot]? = some false)
    (p q : Pid) (k : Nat) (hp : (if p = pid then some slot else h.slotOf? p) = some k)
    (hq : (if q = pid then some slot else h.slotOf? q) = some k) : p = q := by
  split at hp <;> split at hq
  · simp_all
  · cases hp
    exact absurd hq (hs.fresh hf q)
  · cases hq
    exact absurd hp (hs.fresh hf p)
  · exact hs.apart p q k hp hq

/-- The slots that are held after a process got one are that one and those of the other processes. -/
theorem held_insert (k : Nat) :
    (∃ q, (if q = pid then some slot else h.slotOf? q) = some k) ↔
      slot = k ∨ ∃ q, q ≠ pid ∧ h.slotOf? q = some k := by
  constructor
  · rintro ⟨q, hq⟩
    by_cases hp : q = pid
    · rw [if_pos hp] at hq
      exact .inl (Option.some.inj hq)
    · rw [if_neg hp] at hq
      exact .inr ⟨q, hp, hq⟩
  · rintro (rfl | ⟨q, hp, hq⟩)
    · exact ⟨pid, if_pos rfl⟩
    · exact ⟨q, (if_neg hp).trans hq⟩

theorem Settled.placed (hs : Settled h) (hp : h.slotOf? pid = none)
    (hf : h.table.taken[slot]? = some false) (hr : h.slots.length + 1 < h.table.size) :
    Settled (h.placed pid slot) := by
  have hlen : (PidMap.insert pid slot h.slots).length = h.slots.length + 1 :=
    PidMap.length_insert_of_none hp
  refine ⟨?_, hs.ascending.insert, ?_, ?_, ?_, ?_⟩
  · simpa [Hopper.placed] using hs.sized
  · intro p q k hpk hqk
    rw [slotOf_placed] at hpk hqk
    exact hs.apart_insert hf p q k hpk hqk
  · intro k
    simp only [slotOf_placed, held_insert]
    by_cases hk : slot = k
    · subst hk
      exact iff_of_true (Table.mark_same (Table.lt_of_taken hf)) (.inl rfl)
    · change (h.table.mark slot true).taken[k]? = some true ↔ _
      rw [Table.mark_other hk, hs.marked k]
      constructor
      · rintro ⟨q, hq⟩
        refine .inr ⟨q, ?_, hq⟩
        rintro rfl
        simp [hp] at hq
      · rintro (hslot | ⟨q, _, hq⟩)
        · exact absurd hslot hk
        · exact ⟨q, hq⟩
  · change (h.table.mark slot true).occupied = _
    rw [Table.occupied_mark_true hf, hs.counted]
    exact hlen.symm
  · change (PidMap.insert pid slot h.slots).length < h.table.size
    omega

theorem Settled.moved (hs : Settled h) (hp : h.slotOf? pid = some old)
    (hf : h.table.taken[new]? = some false) : Settled (h.moved pid old new) := by
  have hold := (hs.marked old).mpr ⟨pid, hp⟩
  have hne := hs.free_ne hp hf
  have holdNew : (h.table.mark new true).taken[old]? = some true := by
    rw [Table.mark_other hne, hold]
  have hlen : (PidMap.insert pid new h.slots).length = h.slots.length :=
    PidMap.length_insert_of_some hs.ascending hp
  refine ⟨?_, hs.ascending.insert, ?_, ?_, ?_, ?_⟩
  · simpa [Hopper.moved, Hopper.placed] using hs.sized
  · intro p q k hpk hqk
    rw [slotOf_moved] at hpk hqk
    exact hs.apart_insert hf p q k hpk hqk
  · intro k
    change ((h.table.mark new true).mark old false).taken[k]? = some true ↔ _
    simp only [slotOf_moved, held_insert]
    by_cases hko : old = k
    · subst hko
      rw [Table.mark_same (Table.lt_of_taken holdNew)]
      refine iff_of_false (by simp) ?_
      rintro (hslot | ⟨q, hqp, hq⟩)
      · exact hne hslot
      · exact hqp (hs.apart q pid old hq hp)
    · rw [Table.mark_other hko]
      by_cases hkn : new = k
      · subst hkn
        exact iff_of_true (Table.mark_same (Table.lt_of_taken hf)) (.inl rfl)
      · rw [Table.mark_other hkn, hs.marked k]
        constructor
        · rintro ⟨q, hq⟩
          refine .inr ⟨q, ?_, hq⟩
          rintro rfl
          exact hko (Option.some.inj (hp.symm.trans hq))
        · rintro (hslot | ⟨q, _, hq⟩)
          · exact absurd hslot hkn
          · exact ⟨q, hq⟩
  · change ((h.table.mark new true).mark old false).occupied = _
    have hin := Table.occupied_mark_true hf
    have hout := Table.occupied_mark_false holdNew
    have hcount := hs.counted
    change _ = (PidMap.insert pid new h.slots).length
    omega
  · change (PidMap.insert pid new h.slots).length < h.table.size
    rw [hlen]
    exact hs.room

theorem add_tracked (hp : h.slotOf? pid = some slot) :
    h.add pid = .fail h (.duplicateTarget pid) [] := by
  have hc : PidMap.contains pid h.slots = true := PidMap.contains_iff.mpr ⟨slot, hp⟩
  simp [add, hc]

theorem add_full (hp : h.slotOf? pid = none) (hr : h.table.size ≤ h.slots.length + 1) :
    h.add pid = .fail h (.noFreeCpu h.table.size) [] := by
  have hc : PidMap.contains pid h.slots = false := PidMap.contains_eq_false_iff.mpr hp
  simp [add, hc, hr]

theorem Settled.add_room (hs : Settled h) (hp : h.slotOf? pid = none)
    (hr : h.slots.length + 1 < h.table.size) :
    ∃ slot cpu, h.table.firstFree? = some slot ∧ h.table.taken[slot]? = some false ∧
      h.table.cpu slot = .ok cpu ∧
      h.add pid = .done (h.placed pid slot) ()
        (.info s!"adding process {pid} on cpu {cpu}" :: (h.pin pid cpu).2) := by
  obtain ⟨slot, cpu, hfirst, hf, hc⟩ := hs.landing
  have hcontains : PidMap.contains pid h.slots = false := PidMap.contains_eq_false_iff.mpr hp
  refine ⟨slot, cpu, hfirst, hf, hc, ?_⟩
  simp only [add, hcontains, Nat.not_le.mpr hr, hfirst, hc, settle_free hf, Step.done,
    Bool.false_eq_true, if_false]

theorem Settled.move (hs : Settled h) (hp : h.slotOf? pid = some old) :
    ∃ new cpu, h.table.firstFree? = some new ∧ h.table.taken[new]? = some false ∧
      h.table.cpu new = .ok cpu ∧
      h.move pid old = .done (h.moved pid old new) () (h.pin pid cpu).2 := by
  obtain ⟨new, cpu, hfirst, hf, hc⟩ := hs.landing
  have hold := (hs.marked old).mpr ⟨pid, hp⟩
  have hne := hs.free_ne hp hf
  have hrelease : (h.table.mark new true).release old =
      .ok ((h.table.mark new true).mark old false) :=
    Table.release_taken ((Table.mark_other hne).trans hold)
  refine ⟨new, cpu, hfirst, hf, hc, ?_⟩
  simp only [Hopper.move, hfirst, hc, settle_free hf, Step.done, Hopper.placed, Hopper.moved,
    hrelease]

/-- A move leaves the slots of other processes as they are. -/
theorem listed_moved {l : List (Pid × Nat)} (hd : pid ∉ l.map Prod.fst)
    (hl : ∀ e ∈ l, h.slotOf? e.1 = some e.2) :
    ∀ e ∈ l, (h.moved pid old new).slotOf? e.1 = some e.2 := by
  intro e he
  have hne : e.1 ≠ pid := by
    rintro heq
    exact hd (heq ▸ List.mem_map_of_mem he)
  rw [slotOf_moved, if_neg hne]
  exact hl e he

/-- Processes move one after another, each from the slot that it had before the first moved. -/
theorem Settled.moveAll {l : List (Pid × Nat)} (hs : Settled h)
    (hl : ∀ e ∈ l, h.slotOf? e.1 = some e.2) (hd : (l.map Prod.fst).Nodup) :
    (moveAll l h).result = .ok () ∧ Settled (moveAll l h).state ∧
      ∀ q, q ∉ l.map Prod.fst → (Hopper.moveAll l h).state.slotOf? q = h.slotOf? q := by
  induction l generalizing h with
  | nil => exact ⟨rfl, hs, fun q _ => rfl⟩
  | cons e l ih =>
    obtain ⟨pid, old⟩ := e
    simp only [List.map_cons, List.nodup_cons] at hd
    have hp : h.slotOf? pid = some old := hl (pid, old) List.mem_cons_self
    obtain ⟨new, cpu, _, hf, _, hmove⟩ := hs.move hp
    have hrest : ∀ e ∈ l, (h.moved pid old new).slotOf? e.1 = some e.2 :=
      listed_moved hd.1 fun e he => hl e (List.mem_cons_of_mem _ he)
    obtain ⟨hok, hsettled, hothers⟩ := ih (hs.moved hp hf) hrest hd.2
    simp only [Hopper.moveAll, hmove, Step.done]
    refine ⟨hok, hsettled, ?_⟩
    intro q hq
    simp only [List.map_cons, List.mem_cons, not_or] at hq
    rw [hothers q hq.2, slotOf_moved, if_neg hq.1]

end Corun.Cpu.Hopper
