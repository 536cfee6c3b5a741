import Corun.Cpu.Table

namespace Corun.Cpu.Table

variable {t : Table} {slot k : Nat} {b : Bool}

/-- The table with a slot taken or not taken, and all others as they are. -/
def mark (slot : Nat) (b : Bool) (t : Table) : Table := { t with taken := t.taken.set slot b }

@[simp] theorem mark_size : (t.mark slot b).size = t.size := rfl

@[simp] theorem mark_length : (t.mark slot b).taken.length = t.taken.length := List.length_set

/-- No slot of a new table is taken. -/
theorem not_mem_ofCpus (cpus : List Nat) : true ∉ (ofCpus cpus).taken := by
  intro h
  obtain ⟨_, _, hc⟩ := List.mem_map.mp h
  cases hc

theorem mark_same (h : slot < t.taken.length) : (t.mark slot b).taken[slot]? = some b :=
  List.getElem?_set_self h

theorem mark_other (h : slot ≠ k) : (t.mark slot b).taken[k]? = t.taken[k]? :=
  List.getElem?_set_ne h

theorem lt_of_taken (h : t.taken[slot]? = some b) : slot < t.taken.length :=
  (List.getElem?_eq_some_iff.mp h).1

theorem free_of_untaken (h : slot < t.taken.length) (hn : t.taken[slot]? ≠ some true) :
    t.taken[slot]? = some false := by
  rw [List.getElem?_eq_getElem h] at hn ⊢
  simpa using hn

theorem allocate_free (h : t.taken[slot]? = some false) :
    t.allocate slot = .ok (t.mark slot true) := by
  simp [allocate, h, mark]

theorem release_taken (h : t.taken[slot]? = some b) :
    t.release slot = .ok (t.mark slot false) := by
  simp [release, h, mark]

theorem cpu_of_lt (h : slot < t.size) : ∃ c, t.cpu slot = .ok c := by
  have hlt : slot < t.cpus.length := h
  exact ⟨t.cpus[slot], by simp [cpu, hlt]⟩

theorem cpu_eq_ok {c : Nat} : t.cpu slot = .ok c ↔ t.cpus[slot]? = some c := by
  cases hs : t.cpus[slot]? with
  | none => simp [cpu, hs, Result.panics]
  | some d => simp [cpu, hs]

/-- Different slots have different CPUs. -/
theorem cpu_inj {a b c : Nat} (hd : t.cpus.Nodup) (ha : t.cpu a = .ok c) (hb : t.cpu b = .ok c) :
    a = b := by
  have hlt := (List.getElem?_eq_some_iff.mp (cpu_eq_ok.mp ha)).1
  exact (List.getElem?_inj hlt hd).mp ((cpu_eq_ok.mp ha).trans (cpu_eq_ok.mp hb).symm)

theorem occupied_mark_true (h : t.taken[slot]? = some false) :
    (t.mark slot true).occupied = t.occupied + 1 := by
  obtain ⟨hlt, hb⟩ := List.getElem?_eq_some_iff.mp h
  simp [occupied, mark, List.count_set hlt, hb]

theorem occupied_mark_false (h : t.taken[slot]? = some true) :
    (t.mark slot false).occupied + 1 = t.occupied := by
  obtain ⟨hlt, hb⟩ := List.getElem?_eq_some_iff.mp h
  have hpos : 0 < t.taken.count true := List.count_pos_iff.mpr (hb ▸ List.getElem_mem hlt)
  have hset := List.count_set (a := false) (b := true) hlt
  simp only [hb, beq_self_eq_true, if_true, Bool.false_beq, Bool.not_true, Bool.false_eq_true,
    if_false, Nat.add_zero] at hset
  simp only [occupied, mark, hset]
  omega

/-- The slot that is found is free, and all slots before it are taken. -/
theorem firstFree_eq_some : t.firstFree? = some slot ↔
    t.taken[slot]? = some false ∧ ∀ k < slot, t.taken[k]? = some true := by
  rw [firstFree?, List.findIdx?_eq_some_iff_getElem]
  constructor
  · rintro ⟨hlt, hfree, hbefore⟩
    refine ⟨List.getElem?_eq_some_iff.mpr ⟨hlt, by simpa using hfree⟩, fun k hk => ?_⟩
    exact List.getElem?_eq_some_iff.mpr ⟨Nat.lt_trans hk hlt, by simpa using hbefore k hk⟩
  · rintro ⟨hfree, hbefore⟩
    obtain ⟨hlt, hb⟩ := List.getElem?_eq_some_iff.mp hfree
    refine ⟨hlt, by simp [hb], fun k hk => ?_⟩
    obtain ⟨_, hb⟩ := List.getElem?_eq_some_iff.mp (hbefore k hk)
    simp [hb]

theorem firstFree_eq_none : t.firstFree? = none ↔ t.occupied = t.taken.length := by
  rw [firstFree?, List.findIdx?_eq_none_iff, occupied, List.count_eq_length]
  simp

theorem free_of_firstFree (h : t.firstFree? = some slot) : t.taken[slot]? = some false :=
  (firstFree_eq_some.mp h).1

theorem firstFree_of_room (h : t.occupied < t.taken.length) : ∃ slot, t.firstFree? = some slot :=
  Option.ne_none_iff_exists'.mp fun hn => Nat.ne_of_lt h (firstFree_eq_none.mp hn)

end Corun.Cpu.Table
