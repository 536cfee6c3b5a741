import Mathlib.Data.Finset.Card
import Mathlib.Data.Finset.Range
import Mathlib.Order.Bounds.Basic
import Corun.Note
import Corun.Proofs.Cpu.Table

namespace Corun.Cpu.Table

variable {t : Table} {slot k : Nat} {b : Bool} {cpus : List Nat} {s : Finset Nat}

/-- The slots that are taken. -/
def takenSlots (t : Table) : Finset Nat :=
  (Finset.range t.taken.length).filter fun slot => t.taken[slot]? = some true

theorem mem_takenSlots : slot ∈ t.takenSlots ↔ t.taken[slot]? = some true := by
  rw [takenSlots, Finset.mem_filter, Finset.mem_range]
  exact ⟨fun h => h.2, fun h => ⟨lt_of_taken h, h⟩⟩

/-- A slot is free if it is there and not in the set. -/
theorem untaken_iff : t.taken[slot]? = some false ↔
    slot < t.taken.length ∧ slot ∉ t.takenSlots := by
  rw [mem_takenSlots]
  constructor
  · intro h
    exact ⟨lt_of_taken h, by simp [h]⟩
  · rintro ⟨hlt, hn⟩
    exact free_of_untaken hlt hn

theorem takenSlots_ofCpus (cpus : List Nat) : (ofCpus cpus).takenSlots = ∅ := by
  refine Finset.eq_empty_of_forall_notMem fun slot hm => ?_
  exact not_mem_ofCpus cpus (List.mem_of_getElem? (mem_takenSlots.mp hm))

theorem mem_takenSlots_mark (h : slot < t.taken.length) :
    k ∈ (t.mark slot b).takenSlots ↔ if k = slot then b = true else k ∈ t.takenSlots := by
  rw [mem_takenSlots]
  split
  · subst k
    rw [mark_same h, Option.some.injEq]
  · rename_i hne
    rw [mark_other (Ne.symm hne), mem_takenSlots]

theorem takenSlots_mark_true (h : slot < t.taken.length) :
    (t.mark slot true).takenSlots = insert slot t.takenSlots := by
  ext k
  rw [mem_takenSlots_mark h, Finset.mem_insert]
  by_cases hk : k = slot <;> simp [hk]

theorem takenSlots_mark_false (h : slot < t.taken.length) :
    (t.mark slot false).takenSlots = t.takenSlots.erase slot := by
  ext k
  rw [mem_takenSlots_mark h, Finset.mem_erase]
  by_cases hk : k = slot <;> simp [hk]

theorem card_takenSlots (t : Table) : t.takenSlots.card = t.occupied := by
  have hset : t.takenSlots = (t.taken.findIdxs (· == true)).toFinset := by
    ext slot
    rw [mem_takenSlots, List.mem_toFinset, List.mem_findIdxs_iff_exists_getElem_pos,
      List.getElem?_eq_some_iff]
    simp only [beq_iff_eq]
  rw [hset, List.toFinset_card_of_nodup List.nodup_findIdxs, List.length_findIdxs]
  rfl

theorem firstFree_isLeast : t.firstFree? = some slot ↔
    IsLeast {k | k < t.taken.length ∧ k ∉ t.takenSlots} slot := by
  rw [firstFree_eq_some, untaken_iff]
  constructor
  · rintro ⟨hfree, hbefore⟩
    refine ⟨hfree, fun k hk => ?_⟩
    by_contra hlt
    exact hk.2 (mem_takenSlots.mpr (hbefore k (Nat.not_le.mp hlt)))
  · rintro ⟨hfree, hleast⟩
    refine ⟨hfree, fun k hk => ?_⟩
    by_contra hn
    have hle : slot ≤ k := hleast ⟨hk.trans hfree.1, fun hm => hn (mem_takenSlots.mp hm)⟩
    exact Nat.not_le.mpr hk hle

/-- What changes a table. -/
inductive Call where
  | allocate (slot : Nat)
  | release (slot : Nat)

/-- A call whose panic is caught. It checks before it writes, so that the table is then as it was. -/
def call (c : Call) (t : Table) : Step Table Unit :=
  let changed := match c with
    | .allocate slot => t.allocate slot
    | .release slot => t.release slot
  match changed with
  | .ok t => .done t () []
  | .error stop => ⟨.error stop, t, []⟩

/-- The table after calls one after another, those that panic included. -/
def after (calls : List Call) (t : Table) : Table :=
  calls.foldl (fun t c => (t.call c).state) t

/-- The same call to a set of slots, all of which are below a size. -/
def Call.onSet (size : Nat) (s : Finset Nat) : Call → Step (Finset Nat) Unit
  | .allocate slot =>
    if size ≤ slot then .panics s (.outOfBounds size slot) []
    else if slot ∈ s then .panics s .slotTaken []
    else .done (insert slot s) () []
  | .release slot =>
    if size ≤ slot then .panics s (.outOfBounds size slot) []
    else .done (s.erase slot) () []

def setAfter (size : Nat) (calls : List Call) (s : Finset Nat) : Finset Nat :=
  calls.foldl (fun s c => (c.onSet size s).state) s

theorem call_allocate (t : Table) (slot : Nat) : t.call (.allocate slot) =
    if t.taken.length ≤ slot then .panics t (.outOfBounds t.taken.length slot) []
    else if slot ∈ t.takenSlots then .panics t .slotTaken []
    else .done (t.mark slot true) () [] := by
  simp only [call, allocate]
  split_ifs with hout htaken
  · rw [List.getElem?_eq_none hout]
    rfl
  · rw [mem_takenSlots.mp htaken]
    rfl
  · rw [untaken_iff.mpr ⟨Nat.not_le.mp hout, htaken⟩]
    rfl

theorem call_release (t : Table) (slot : Nat) : t.call (.release slot) =
    if t.taken.length ≤ slot then .panics t (.outOfBounds t.taken.length slot) []
    else .done (t.mark slot false) () [] := by
  simp only [call]
  split_ifs with hout
  · rw [release, List.getElem?_eq_none hout]
    rfl
  · rw [release_taken (List.getElem?_eq_getElem (Nat.not_le.mp hout))]

/-- A call does to the taken slots what it does to the set of them, and comes to the same. -/
theorem call_onto (t : Table) (c : Call) :
    (t.call c).onto takenSlots = c.onSet t.taken.length t.takenSlots := by
  cases c with
  | allocate slot =>
    rw [call_allocate, Call.onSet]
    split_ifs with hout htaken
    · rfl
    · rfl
    · rw [← takenSlots_mark_true (Nat.not_le.mp hout)]
      rfl
  | release slot =>
    rw [call_release, Call.onSet]
    split_ifs with hout
    · rfl
    · rw [← takenSlots_mark_false (Nat.not_le.mp hout)]
      rfl

theorem call_keeps (t : Table) (c : Call) :
    (t.call c).state.cpus = t.cpus ∧ (t.call c).state.taken.length = t.taken.length := by
  cases c with
  | allocate slot =>
    rw [call_allocate]
    split_ifs
    · exact ⟨rfl, rfl⟩
    · exact ⟨rfl, rfl⟩
    · exact ⟨rfl, mark_length⟩
  | release slot =>
    rw [call_release]
    split_ifs
    · exact ⟨rfl, rfl⟩
    · exact ⟨rfl, mark_length⟩

/-- A table over a list of CPUs in which the slots of a set are taken. -/
structure Holds (cpus : List Nat) (s : Finset Nat) (t : Table) : Prop where
  listed : t.cpus = cpus
  sized : t.taken.length = cpus.length
  taken : t.takenSlots = s

theorem holds_ofCpus (cpus : List Nat) : Holds cpus ∅ (ofCpus cpus) :=
  ⟨rfl, List.length_map _, takenSlots_ofCpus cpus⟩

namespace Holds

theorem onto (h : Holds cpus s t) (c : Call) :
    (t.call c).onto takenSlots = c.onSet cpus.length s := by
  rw [call_onto, h.sized, h.taken]

theorem call (h : Holds cpus s t) (c : Call) :
    Holds cpus (c.onSet cpus.length s).state (t.call c).state := by
  obtain ⟨hcpus, hlen⟩ := call_keeps t c
  exact ⟨hcpus.trans h.listed, hlen.trans h.sized, congrArg Step.state (h.onto c)⟩

theorem after (h : Holds cpus s t) (calls : List Call) :
    Holds cpus (setAfter cpus.length calls s) (t.after calls) := by
  induction calls generalizing s t with
  | nil => exact h
  | cons c calls ih => exact ih (h.call c)

end Holds

/-- What a table over a list of CPUs tells, and what its next call comes to, while the slots of a set are
taken. -/
structure Occupancy (cpus : List Nat) (s : Finset Nat) (t : Table) : Prop where
  taken : t.takenSlots = s
  /-- Also if the call panics. -/
  next : ∀ c, (t.call c).onto takenSlots = c.onSet cpus.length s
  counted : t.occupied = s.card
  least : ∀ slot, t.firstFree? = some slot ↔ IsLeast {k | k < cpus.length ∧ k ∉ s} slot
  full : t.firstFree? = none ↔ t.occupied = t.size
  sized : t.size = cpus.length
  cpu : ∀ slot, t.cpu slot = (ofCpus cpus).cpu slot

theorem Holds.occupancy (h : Holds cpus s t) : Occupancy cpus s t where
  taken := h.taken
  next := h.onto
  counted := by rw [← card_takenSlots, h.taken]
  least := fun slot => by rw [firstFree_isLeast, h.sized, h.taken]
  full := by rw [firstFree_eq_none, h.sized, size, h.listed]
  sized := by rw [size, h.listed]
  cpu := fun slot => by rw [cpu, cpu, h.listed]; rfl

/-- A new table and the empty set stay together, whatever slots the calls name and however many of them
panic. -/
theorem table_agrees_with_set (cpus : List Nat) (calls : List Call) :
    Occupancy cpus (setAfter cpus.length calls ∅) ((ofCpus cpus).after calls) :=
  ((holds_ofCpus cpus).after calls).occupancy

/-- A slot taken twice, one that is not there, and one released that was free. -/
example : ((ofCpus [4, 6, 9]).after
    [.allocate 0, .allocate 0, .allocate 7, .release 2, .allocate 1]).firstFree? = some 2 := by decide

end Corun.Cpu.Table
