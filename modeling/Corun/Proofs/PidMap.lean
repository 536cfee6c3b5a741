import Mathlib.Algebra.GroupWithZero.Nat
import Corun.Os.PidMap

namespace Corun.Os.PidMap

variable {α : Type} {m : PidMap α} {pid q : Pid} {a b : α}

def Ascending (m : PidMap α) : Prop := (pids m).Pairwise (· < ·)

theorem ascending_nil : Ascending ([] : PidMap α) := List.Pairwise.nil

theorem find?_nil : find? pid ([] : PidMap α) = none := rfl

theorem find?_cons (pid q : Pid) (b : α) (m : PidMap α) :
    find? pid ((q, b) :: m) = if pid = q then some b else find? pid m := by
  by_cases h : pid = q
  · simp [find?, h]
  · have hb : (pid == q) = false := by simpa using h
    simp [find?, List.lookup_cons, h, hb]

/-- Insertion is seen at its own pid only, in whatever order the table is. -/
theorem find?_insert (pid q : Pid) (a : α) (m : PidMap α) :
    find? q (insert pid a m) = if q = pid then some a else find? q m := by
  induction m with
  | nil => simp only [insert, find?_cons]
  | cons e m ih =>
    obtain ⟨p, b⟩ := e
    simp only [insert]
    split
    · rw [find?_cons]
    · split
      · rename_i he
        subst he
        simp only [find?_cons]
        split <;> rfl
      · rename_i hne
        simp only [find?_cons, ih]
        by_cases hq : q = p
        · have hp : p ≠ pid := fun h => hne h.symm
          simp [hq, hp]
        · simp [hq]

theorem mem_of_find? (h : find? pid m = some a) : (pid, a) ∈ m := by
  induction m with
  | nil => simp [find?_nil] at h
  | cons e m ih =>
    obtain ⟨q, b⟩ := e
    rw [find?_cons] at h
    split at h
    · rename_i he
      cases h
      subst he
      exact List.mem_cons_self
    · exact List.mem_cons_of_mem _ (ih h)

theorem find?_of_mem (hm : Ascending m) (h : (pid, a) ∈ m) : find? pid m = some a := by
  induction m with
  | nil => cases h
  | cons e m ih =>
    obtain ⟨q, b⟩ := e
    obtain ⟨hlt, htail⟩ := List.pairwise_cons.mp hm
    rw [find?_cons]
    rcases List.mem_cons.mp h with he | ht
    · cases he
      simp
    · have hq : q < pid := hlt pid (List.mem_map.mpr ⟨(pid, a), ht, rfl⟩)
      rw [if_neg (Int.ne_of_gt hq)]
      exact ih htail ht

theorem contains_iff : contains pid m = true ↔ ∃ a, find? pid m = some a := by
  induction m with
  | nil => simp [contains, find?_nil]
  | cons e m ih =>
    obtain ⟨q, b⟩ := e
    rw [find?_cons]
    by_cases hq : pid = q
    · simp [contains, hq]
    · have hq' : ¬q = pid := fun h => hq h.symm
      simpa [contains, hq, hq'] using ih

theorem contains_eq_false_iff : contains pid m = false ↔ find? pid m = none := by
  rw [← Bool.not_eq_true, contains_iff]
  cases find? pid m <;> simp

theorem contains_insert (pid q : Pid) (a : α) (m : PidMap α) :
    contains q (insert pid a m) = true ↔ q = pid ∨ contains q m = true := by
  rw [contains_iff, contains_iff, find?_insert]
  by_cases hq : q = pid <;> simp [hq]

theorem mem_pids_insert (h : q ∈ pids (insert pid a m)) : q = pid ∨ q ∈ pids m := by
  induction m with
  | nil => simpa [insert, pids] using h
  | cons e m ih =>
    obtain ⟨p, b⟩ := e
    simp only [insert] at h
    split at h
    · simpa [pids] using h
    · split at h
      · rename_i he
        subst he
        simp only [pids, List.map_cons, List.mem_cons] at h ⊢
        rcases h with h | h
        · exact .inl h
        · exact .inr (.inr h)
      · simp only [pids, List.map_cons, List.mem_cons] at h ⊢
        rcases h with h | h
        · exact .inr (.inl h)
        · rcases ih h with h | h
          · exact .inl h
          · exact .inr (.inr h)

theorem Ascending.insert (hm : Ascending m) : Ascending (insert pid a m) := by
  induction m with
  | nil => simp [PidMap.insert, Ascending, pids]
  | cons e m ih =>
    obtain ⟨q, b⟩ := e
    obtain ⟨hlt, htail⟩ := List.pairwise_cons.mp hm
    simp only [PidMap.insert]
    split
    · rename_i hpq
      refine List.pairwise_cons.mpr ⟨?_, hm⟩
      intro p hp
      rcases List.mem_cons.mp hp with he | ht
      · exact he ▸ hpq
      · exact Int.lt_trans hpq (hlt p ht)
    · rename_i hnl
      split
      · rename_i he
        subst he
        exact List.pairwise_cons.mpr ⟨hlt, htail⟩
      · rename_i hne
        refine List.pairwise_cons.mpr ⟨?_, ih htail⟩
        intro p hp
        rcases mem_pids_insert hp with he | ht
        · subst he
          exact Int.lt_iff_le_and_ne.mpr ⟨Int.not_lt.mp hnl, fun h => hne h.symm⟩
        · exact hlt p ht

/-- Changing a value changes a sum over the table by no more than the two values. -/
theorem sum_insert (f : α → Nat) (hm : Ascending m) (h : find? pid m = some b) :
    ((insert pid a m).map fun e => f e.2).sum + f b = (m.map fun e => f e.2).sum + f a := by
  induction m with
  | nil => cases h
  | cons e m ih =>
    obtain ⟨q, c⟩ := e
    obtain ⟨hlt, htail⟩ := List.pairwise_cons.mp hm
    rw [find?_cons] at h
    split at h
    · rename_i he
      cases h
      subst he
      have hself : ¬ pid < pid := Int.lt_irrefl pid
      simp only [insert, hself, if_false, if_true, List.map_cons, List.sum_cons]
      omega
    · rename_i hne
      have hq : q < pid := hlt pid (List.mem_map.mpr ⟨(pid, b), mem_of_find? h, rfl⟩)
      have hlater : ¬ pid < q := Int.not_lt.mpr (Int.le_of_lt hq)
      have hrest := ih htail h
      simp only [insert, hlater, hne, if_false, List.map_cons, List.sum_cons]
      omega

theorem contains_of_pids {β : Type} {m' : PidMap β} (h : pids m = pids m') (pid : Pid) :
    contains pid m = contains pid m' := by
  have hany : ∀ {γ : Type} (m : PidMap γ), contains pid m = (pids m).any fun q => q == pid := by
    intro γ m
    rw [pids, List.any_map]
    rfl
  rw [hany, hany, h]

/-- Where a pid finds its place depends on the other pids. -/
theorem insert_of_pids {β : Type} {m' : PidMap β} (h : pids m = pids m') (pid : Pid) (a : α) (b : β) :
    pids (insert pid a m) = pids (insert pid b m') := by
  induction m generalizing m' with
  | nil =>
    cases m' with
    | nil => rfl
    | cons e m' => cases h
  | cons e m ih =>
    cases m' with
    | nil => cases h
    | cons e' m' =>
      obtain ⟨p, c⟩ := e
      obtain ⟨p', c'⟩ := e'
      obtain ⟨hp, htail⟩ : p = p' ∧ pids m = pids m' := List.cons.inj h
      subst hp
      have hrest := ih htail
      simp only [pids, insert] at htail hrest ⊢
      split
      · simp [htail]
      · split
        · simp [htail]
        · simp [hrest]

/-- A new pid only finds its place. -/
theorem insert_perm (h : find? pid m = none) : (insert pid a m).Perm ((pid, a) :: m) := by
  induction m with
  | nil => exact .refl _
  | cons e m ih =>
    obtain ⟨q, b⟩ := e
    rw [find?_cons] at h
    split at h
    · cases h
    · rename_i hne
      simp only [insert]
      split
      · exact .refl _
      · exact ((ih h).cons (q, b)).trans (.swap ..)

theorem length_insert_of_none (h : find? pid m = none) :
    (insert pid a m).length = m.length + 1 :=
  (insert_perm h).length_eq

theorem length_insert_of_some (hm : Ascending m) (h : find? pid m = some b) :
    (insert pid a m).length = m.length := by
  induction m with
  | nil => simp [find?_nil] at h
  | cons e m ih =>
    obtain ⟨q, c⟩ := e
    obtain ⟨hlt, htail⟩ := List.pairwise_cons.mp hm
    rw [find?_cons] at h
    simp only [insert]
    split at h
    · rename_i he
      subst he
      simp
    · rename_i hne
      -- The pid is found further on, so it is above the head and insertion goes past it.
      have hq : q < pid := hlt pid (List.mem_map.mpr ⟨(pid, b), mem_of_find? h, rfl⟩)
      simp [Int.not_lt.mpr (Int.le_of_lt hq), hne, ih htail h]

/-- A pid that is there keeps its place. -/
theorem insert_replace {before after : PidMap α} (hm : Ascending (before ++ (pid, b) :: after)) :
    insert pid a (before ++ (pid, b) :: after) = before ++ (pid, a) :: after := by
  induction before with
  | nil => simp [insert]
  | cons e before ih =>
    obtain ⟨q, c⟩ := e
    obtain ⟨hlt, htail⟩ := List.pairwise_cons.mp hm
    have hq : q < pid := hlt pid (List.mem_map.mpr ⟨(pid, b), by simp, rfl⟩)
    simp only [List.cons_append, insert, Int.not_lt.mpr (Int.le_of_lt hq), (Int.ne_of_gt hq),
      if_false, ih htail]

/-- Erasure is seen at its own pid only. -/
theorem find?_erase (pid q : Pid) (m : PidMap α) :
    find? q (erase pid m) = if q = pid then none else find? q m := by
  induction m with
  | nil => simp [erase, find?_nil]
  | cons e m ih =>
    obtain ⟨p, b⟩ := e
    by_cases hp : p = pid
    · have hgone : erase pid ((p, b) :: m) = erase pid m := by simp [erase, hp]
      rw [hgone, ih, find?_cons, hp]
      split <;> rfl
    · have hkept : erase pid ((p, b) :: m) = (p, b) :: erase pid m := by simp [erase, hp]
      rw [hkept, find?_cons, find?_cons, ih]
      by_cases hq : q = p
      · simp [hq, hp]
      · simp [hq]

theorem Ascending.erase (hm : Ascending m) : Ascending (PidMap.erase pid m) := by
  have hsub : (PidMap.erase pid m).Sublist m := List.filter_sublist
  exact List.Pairwise.sublist (hsub.map Prod.fst) hm

end Corun.Os.PidMap
