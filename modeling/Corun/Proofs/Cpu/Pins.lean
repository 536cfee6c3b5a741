import Corun.Proofs.Cpu.Shifts

namespace Corun.Cpu
open Os

/-- A pin that was tried, and what came of it. -/
structure Pin where
  pid : Pid
  cpu : Nat
  outcome : Except Failure Unit

def Pin.ofNote? : Note → Option Pin
  | .bind pid cpu outcome => some ⟨pid, cpu, outcome⟩
  | _ => none

def Pin.held (p : Pin) : Bool := p.outcome.isOk

/-- All pins, in the order in which they were tried. -/
def pins (notes : List Note) : List Pin := notes.filterMap Pin.ofNote?

/-- The last pin tried for a process. -/
def lastPin? (pid : Pid) (notes : List Note) : Option Pin :=
  (pins notes).reverse.find? fun p => p.pid = pid

/-- The CPU that a process is really pinned to, which is that of its last pin that held. -/
def seat? (pid : Pid) (notes : List Note) : Option Nat :=
  ((pins notes).reverse.find? fun p => p.pid = pid && p.held).map Pin.cpu

/-- The last pin tried for a process failed. -/
def Displaced (pid : Pid) (notes : List Note) : Prop :=
  ∃ p, lastPin? pid notes = some p ∧ p.held = false

variable {pid q : Pid} {notes more : List Note} {p : Pin}

theorem pins_append : pins (notes ++ more) = pins notes ++ pins more := List.filterMap_append

theorem lastPin?_append :
    lastPin? pid (notes ++ more) = (lastPin? pid more).or (lastPin? pid notes) := by
  simp only [lastPin?, pins_append, List.reverse_append, List.find?_append]

theorem lastPin?_one (hone : pins more = [p]) :
    lastPin? q (notes ++ more) = if q = p.pid then some p else lastPin? q notes := by
  rw [lastPin?_append]
  by_cases hq : q = p.pid
  · simp [lastPin?, hone, hq]
  · have hne : p.pid ≠ q := fun he => hq he.symm
    simp [lastPin?, hone, hq, hne]

/-- A process whose last pin held is where that pin put it. -/
theorem seat?_of_held (hlast : lastPin? pid notes = some p) (hheld : p.held = true) :
    seat? pid notes = some p.cpu := by
  obtain ⟨hpid, later, earlier, hsplit, hlater⟩ := List.find?_eq_some_iff_append.mp hlast
  have hfind : (pins notes).reverse.find? (fun p => p.pid = pid && p.held) = some p := by
    refine List.find?_eq_some_iff_append.mpr ⟨by simpa [hheld] using hpid, later, earlier, hsplit, ?_⟩
    intro r hr
    have := hlater r hr
    simp only [Bool.not_eq_eq_eq_not, Bool.not_true, decide_eq_false_iff_not] at this
    simp [this]
  simp [seat?, hfind]

theorem not_displaced_iff (hlast : lastPin? pid notes = some p) :
    ¬Displaced pid notes ↔ p.held = true := by
  constructor
  · intro hd
    cases hheld : p.held with
    | true => rfl
    | false => exact absurd ⟨p, hlast, hheld⟩ hd
  · rintro hheld ⟨r, hr, hfailed⟩
    cases hlast.symm.trans hr
    simp [hheld] at hfailed

namespace Hopper

variable {h h' : Hopper} {interval slot cpu : Nat} {cpus : List Nat} {binder : Binder}

theorem pins_pin (h : Hopper) (pid : Pid) (cpu : Nat) :
    pins (h.pin pid cpu).2 = [⟨pid, cpu, h.binder h.attempts pid cpu⟩] := by
  simp only [pin, pins]
  cases h.binder h.attempts pid cpu <;> rfl

theorem cpuOf_tracked (hp : h.slotOf? pid = some slot) :
    h.cpuOf? pid = (h.table.cpu slot).map some := by
  simp only [cpuOf?, hp]

theorem slotOf_of_cpuOf (hp : h.cpuOf? pid = .ok (some cpu)) :
    ∃ slot, h.slotOf? pid = some slot ∧ h.table.cpu slot = .ok cpu := by
  cases hs : h.slotOf? pid with
  | none => simp [cpuOf?, hs] at hp
  | some slot =>
    rw [cpuOf_tracked hs] at hp
    cases hc : h.table.cpu slot with
    | error stop => simp [hc, Except.map] at hp
    | ok d => exact ⟨slot, rfl, by simpa [hc, Except.map] using hp⟩

/-- The only thing that a shift changes about where processes are is that its pin becomes the place of
its process. -/
theorem Shift.relocates (hshift : Shift h notes h') : h'.table.cpus = h.table.cpus ∧
    ∃ p, pins notes = [p] ∧ ∀ q, h'.cpuOf? q = if q = p.pid then .ok (some p.cpu) else h.cpuOf? q := by
  have hplace : ∀ (k : Hopper) (pid : Pid) (slot cpu : Nat), k.table.cpus = h.table.cpus →
      h.table.cpu slot = .ok cpu →
      (∀ q, k.slotOf? q = if q = pid then some slot else h.slotOf? q) →
      ∀ q, k.cpuOf? q = if q = pid then .ok (some cpu) else h.cpuOf? q := by
    intro k pid slot cpu hcpus hc hslots q
    have hcpu : ∀ slot, k.table.cpu slot = h.table.cpu slot := by
      intro slot
      simp only [Table.cpu, hcpus]
    simp only [cpuOf?, hslots q]
    by_cases hq : q = pid
    · simp [hq, hcpu, hc, Except.map]
    · simp [hq, hcpu]
  cases hshift with
  | placed _ _ _ onCpu =>
    exact ⟨rfl, _, pins_pin .., hplace _ _ _ _ rfl onCpu slotOf_placed⟩
  | moved _ _ onCpu =>
    exact ⟨rfl, _, pins_pin .., hplace _ _ _ _ rfl onCpu slotOf_moved⟩

/-- The table goes by the last pins. -/
def Follows (h : Hopper) (notes : List Note) : Prop :=
  ∀ pid, h.cpuOf? pid = .ok ((lastPin? pid notes).map Pin.cpu)

theorem Shift.follows {seen : List Note} (hshift : Shift h notes h') (hf : Follows h seen) :
    Follows h' (seen ++ notes) := by
  obtain ⟨_, p, hone, hplaces⟩ := hshift.relocates
  intro q
  rw [hplaces q, lastPin?_one hone, hf q]
  by_cases hq : q = p.pid <;> simp [hq]

theorem created_follows (hc : create interval cpus binder = .ok h) (calls : List Call) :
    Follows (h.after calls) (noted calls h) := by
  have hstart : Follows h [] := by
    obtain ⟨_, _, rfl⟩ := create_ok hc
    exact fun _ => rfl
  exact ((created_settled hc).noted_shifts calls).invariant
    (fun _ _ _ _ hshift hf => hshift.follows hf) [] hstart

/-- The list of CPUs stays as it is. -/
theorem Shifts.same_cpus (hshifts : Shifts h notes h') : h'.table.cpus = h.table.cpus :=
  hshifts.invariant (P := fun k _ => k.table.cpus = h.table.cpus)
    (fun _ _ _ _ hshift hk => hshift.relocates.1.trans hk) [] rfl

theorem created_cpus (hc : create interval cpus binder = .ok h) (calls : List Call) :
    (h.after calls).table.cpus = cpus := by
  have hstart : h.table.cpus = cpus := by
    obtain ⟨_, _, rfl⟩ := create_ok hc
    rfl
  exact ((created_settled hc).noted_shifts calls).same_cpus.trans hstart

/-- Processes have different CPUs in the table. -/
theorem Settled.cpus_apart (hs : Settled h) (hd : h.table.cpus.Nodup)
    (hp : h.cpuOf? pid = .ok (some cpu)) (hq : h.cpuOf? q = .ok (some cpu)) : pid = q := by
  obtain ⟨a, ha, hac⟩ := slotOf_of_cpuOf hp
  obtain ⟨b, hb, hbc⟩ := slotOf_of_cpuOf hq
  cases Table.cpu_inj hd hac hbc
  exact hs.apart pid q a ha hb

def Tracks (h : Hopper) (pid : Pid) : Prop := ∃ slot, h.slotOf? pid = some slot

/-- A process that is tracked was pinned, the last time to the CPU that the table has for it. -/
theorem Follows.tracked (hf : Follows h notes) (ht : h.Tracks pid) :
    ∃ p, lastPin? pid notes = some p ∧ h.cpuOf? pid = .ok (some p.cpu) := by
  obtain ⟨slot, hp⟩ := ht
  have hcpu := hf pid
  cases hlast : lastPin? pid notes with
  | some p => exact ⟨p, rfl, by simpa [hlast] using hcpu⟩
  | none =>
    rw [hlast, cpuOf_tracked hp] at hcpu
    cases hc : h.table.cpu slot <;> simp [hc, Except.map] at hcpu

/-- In the table processes are apart whatever fails, and each was last pinned to its CPU there. It is
really on it if that pin held, so two processes are on one CPU only when the last pin of one failed. -/
theorem seats_apart_unless_displaced (hc : create interval cpus binder = .ok h) (calls : List Call) :
    (∀ p, (h.after calls).Tracks p → ∃ pin, lastPin? p (noted calls h) = some pin ∧
      (h.after calls).cpuOf? p = .ok (some pin.cpu) ∧
      (pin.held = true → seat? p (noted calls h) = some pin.cpu)) ∧
    ∀ p q, (h.after calls).Tracks p → (h.after calls).Tracks q → p ≠ q →
      (h.after calls).cpuOf? p ≠ (h.after calls).cpuOf? q ∧
      (¬Displaced p (noted calls h) → ¬Displaced q (noted calls h) →
        seat? p (noted calls h) ≠ seat? q (noted calls h)) := by
  have hf := created_follows hc calls
  have hs := (created_settled hc).after calls
  have hd : (h.after calls).table.cpus.Nodup := created_cpus hc calls ▸ (create_ok hc).2.1
  refine ⟨?_, ?_⟩
  · intro p hp
    obtain ⟨pin, hlast, hcpu⟩ := hf.tracked hp
    exact ⟨pin, hlast, hcpu, seat?_of_held hlast⟩
  · intro p q hp hq hne
    obtain ⟨a, hlastA, hcpuA⟩ := hf.tracked hp
    obtain ⟨b, hlastB, hcpuB⟩ := hf.tracked hq
    have hapart : a.cpu ≠ b.cpu := fun he => hne (hs.cpus_apart hd hcpuA (he ▸ hcpuB))
    refine ⟨?_, ?_⟩
    · rw [hcpuA, hcpuB]
      simpa using hapart
    · intro hnp hnq
      rw [seat?_of_held hlastA ((not_displaced_iff hlastA).mp hnp),
        seat?_of_held hlastB ((not_displaced_iff hlastB).mp hnq)]
      simpa using hapart

/-- The second process is not pinned at first, and comes to a CPU of its own with the next hop. -/
theorem seats_apart_after_failure :
    ∃ h, create 0 [4, 6, 9] (fun _ _ cpu =>
        if cpu = 6 then .error (.ofCause (.scripted "cpu 6 is offline")) else .ok ()) = .ok h ∧
      (h.after [.add 1, .add 2, .hop]).Tracks 1 ∧ (h.after [.add 1, .add 2, .hop]).Tracks 2 ∧
      seat? 2 (noted [.add 1, .add 2] h) = none ∧
      seat? 1 (noted [.add 1, .add 2, .hop] h) ≠ seat? 2 (noted [.add 1, .add 2, .hop] h) := by
  obtain ⟨h, hc, hp, hq, hunpinned, hlastP, hlastQ⟩ : ∃ h, create 0 [4, 6, 9] (fun _ _ cpu =>
        if cpu = 6 then .error (.ofCause (.scripted "cpu 6 is offline")) else .ok ()) = .ok h ∧
      (h.after [.add 1, .add 2, .hop]).Tracks 1 ∧ (h.after [.add 1, .add 2, .hop]).Tracks 2 ∧
      seat? 2 (noted [.add 1, .add 2] h) = none ∧
      lastPin? 1 (noted [.add 1, .add 2, .hop] h) = some ⟨1, 9, .ok ()⟩ ∧
      lastPin? 2 (noted [.add 1, .add 2, .hop] h) = some ⟨2, 4, .ok ()⟩ :=
    ⟨_, rfl, ⟨2, rfl⟩, ⟨0, rfl⟩, rfl, rfl, rfl⟩
  obtain ⟨_, hapart⟩ := seats_apart_unless_displaced hc [.add 1, .add 2, .hop]
  refine ⟨h, hc, hp, hq, hunpinned, (hapart 1 2 hp hq (by decide)).2 ?_ ?_⟩
  · exact (not_displaced_iff hlastP).mpr rfl
  · exact (not_displaced_iff hlastQ).mpr rfl

/-- The first process is not moved when its pin fails, and the second is moved to where the first still
is. -/
theorem failed_pin_shares_cpu :
    ∃ h, create 0 [0, 1, 2] (fun _ _ cpu =>
        if cpu = 2 then .error (.ofCause (.scripted "cpu 2 is offline")) else .ok ()) = .ok h ∧
      (h.after [.add 1, .add 2, .hop]).Tracks 1 ∧ (h.after [.add 1, .add 2, .hop]).Tracks 2 ∧
      seat? 1 (noted [.add 1, .add 2, .hop] h) = some 0 ∧
      seat? 2 (noted [.add 1, .add 2, .hop] h) = some 0 :=
  ⟨_, rfl, ⟨2, rfl⟩, ⟨0, rfl⟩, rfl, rfl⟩

end Hopper

end Corun.Cpu
