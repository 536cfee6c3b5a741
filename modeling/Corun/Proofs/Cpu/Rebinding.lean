import Corun.Proofs.Cpu.Pins

namespace Corun.Cpu
open Os

/-- What there is to see for somebody who does not learn how pins come out. -/
def unheeded (notes : List Note) : List Note :=
  notes.filterMap fun
    | .bind pid cpu _ => some (.bind pid cpu (.ok ()))
    | .log line => if line.level = .warn then none else some (.log line)
    | note => some note

def warnings (notes : List Note) : List LogLine :=
  (Note.logs notes).filter fun line => line.level = .warn

namespace Pin

/-- The process and the CPU that it is to be pinned to. -/
def target (p : Pin) : Pid × Nat := (p.pid, p.cpu)

def warning? (p : Pin) : Option LogLine :=
  match p.outcome with
  | .ok _ => none
  | .error f => some (.warn s!"failed to bind process {p.pid} to cpu {p.cpu}: {f.message}")

end Pin

variable {notes more : List Note}

theorem unheeded_append : unheeded (notes ++ more) = unheeded notes ++ unheeded more :=
  List.filterMap_append

theorem warnings_append : warnings (notes ++ more) = warnings notes ++ warnings more := by
  simp only [warnings, Note.logs, List.filterMap_append, List.filter_append]

/-- Everybody sees which pins are tried. -/
theorem targets_unheeded (notes : List Note) :
    (pins (unheeded notes)).map Pin.target = (pins notes).map Pin.target := by
  simp only [pins, unheeded, List.filterMap_filterMap, List.map_filterMap]
  refine congrArg (List.filterMap · notes) (funext fun note => ?_)
  cases note with
  | log line => by_cases hw : line.level = .warn <;> simp [hw, Pin.ofNote?]
  | bind _ _ _ | counter _ _ | recorded _ => rfl

namespace Hopper

variable {h h' : Hopper} {pid : Pid} {slot cpu old : Nat} {b : Binder}

/-- The same hopper with another binder. -/
def rebound (b : Binder) (h : Hopper) : Hopper := { h with binder := b }

@[simp] theorem rebound_table : (h.rebound b).table = h.table := rfl

@[simp] theorem rebound_slots : (h.rebound b).slots = h.slots := rfl

/-- Two steps that differ in nothing but the binder of the hopper and how pins come out. -/
structure Mirrors (b : Binder) (s t : Step Hopper Unit) : Prop where
  result : t.result = s.result
  state : t.state = s.state.rebound b
  notes : unheeded t.notes = unheeded s.notes

theorem unheeded_pin (h : Hopper) (pid : Pid) (cpu : Nat) :
    unheeded (h.pin pid cpu).2 = [.bind pid cpu (.ok ())] := by
  simp only [pin, unheeded]
  cases h.binder h.attempts pid cpu <;> rfl

theorem settle_rebound : Mirrors b (h.settle pid slot cpu) ((h.rebound b).settle pid slot cpu) := by
  have hnotes : unheeded ((h.rebound b).pin pid cpu).2 = unheeded (h.pin pid cpu).2 :=
    (unheeded_pin ..).trans (unheeded_pin ..).symm
  cases ha : h.table.allocate slot with
  | error stop =>
    simp only [settle, pin, rebound_table, ha]
    exact ⟨rfl, rfl, hnotes⟩
  | ok table =>
    simp only [settle, pin, rebound_table, ha]
    exact ⟨rfl, rfl, hnotes⟩

theorem add_rebound : Mirrors b (h.add pid) ((h.rebound b).add pid) := by
  by_cases hc : PidMap.contains pid h.slots
  · simp only [add, rebound_slots, hc, if_true]
    exact ⟨rfl, rfl, rfl⟩
  by_cases hr : h.table.size ≤ h.slots.length + 1
  · simp only [add, rebound_table, rebound_slots, hc, hr, if_true]
    exact ⟨rfl, rfl, rfl⟩
  cases hf : h.table.firstFree? with
  | none =>
    simp only [add, rebound_table, rebound_slots, hc, hr, hf]
    exact ⟨rfl, rfl, rfl⟩
  | some slot =>
    cases hcpu : h.table.cpu slot with
    | error stop =>
      simp only [add, rebound_table, rebound_slots, hc, hr, hf, hcpu]
      exact ⟨rfl, rfl, rfl⟩
    | ok cpu =>
      have hsettle : Mirrors b (h.settle pid slot cpu) ((h.rebound b).settle pid slot cpu) :=
        settle_rebound
      simp only [add, rebound_table, rebound_slots, hc, hr, hf, hcpu]
      exact ⟨hsettle.result, hsettle.state, congrArg (_ :: ·) hsettle.notes⟩

theorem move_rebound : Mirrors b (h.move pid old) ((h.rebound b).move pid old) := by
  cases hf : h.table.firstFree? with
  | none =>
    simp only [Hopper.move, rebound_table, hf]
    exact ⟨rfl, rfl, rfl⟩
  | some new =>
    cases hcpu : h.table.cpu new with
    | error stop =>
      simp only [Hopper.move, rebound_table, hf, hcpu]
      exact ⟨rfl, rfl, rfl⟩
    | ok cpu =>
      have hsettle : Mirrors b (h.settle pid new cpu) ((h.rebound b).settle pid new cpu) :=
        settle_rebound
      simp only [Hopper.move, rebound_table, hf, hcpu, hsettle.result]
      cases hr : (h.settle pid new cpu).result with
      | error stop => exact hsettle
      | ok _ =>
        simp only [hsettle.state, rebound_table]
        cases (h.settle pid new cpu).state.table.release old with
        | error stop => exact ⟨rfl, rfl, hsettle.notes⟩
        | ok table => exact ⟨rfl, rfl, hsettle.notes⟩

theorem moveAll_rebound (l : List (Pid × Nat)) :
    Mirrors b (moveAll l h) (moveAll l (h.rebound b)) := by
  induction l generalizing h with
  | nil => exact ⟨rfl, rfl, rfl⟩
  | cons e l ih =>
    obtain ⟨pid, old⟩ := e
    have hmove : Mirrors b (h.move pid old) ((h.rebound b).move pid old) := move_rebound
    simp only [moveAll, hmove.result]
    cases hr : (h.move pid old).result with
    | error stop => exact hmove
    | ok _ =>
      have hrest : Mirrors b (moveAll l (h.move pid old).state)
          (moveAll l ((h.rebound b).move pid old).state) := hmove.state ▸ ih
      refine ⟨hrest.result, hrest.state, ?_⟩
      simp only [unheeded_append, hmove.notes, hrest.notes]

theorem call_rebound (c : Call) : Mirrors b (h.call c) ((h.rebound b).call c) := by
  cases c with
  | add pid => exact add_rebound
  | announce a =>
    simp only [call_announce]
    exact add_rebound
  | hop | tick => exact moveAll_rebound h.slots

theorem after_rebound (calls : List Call) : (h.rebound b).after calls = (h.after calls).rebound b ∧
    unheeded (noted calls (h.rebound b)) = unheeded (noted calls h) := by
  induction calls generalizing h with
  | nil => exact ⟨rfl, rfl⟩
  | cons c calls ih =>
    have hcall : Mirrors b (h.call c) ((h.rebound b).call c) := call_rebound c
    have hrest : after calls ((h.rebound b).call c).state = ((h.call c).state.after calls).rebound b ∧
        unheeded (noted calls ((h.rebound b).call c).state) =
          unheeded (noted calls (h.call c).state) :=
      hcall.state ▸ ih
    refine ⟨hrest.1, ?_⟩
    simp only [noted, unheeded_append, hcall.notes, hrest.2]

/-- Of the warnings in a run there is one for each pin that failed, in order, and no other. -/
def Warned (notes : List Note) : Prop := warnings notes = (pins notes).filterMap Pin.warning?

theorem warnings_pin (h : Hopper) (pid : Pid) (cpu : Nat) : Warned (h.pin pid cpu).2 := by
  simp only [Warned, pin]
  cases h.binder h.attempts pid cpu <;> rfl

theorem Shift.warned (hshift : Shift h notes h') : Warned notes := by
  cases hshift with
  | placed _ _ _ _ => exact warnings_pin ..
  | moved _ _ _ => exact warnings_pin ..

theorem Settled.warned (hs : Settled h) (calls : List Call) : Warned (noted calls h) := by
  refine (hs.noted_shifts calls).invariant (P := fun _ seen => Warned seen) ?_ [] rfl
  intro _ seen notes _ hshift hseen
  have hnotes : Warned notes := hshift.warned
  unfold Warned at hseen hnotes ⊢
  rw [warnings_append, pins_append, List.filterMap_append, hseen, hnotes]

/-- Which pins fail, and how, makes no difference to what calls return, to the table, to where processes
are in it, to which pins are tried and to what else there is to see. In every run the last pin of a
process is to its CPU in the table, and each pin that fails is warned about once. -/
theorem failed_pins_only_warn {interval : Nat} {cpus : List Nat} {binder : Binder}
    (hc : create interval cpus binder = .ok h) (b : Binder) :
    ∃ k, create interval cpus b = .ok k ∧ ∀ calls,
      (∀ c, ((h.after calls).call c).result = ((k.after calls).call c).result) ∧
      (h.after calls).table = (k.after calls).table ∧
      (∀ pid, (h.after calls).cpuOf? pid = (k.after calls).cpuOf? pid) ∧
      (pins (noted calls h)).map Pin.target = (pins (noted calls k)).map Pin.target ∧
      unheeded (noted calls h) = unheeded (noted calls k) ∧
      ∀ r ∈ [h, k],
        (∀ pid, (r.after calls).cpuOf? pid = .ok ((lastPin? pid (noted calls r)).map Pin.cpu)) ∧
        Warned (noted calls r) := by
  have hk : create interval cpus b = .ok (h.rebound b) := by
    obtain ⟨hne, hd, rfl⟩ := create_ok hc
    simp [create, hne, hd, rebound]
  refine ⟨h.rebound b, hk, fun calls => ?_⟩
  obtain ⟨hafter, hnoted⟩ := after_rebound (h := h) (b := b) calls
  refine ⟨?_, ?_, ?_, ?_, hnoted.symm, ?_⟩
  · intro c
    rw [hafter]
    exact (call_rebound c).result.symm
  · rw [hafter, rebound_table]
  · intro pid
    rw [hafter]
    rfl
  · rw [← targets_unheeded, ← hnoted, targets_unheeded]
  · intro r hr
    obtain ⟨_, hcr⟩ : ∃ binder, create interval cpus binder = .ok r := by
      rcases List.mem_cons.mp hr with rfl | hr
      · exact ⟨binder, hc⟩
      · exact ⟨b, (List.mem_singleton.mp hr) ▸ hk⟩
    exact ⟨created_follows hcr calls, (created_settled hcr).warned calls⟩

/-- All pins hold in one run and none in the other. -/
theorem failed_pins_only_warn_on_three_cpus :
    ∃ h k, create 0 [0, 1, 2] (fun _ _ _ => .ok ()) = .ok h ∧
      create 0 [0, 1, 2] (fun _ _ _ => .error (.ofCause (.scripted "gone"))) = .ok k ∧
      (h.after [.add 1, .add 2, .hop]).table = (k.after [.add 1, .add 2, .hop]).table ∧
      (pins (noted [.add 1, .add 2, .hop] h)).map Pin.target =
        (pins (noted [.add 1, .add 2, .hop] k)).map Pin.target ∧
      (warnings (noted [.add 1, .add 2, .hop] h)).length = 0 ∧
      (warnings (noted [.add 1, .add 2, .hop] k)).length = 4 := by
  obtain ⟨h, hc, hquiet⟩ : ∃ h, create 0 [0, 1, 2] (fun _ _ _ => .ok ()) = .ok h ∧
      (warnings (noted [.add 1, .add 2, .hop] h)).length = 0 := ⟨_, rfl, rfl⟩
  obtain ⟨k, hk, hsame⟩ :=
    failed_pins_only_warn hc fun _ _ _ => .error (.ofCause (.scripted "gone"))
  obtain ⟨_, htable, _, htargets, _⟩ := hsame [.add 1, .add 2, .hop]
  have hloud : (warnings (noted [.add 1, .add 2, .hop] k)).length = 4 := by
    cases hk
    rfl
  exact ⟨h, k, hc, hk, htable, htargets, hquiet, hloud⟩

end Hopper

end Corun.Cpu
