import Corun.Proofs.Cpu.Calls

namespace Corun.Cpu.Hopper
open Os

variable {h h' : Hopper} {notes more : List Note}

/-- One process goes to a free slot: a new one, or one that gives its old slot up. -/
inductive Shift : Hopper → List Note → Hopper → Prop where
  | placed {h : Hopper} {pid : Pid} {slot cpu : Nat} (untracked : h.slotOf? pid = none)
      (room : h.slots.length + 1 < h.table.size) (free : h.table.taken[slot]? = some false)
      (onCpu : h.table.cpu slot = .ok cpu) :
      Shift h (.info s!"adding process {pid} on cpu {cpu}" :: (h.pin pid cpu).2) (h.placed pid slot)
  | moved {h : Hopper} {pid : Pid} {old new cpu : Nat} (held : h.slotOf? pid = some old)
      (free : h.table.taken[new]? = some false) (onCpu : h.table.cpu new = .ok cpu) :
      Shift h (h.pin pid cpu).2 (h.moved pid old new)

/-- Shifts one after another, with what is seen of them. -/
inductive Shifts : Hopper → List Note → Hopper → Prop where
  | nil (h : Hopper) : Shifts h [] h
  | cons {h k h' : Hopper} {notes more : List Note} (first : Shift h notes k)
      (rest : Shifts k more h') : Shifts h (notes ++ more) h'

theorem Shift.settled (hs : Settled h) (hshift : Shift h notes h') : Settled h' := by
  cases hshift with
  | placed untracked room free _ => exact hs.placed untracked free room
  | moved held free _ => exact hs.moved held free

namespace Shifts

theorem one (hshift : Shift h notes h') : Shifts h notes h' := by
  have hs := cons hshift (.nil h')
  rwa [List.append_nil] at hs

theorem trans {k : Hopper} (hfirst : Shifts h notes k) (hrest : Shifts k more h') :
    Shifts h (notes ++ more) h' := by
  induction hfirst with
  | nil _ => exact hrest
  | cons first _ ih =>
    rw [List.append_assoc]
    exact cons first (ih hrest)

/-- What holds at first, and after one more shift whenever it held before, holds after all of them: of
the hopper and of all that was seen until then. -/
theorem invariant {P : Hopper → List Note → Prop}
    (hstep : ∀ h seen notes h', Shift h notes h' → P h seen → P h' (seen ++ notes))
    (hshifts : Shifts h notes h') (seen : List Note) (hstart : P h seen) : P h' (seen ++ notes) := by
  induction hshifts generalizing seen with
  | nil _ => rwa [List.append_nil]
  | cons first _ ih =>
    rw [← List.append_assoc]
    exact ih _ (hstep _ _ _ _ first hstart)

end Shifts

/-- What is seen of calls one after another. -/
def noted : List Call → Hopper → List Note
  | [], _ => []
  | c :: calls, h => (h.call c).notes ++ noted calls (h.call c).state

theorem Settled.moveAll_shifts {l : List (Pid × Nat)} (hs : Settled h)
    (hl : ∀ e ∈ l, h.slotOf? e.1 = some e.2) (hd : (l.map Prod.fst).Nodup) :
    Shifts h (Hopper.moveAll l h).notes (Hopper.moveAll l h).state := by
  induction l generalizing h with
  | nil => exact .nil h
  | cons e l ih =>
    obtain ⟨pid, old⟩ := e
    simp only [List.map_cons, List.nodup_cons] at hd
    have hp : h.slotOf? pid = some old := hl (pid, old) List.mem_cons_self
    obtain ⟨new, cpu, _, hf, hc, hmove⟩ := hs.move hp
    have hrest : ∀ e ∈ l, (h.moved pid old new).slotOf? e.1 = some e.2 :=
      listed_moved hd.1 fun e he => hl e (List.mem_cons_of_mem _ he)
    simp only [Hopper.moveAll, hmove, Step.done]
    exact .cons (.moved hp hf hc) (ih (hs.moved hp hf) hrest hd.2)

theorem Settled.add_shifts (hs : Settled h) (pid : Pid) :
    Shifts h (h.add pid).notes (h.add pid).state := by
  cases hp : h.slotOf? pid with
  | some slot =>
    rw [add_tracked hp]
    exact .nil h
  | none =>
    by_cases hr : h.table.size ≤ h.slots.length + 1
    · rw [add_full hp hr]
      exact .nil h
    · have hroom := Nat.not_le.mp hr
      obtain ⟨slot, cpu, _, hf, hc, hadd⟩ := hs.add_room hp hroom
      rw [hadd]
      exact .one (.placed hp hroom hf hc)

theorem Settled.call_shifts (hs : Settled h) (c : Call) :
    Shifts h (h.call c).notes (h.call c).state := by
  cases c with
  | add pid => exact hs.add_shifts pid
  | announce a =>
    rw [call_announce]
    exact hs.add_shifts a.pid
  | hop | tick => exact hs.moveAll_shifts hs.listed.1 hs.listed.2

theorem Settled.noted_shifts (hs : Settled h) (calls : List Call) :
    Shifts h (noted calls h) (h.after calls) := by
  induction calls generalizing h with
  | nil => exact .nil h
  | cons c calls ih => exact (hs.call_shifts c).trans (ih (hs.call c).1)

end Corun.Cpu.Hopper
