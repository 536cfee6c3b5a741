import Corun.Proofs.Machine
import Corun.Proofs.PidMap
import Corun.Watch

namespace Corun.Watch
open Os Child

variable {w v : Watch} {a : Action} {e : List Entry} {acts : List Action} {pid : Pid}

/-- A process is published from the end of its task until it is taken. -/
structure Sound (w : Watch) : Prop where
  ascending : PidMap.Ascending w.tasks
  once : w.published.Nodup
  ended : ∀ pid, pid ∈ w.published ↔ ∃ r, PidMap.find? pid w.tasks = some (.ended r)

theorem empty_sound : Sound empty := by
  refine ⟨PidMap.ascending_nil, List.nodup_nil, ?_⟩
  intro pid
  simp [empty, PidMap.find?_nil]

/-- What becomes of a task when what it awaits comes back. -/
def Task.settled : Result Termination → Task
  | .ok t => publishing (.ok t)
  | .error (.failed f) => publishing (.error f)
  | .error (.panicked p) => panicked p

/-- What a wait gives back that takes a process. -/
def reportOf (pid : Pid) : Except Failure Termination → Except Failure (Option (Pid × Termination))
  | .ok t => .ok (some (pid, t))
  | .error f => .error (f.within (.collecting pid))

def Action.waits : Action → Bool
  | .wait | .waitTimed => true
  | _ => false

/-- All that can happen in one step of a sound watch. -/
inductive Move : Watch → Action → Watch → List Entry → Prop where
  | refuses (w : Watch) (pid : Pid) (thread : Except Failure Unit) (tracked : w.contains pid = true) :
    Move w (.add pid thread) w [.refused (.ofCause (.duplicateTarget pid))]
  | lacksThread (w : Watch) (pid : Pid) (f : Failure) (fresh : w.contains pid = false) :
    Move w (.add pid (.error f)) w [.refused (f.within (.spawningWaiter pid))]
  | adds (w : Watch) (pid : Pid) (fresh : w.contains pid = false) :
    Move w (.add pid (.ok ())) { w with tasks := PidMap.insert pid .awaiting w.tasks } [.added pid]
  | settles (w : Watch) (pid : Pid) (r : Result Termination)
      (due : PidMap.find? pid w.tasks = some .awaiting) :
    Move w (.settle pid r) { w with tasks := PidMap.insert pid (.settled r) w.tasks } []
  | publishes (w : Watch) (pid : Pid) (r : Except Failure Termination)
      (due : PidMap.find? pid w.tasks = some (.publishing r)) :
    Move w (.publish pid) ⟨PidMap.insert pid (.ended r) w.tasks, w.published ++ [pid]⟩ []
  | findsNobody (w : Watch) (a : Action) (waits : a.waits = true) (nobody : w.tasks = []) :
    Move w a w [failed .nothingMonitored]
  | givesUp (w : Watch) (tracked : w.tasks ≠ []) (silent : w.published = []) :
    Move w .waitTimed w [.returned (.ok none)]
  | takes (w : Watch) (a : Action) (pid : Pid) (published : List Pid)
      (r : Except Failure Termination) (waits : a.waits = true)
      (next : w.published = pid :: published)
      (due : PidMap.find? pid w.tasks = some (.ended r)) :
    Move w a ⟨PidMap.erase pid w.tasks, published⟩ [.returned (reportOf pid r)]

/-- What waiting comes to whose time may be up or not. -/
theorem take_move {otherwise : Option (Watch × List Entry)} (hs : Sound w) (ha : a.waits = true)
    (hother : w.tasks ≠ [] → w.published = [] → otherwise = some (v, e) → Move w a v e)
    (h : w.take otherwise = some (v, e)) : Move w a v e := by
  unfold take at h
  split at h
  · rename_i hnobody
    cases h
    exact .findsNobody w a ha hnobody
  · rename_i htracked
    split at h
    · rename_i hsilent
      exact hother htracked hsilent h
    · rename_i pid published hnext
      -- A published pid belongs to a task that has ended, so collecting it never waits nor fails.
      obtain ⟨r, hr⟩ := (hs.ended pid).mp (by rw [hnext]; exact List.mem_cons_self)
      cases r with
      | ok t =>
        simp only [collect, hr, Option.some.injEq, Prod.mk.injEq] at h
        obtain ⟨rfl, rfl⟩ := h
        exact .takes w a pid published (.ok t) ha hnext hr
      | error f =>
        simp only [collect, hr, Option.some.injEq, Prod.mk.injEq] at h
        obtain ⟨rfl, rfl⟩ := h
        exact .takes w a pid published (.error f) ha hnext hr

theorem step_move (hs : Sound w) (h : step w a = some (v, e)) : Move w a v e := by
  cases a with
  | add pid thread =>
    cases hc : w.contains pid with
    | true =>
      simp only [step, hc, if_true, Option.some.injEq, Prod.mk.injEq] at h
      obtain ⟨rfl, rfl⟩ := h
      exact .refuses w pid thread hc
    | false =>
      cases thread with
      | ok u =>
        simp only [step, hc, Bool.false_eq_true, if_false, Option.some.injEq, Prod.mk.injEq] at h
        obtain ⟨rfl, rfl⟩ := h
        exact .adds w pid hc
      | error f =>
        simp only [step, hc, Bool.false_eq_true, if_false, Option.some.injEq, Prod.mk.injEq] at h
        obtain ⟨rfl, rfl⟩ := h
        exact .lacksThread w pid f hc
  | settle pid r =>
    simp only [step] at h
    split at h
    · rename_i hdue
      have hm := Move.settles w pid r hdue
      rcases r with (f | p) | t <;>
      · simp only [Option.some.injEq, Prod.mk.injEq] at h
        obtain ⟨rfl, rfl⟩ := h
        exact hm
    · cases h
  | publish pid =>
    simp only [step] at h
    split at h
    · rename_i r hdue
      cases h
      exact .publishes w pid r hdue
    · cases h
  | wait => exact take_move hs rfl (fun _ _ hnone => by cases hnone) h
  | waitTimed =>
    refine take_move hs rfl ?_ h
    intro htracked hsilent hup
    cases hup
    exact .givesUp w htracked hsilent

theorem not_ended_of_fresh (hs : Sound w) (hc : w.contains pid = false) : pid ∉ w.published := by
  intro hm
  obtain ⟨r, hr⟩ := (hs.ended pid).mp hm
  rw [PidMap.contains_eq_false_iff.mp hc] at hr
  cases hr

/-- Changing a task that has not ended to another that has not leaves the queue as it should be. -/
theorem Sound.insert {task : Task} (hs : Sound w) (hm : pid ∉ w.published)
    (ht : ∀ r, task ≠ .ended r) : Sound { w with tasks := PidMap.insert pid task w.tasks } := by
  refine ⟨hs.ascending.insert, hs.once, ?_⟩
  intro q
  rw [PidMap.find?_insert]
  split
  · rename_i hq
    subst hq
    constructor
    · intro hq
      exact absurd hq hm
    · rintro ⟨r, hr⟩
      exact absurd (Option.some.inj hr) (ht r)
  · exact hs.ended q

theorem settled_ne_ended (r : Result Termination) (x : Except Failure Termination) :
    Task.settled r ≠ .ended x := by
  rcases r with (f | p) | t <;> simp [Task.settled]

theorem Sound.not_published {task : Task} (hs : Sound w)
    (hf : PidMap.find? pid w.tasks = some task) (ht : ∀ r, task ≠ .ended r) :
    pid ∉ w.published := by
  intro hm
  obtain ⟨r, hr⟩ := (hs.ended pid).mp hm
  exact ht r (Option.some.inj (hf.symm.trans hr))

theorem Sound.publish {r : Except Failure Termination} (hs : Sound w)
    (hdue : PidMap.find? pid w.tasks = some (.publishing r)) :
    Sound ⟨PidMap.insert pid (.ended r) w.tasks, w.published ++ [pid]⟩ := by
  have hnew := hs.not_published hdue (by simp)
  refine ⟨hs.ascending.insert, ?_, ?_⟩
  · refine List.nodup_append.mpr ⟨hs.once, by simp, ?_⟩
    rintro p hp q hq rfl
    exact hnew (List.mem_singleton.mp hq ▸ hp)
  · intro q
    rw [PidMap.find?_insert, List.mem_append, List.mem_singleton]
    by_cases hq : q = pid
    · simp [hq]
    · simp [hq, hs.ended q]

theorem Sound.take {published : List Pid} (hs : Sound w) (hnext : w.published = pid :: published) :
    Sound ⟨PidMap.erase pid w.tasks, published⟩ := by
  have honce := hs.once
  rw [hnext, List.nodup_cons] at honce
  refine ⟨hs.ascending.erase, honce.2, ?_⟩
  intro q
  rw [PidMap.find?_erase]
  by_cases hq : q = pid
  · simp [hq, honce.1]
  · have hmem : q ∈ w.published ↔ q ∈ published := by simp [hnext, hq]
    rw [if_neg hq, ← hs.ended q, hmem]

theorem Sound.move (hs : Sound w) (hm : Move w a v e) : Sound v := by
  cases hm with
  | refuses pid thread tracked => exact hs
  | lacksThread pid f fresh => exact hs
  | adds pid fresh => exact hs.insert (not_ended_of_fresh hs fresh) (by simp)
  | settles pid r due =>
    exact hs.insert (hs.not_published due (by simp)) (settled_ne_ended r)
  | publishes pid r due => exact hs.publish due
  | findsNobody _ waits nobody => exact hs
  | givesUp tracked silent => exact hs
  | takes _ pid published r waits next due => exact hs.take next

theorem Sound.step (hs : Sound w) (h : step w a = some (v, e)) : Sound v := hs.move (step_move hs h)

theorem Sound.run (hs : Sound w) (h : run w acts = some (v, e)) : Sound v :=
  Machine.run_invariant (P := fun u _ _ => Sound u) hs
    (fun _ _ _ _ _ _ _ hu hstep => Sound.step hu hstep) h

/-- Whoever waits gets the oldest published process, whether the wait is timed or not. -/
theorem step_takes {published : List Pid} {r : Except Failure Termination}
    (ha : a.waits = true) (hnext : w.published = pid :: published)
    (hdue : PidMap.find? pid w.tasks = some (.ended r)) :
    step w a = some (⟨PidMap.erase pid w.tasks, published⟩, [.returned (reportOf pid r)]) := by
  have htracked : w.tasks ≠ [] := by
    intro hnil
    rw [hnil, PidMap.find?_nil] at hdue
    cases hdue
  cases a with
  | wait | waitTimed =>
    cases r <;> simp [Watch.step, take, htracked, hnext, collect, hdue, reportOf]
  | add | settle | publish => cases ha

end Corun.Watch
