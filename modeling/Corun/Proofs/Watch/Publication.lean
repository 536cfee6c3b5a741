import Mathlib.Data.List.Nodup
import Corun.Proofs.Watch.Registrations

namespace Corun.Watch
open Os Child

variable {w v : Watch} {a : Action} {e : List Entry} {acts : List Action} {pid : Pid} {p : Panic}
  {h : List Event}

/-- Nobody settles, publishes or takes a task that has panicked. -/
theorem Move.panicked_stays (hm : Move w a v e)
    (hp : PidMap.find? pid w.tasks = some (.panicked p)) :
    PidMap.find? pid v.tasks = some (.panicked p) ∧ about pid (eventsOf w a e) = [] := by
  -- A task in any other state is that of another process.
  have hother : ∀ {q task}, PidMap.find? q w.tasks = task → task ≠ some (.panicked p) → pid ≠ q := by
    rintro q task hq hne rfl
    exact hne (hq.symm.trans hp)
  cases hm with
  | refuses q thread tracked => exact ⟨hp, by simp [eventsOf]⟩
  | lacksThread q f fresh => exact ⟨hp, by simp [eventsOf]⟩
  | adds q fresh =>
    have hq : pid ≠ q := hother (PidMap.contains_eq_false_iff.mp fresh) (by simp)
    refine ⟨?_, about_other hq.symm⟩
    rw [PidMap.find?_insert, if_neg hq]
    exact hp
  | settles q r due =>
    have hq : pid ≠ q := hother due (by simp)
    refine ⟨?_, about_other hq.symm⟩
    rw [PidMap.find?_insert, if_neg hq]
    exact hp
  | publishes q r due =>
    have hq : pid ≠ q := hother due (by simp)
    refine ⟨?_, about_other hq.symm⟩
    rw [PidMap.find?_insert, if_neg hq]
    exact hp
  | findsNobody _ waits nobody =>
    rw [nobody, PidMap.find?_nil] at hp
    cases hp
  | givesUp tracked silent => exact ⟨hp, by simp [eventsOf, silent]⟩
  | takes _ q published r waits next due =>
    have hq : pid ≠ q := hother due (by simp)
    have hevents : eventsOf w a [.returned (reportOf q r)] = [.reported q (reportOf q r)] := by
      simp [eventsOf_wait waits, next]
    refine ⟨?_, hevents ▸ about_other hq.symm⟩
    rw [PidMap.find?_erase, if_neg hq]
    exact hp

/-- Nothing happens any more to a process whose task has panicked. -/
theorem Sound.panicked_stays (hs : Sound w) (hp : PidMap.find? pid w.tasks = some (.panicked p))
    (hr : Machine.run told w acts = some (v, h)) :
    PidMap.find? pid v.tasks = some (.panicked p) ∧ about pid h = [] := by
  have hinv := Machine.run_invariant (P := fun u _ h => Sound u ∧
    PidMap.find? pid u.tasks = some (.panicked p) ∧ about pid h = []) ⟨hs, hp, rfl⟩ ?_ hr
  · exact hinv.2
  · rintro acts u h a v h' _ ⟨hu, hstays, hsilent⟩ hstep
    obtain ⟨e, hs, rfl⟩ := told_step hstep
    have hm := step_move hu hs
    obtain ⟨htask, hmore⟩ := hm.panicked_stays hstays
    refine ⟨hu.move hm, htask, ?_⟩
    rw [about_append, hsilent, hmore, List.append_nil]

/-- A wait is kept waiting only as long as no tracked task has returned. -/
theorem Sound.wait_blocks_iff (hs : Sound w) : Watch.step w .wait = none ↔
    w.tasks ≠ [] ∧ ∀ pid r, PidMap.find? pid w.tasks ≠ some (.ended r) := by
  constructor
  · intro hblocks
    have htracked : w.tasks ≠ [] := by
      intro hnobody
      simp [Watch.step, Watch.take, hnobody] at hblocks
    refine ⟨htracked, ?_⟩
    intro pid r hr
    have hm := (hs.ended pid).mpr ⟨r, hr⟩
    cases hq : w.published with
    | nil =>
      rw [hq] at hm
      cases hm
    | cons q published =>
      obtain ⟨x, hx⟩ := (hs.ended q).mp (by rw [hq]; exact List.mem_cons_self)
      have hcomes := step_takes (a := .wait) rfl hq hx
      rw [hblocks] at hcomes
      cases hcomes
  · rintro ⟨htracked, hnone⟩
    have hsilent : w.published = [] := by
      apply List.eq_nil_iff_forall_not_mem.mpr
      intro pid hm
      obtain ⟨r, hr⟩ := (hs.ended pid).mp hm
      exact hnone pid r hr
    simp [Watch.step, Watch.take, htracked, hsilent]

theorem Task.over_cases {task : Task} (ho : task.isOver = true) :
    (∃ r, task = .ended r) ∨ ∃ p, task = .panicked p := by
  cases task with
  | awaiting | publishing r => cases ho
  | ended r => exact .inl ⟨r, rfl⟩
  | panicked p => exact .inr ⟨p, rfl⟩

/-- What is known of the tasks of a watch that are over, and of what came to pass with their processes. -/
structure Publishes (w : Watch) (h : List Event) : Prop where
  /-- Its process was published once since it came to be tracked, and was not taken. -/
  returned : ∀ pid r, PidMap.find? pid w.tasks = some (.ended r) →
    w.published.count pid = 1 ∧ ∃ rounds : List (Except Failure Termination), about pid h =
      rounds.flatMap (round pid) ++ [.registered pid, .settled pid (.ofExcept r), .published pid]
  /-- Its process was not published since it came to be tracked. -/
  panicked : ∀ pid p, PidMap.find? pid w.tasks = some (.panicked p) →
    pid ∉ w.published ∧ ∃ rounds : List (Except Failure Termination), about pid h =
      rounds.flatMap (round pid) ++ [.registered pid, .settled pid (.error (.panicked p))]
  /-- Nor will it ever be, and it stays tracked. -/
  forever : ∀ pid p, PidMap.find? pid w.tasks = some (.panicked p) → ∀ acts v later,
    Machine.run told w acts = some (v, later) →
      PidMap.find? pid v.tasks = some (.panicked p) ∧ about pid later = []
  /-- A task that is over keeps nobody waiting unless it has panicked. -/
  waiting : ∀ pid task, PidMap.find? pid w.tasks = some task → task.isOver = true →
    step w .wait = none → ∃ p, task = .panicked p
  /-- And where all that are over have panicked, it does. -/
  blocks : w.tasks ≠ [] → (∀ pid task, PidMap.find? pid w.tasks = some task → task.isOver = true →
    ∃ p, task = .panicked p) → step w .wait = none

theorem Sound.publishes (hs : Sound w) (hrounds : ∀ pid, InRounds w h pid) : Publishes w h := by
  refine ⟨?_, ?_, ?_, ?_, ?_⟩
  · intro pid r hr
    have hm : pid ∈ w.published := (hs.ended pid).mpr ⟨r, hr⟩
    obtain ⟨rounds, habout⟩ := hrounds pid
    rw [hr] at habout
    exact ⟨List.count_eq_one_of_mem hs.once hm, rounds, habout⟩
  · intro pid p hp
    obtain ⟨rounds, habout⟩ := hrounds pid
    rw [hp] at habout
    exact ⟨hs.not_published hp (by simp), rounds, habout⟩
  · intro pid p hp acts v later hlater
    exact hs.panicked_stays hp hlater
  · intro pid task htask hover hblocks
    have hnone := (hs.wait_blocks_iff.mp hblocks).2
    rcases Task.over_cases hover with ⟨r, rfl⟩ | hp
    · exact absurd htask (hnone pid r)
    · exact hp
  · intro htracked hall
    refine hs.wait_blocks_iff.mpr ⟨htracked, ?_⟩
    intro pid r hr
    obtain ⟨p, hp⟩ := hall pid (.ended r) hr rfl
    cases hp

/-- Whatever the tasks come to, and whatever order they do so in. -/
theorem ended_tasks_published_unless_panicked (hr : run empty acts = some (w, e)) :
    ∃ h, Machine.run told empty acts = some (w, h) ∧ Publishes w h := by
  obtain ⟨h, hh⟩ := run_told hr
  have hinv := told_invariant (P := fun u h => ∀ pid, InRounds u h pid) (fun pid => ⟨[], rfl⟩) ?_ hh
  · obtain ⟨hs, hrounds⟩ := hinv
    exact ⟨h, hh, hs.publishes hrounds⟩
  · intro u h a v e hu hrounds hm pid
    exact (hrounds pid).move hu hm

/-- One of two tasks has panicked, the other has returned with a failure and is published. -/
theorem ended_tasks_published_beside_panic :
    let lost : Failure := .ofCause (.waitFailed 2 .noChild)
    let acts : List Action := [.add 1, .add 2, .settle 1 (.error (.panicked (.scripted "boom"))),
      .settle 2 (.error (.failed lost)), .publish 2]
    let w : Watch := ⟨[(1, .panicked (.scripted "boom")), (2, .ended (.error lost))], [2]⟩
    run empty acts = some (w, [.added 1, .added 2]) ∧
      ∃ h, Machine.run told empty acts = some (w, h) ∧ Publishes w h := by
  intro lost acts w
  have hrun : run empty acts = some (w, [.added 1, .added 2]) := rfl
  exact ⟨hrun, ended_tasks_published_unless_panicked hrun⟩

/-- A task that panics is over without having published, and a wait does not come back. -/
theorem panicked_task_keeps_waiting :
    let acts : List Action := [.add 1, .settle 1 (.error (.panicked (.scripted "boom")))]
    ∃ w, run empty acts = some (w, [.added 1]) ∧ w.contains 1 = true ∧
      (∃ task, PidMap.find? 1 w.tasks = some task ∧ task.isOver = true) ∧
      w.published = [] ∧ step w .wait = none :=
  ⟨_, rfl, rfl, ⟨_, rfl, rfl⟩, rfl, rfl⟩

end Corun.Watch
