import Corun.Proofs.Supervisor.Course
import Corun.Strategy.Script

namespace Corun.Supervisor

variable {σ : Type} [Strategy σ] {v w : Supervisor σ} {s : σ} {a : Action} {e : List Entry}
  {acts : List Action}

/-- Place of a stage in the order in which they are gone through. -/
def Stage.rank : Stage → Nat
  | .uninitialized => 0
  | .initialized => 1
  | .prepared => 2
  | .running => 3
  | .joined => 4
  | .finalized => 5

/-- The hook that the worker is inside, or is about to enter, fails or panics. -/
def LoopFails (v : Supervisor σ) : Prop :=
  (∃ s stop, v.worker = .ticking s ∧ (Strategy.tick s).result = .error stop) ∨
  ∃ s a inbox stop, v.worker = .draining s ∧ v.inbox = a :: inbox ∧
    (Strategy.handle a s).result = .error stop

omit [Strategy σ] in
theorem mem_hooks {h : Hook} : h ∈ hooks e ↔ .hook h ∈ e := by
  simp only [hooks, List.mem_filterMap]
  constructor
  · rintro ⟨x, hx, he⟩
    cases x with
    | hook k =>
      cases he
      exact hx
    | note n => cases he
    | returned c r => cases he
  · intro hm
    exact ⟨_, hm, rfl⟩

theorem afterHook_error (next : σ → Worker σ) {hook : Step σ Unit} {stop : Stop}
    (hr : hook.result = .error stop) :
    (∃ s r, (Worker.afterHook next hook).1 = .exited s r) ∨
      (Worker.afterHook next hook).1 = .panicked := by
  rcases afterHook_cases next hook with ⟨hok, _⟩ | ⟨f, _, hn⟩ | ⟨p, _, hn⟩
  · cases hr.symm.trans hok
  · exact .inl ⟨_, _, hn⟩
  · exact .inr hn

theorem dispatch_error {x : Announcement} {stop : Stop}
    (hr : (Strategy.handle x s).result = .error stop) : (dispatch x s).result = .error stop := by
  simp [dispatch, hr]

theorem LoopFails.to_over (hl : LoopFails v) (h : step v .work = some (w, e)) : Over w := by
  rcases hl with ⟨s, stop, hw, hr⟩ | ⟨s, x, inbox, stop, hw, hi, hr⟩
  · simp only [step, work, hw, Option.some.injEq, Prod.mk.injEq] at h
    obtain ⟨rfl, rfl⟩ := h
    rcases afterHook_error .draining hr with he | he
    · exact .inl he
    · exact .inr (.inl he)
  · simp only [step, work, hw, hi, Option.some.injEq, Prod.mk.injEq] at h
    obtain ⟨rfl, rfl⟩ := h
    rcases afterHook_error .draining (dispatch_error hr) with he | he
    · exact .inl he
    · exact .inr (.inl he)

def Lost (v : Supervisor σ) : Prop :=
  v.worker = .panicked ∨ ((v.stage = .joined ∨ v.stage = .finalized) ∧ v.strategy = none)

omit [Strategy σ] in
theorem Lost.to_over (hl : Lost v) : Over v := by
  rcases hl with hw | ⟨hstage | hstage, _⟩
  · exact .inr (.inl hw)
  · exact .inr (.inr (.inl hstage))
  · exact .inr (.inr (.inr hstage))

/-- Nothing at all is called of it any more. -/
theorem Lost.move (hl : Lost v) (hp : Placed v) (hm : Move v a w e) : Lost w ∧ hooks e = [] := by
  have hw := hl.to_over.worker hp
  have hlate := hl.to_over.stage hp
  cases hm with
  | posts a => exact ⟨hl, rfl⟩
  | ends => exact ⟨hl, rfl⟩
  | refuses c idle early => exact ⟨hl, rfl⟩
  | joinsNone stage there =>
    obtain ⟨_, hs⟩ : v.preparing = false ∧ v.strategy = none := by simpa [Placed, stage] using hp
    exact ⟨.inr ⟨.inl rfl, hs⟩, rfl⟩
  | joinsPanicked stage there =>
    obtain ⟨_, hs⟩ : v.preparing = false ∧ v.strategy = none := by simpa [Placed, stage] using hp
    exact ⟨.inr ⟨.inl rfl, hs⟩, rfl⟩
  | finalizesNone stage held => exact ⟨.inr ⟨.inr rfl, held⟩, rfl⟩
  | joins s r stage there => simp [Lost, there, stage] at hl
  | finalizes s stage held =>
    simp only [Placed, stage] at hp
    simp [Lost, hp.2, held] at hl
  | setsUp s stage | prepares stage | starts s stage | startFails s f stage | prepared s stage
  | delivers s a inbox stage | deliveryStops s a inbox stop stage => simp [stage] at hlate
  | leaves s there | goesOn s there | ticks s there | ticked s there | drained s there
  | hands s a inbox there => simp [there] at hw

theorem Lost.run (hl : Lost v) (hp : Placed v) (h : run v acts = some (w, e)) :
    Lost w ∧ hooks e = [] := by
  refine run_moves (P := fun u _ e => Lost u ∧ hooks e = []) hp ⟨hl, rfl⟩ ?_ h
  rintro acts u e a w e' _ hpu ⟨hu, hsofar⟩ hm
  obtain ⟨hw, hnone⟩ := hu.move hpu hm
  exact ⟨hw, by rw [hooks_append, hsofar, hnone, List.nil_append]⟩

/-- A strategy that is there after the worker was joined is the one that the worker kept to its end. -/
theorem joined_after_exit (hp : Placed v) (hv : v.stage ≠ .joined ∧ v.stage ≠ .finalized)
    (h : run v acts = some (w, e)) (hw : w.stage = .joined ∨ w.stage = .finalized)
    (hs : w.strategy = some s) :
    ∃ before after u e₁ t r, acts = before ++ .call .join :: after ∧
      run v before = some (u, e₁) ∧ u.worker = .exited t r := by
  refine run_moves (P := fun u acts _ => u.stage = .joined ∨ u.stage = .finalized →
    ∀ s, u.strategy = some s → ∃ before after x e₁ t r, acts = before ++ .call .join :: after ∧
      run v before = some (x, e₁) ∧ x.worker = .exited t r) hp ?_ ?_ h hw s hs
  · rintro (hstage | hstage)
    · exact absurd hstage hv.1
    · exact absurd hstage hv.2
  · intro acts u e a w e' hu hpu hsofar hm hstage s hs
    have hbefore : u.stage = .joined ∨ u.stage = .finalized → (∃ s, u.strategy = some s) →
        ∃ before after x e₁ t r, acts ++ [a] = before ++ .call .join :: after ∧
          run v before = some (x, e₁) ∧ x.worker = .exited t r := by
      rintro hjoined ⟨s, hs⟩
      obtain ⟨before, after, x, e₁, t, r, rfl, hx, ht⟩ := hsofar hjoined s hs
      exact ⟨before, after ++ [a], x, e₁, t, r, by simp, hx, ht⟩
    cases hm with
    | joins t r stage there => exact ⟨acts, [], u, e, t, r, rfl, hu, there⟩
    | joinsNone stage there | joinsPanicked stage there =>
      have hnone : u.preparing = false ∧ u.strategy = none := by simpa [Placed, stage] using hpu
      cases hnone.2.symm.trans hs
    | posts a | ends | refuses c idle early => exact hbefore hstage ⟨s, hs⟩
    | finalizes t stage held => exact hbefore (.inl stage) ⟨t, held⟩
    | finalizesNone stage held => cases held.symm.trans hs
    | setsUp | prepares | starts | startFails => simp at hstage
    | prepared t stage | delivers t x inbox stage | deliveryStops t x inbox stop stage =>
      simp [stage] at hstage
    | leaves t there | goesOn t there | ticks t there | ticked t there | drained t there
    | hands t x inbox there =>
      obtain ⟨hrunning, _⟩ := hpu.running (by simp [there])
      simp [hrunning] at hstage

/-- Ticks that are sure to begin: a worker that has seen the flag down does not look again. -/
def dueTicks (v : Supervisor σ) : Nat :=
  match v.worker with
  | .entering _ => 1
  | _ => 0

theorem dueTicks_afterHook (hook : Step σ Unit) (inbox : List Announcement) :
    dueTicks { v with inbox := inbox, worker := (Worker.afterHook .draining hook).1 } = 0 := by
  rcases afterHook_cases .draining hook with ⟨_, hn⟩ | ⟨f, _, hn⟩ | ⟨p, _, hn⟩ <;>
    simp [dueTicks, hn]

theorem move_ticks (hf : v.finished = true) (hm : Move v a w e) :
    w.finished = true ∧ (hooks e).count .tick + dueTicks w ≤ dueTicks v := by
  cases hm with
  | ticks s there =>
    refine ⟨hf, ?_⟩
    simp [dueTicks, there]
  | ticked s there =>
    refine ⟨hf, ?_⟩
    rw [hooks_afterHook, dueTicks_afterHook]
    simp
  | hands s x inbox there next =>
    refine ⟨hf, ?_⟩
    rw [hooks_hook, hooks_afterHook, dueTicks_afterHook]
    simp
  | goesOn s there open_ =>
    rw [hf] at open_
    cases open_
  | ends => exact ⟨rfl, by simp [dueTicks]⟩
  | _ => simp [dueTicks, hf]

theorem run_ticks (hp : Placed v) (hf : v.finished = true) (h : run v acts = some (w, e)) :
    (hooks e).count .tick ≤ dueTicks v := by
  have hrun : w.finished = true ∧ (hooks e).count .tick + dueTicks w ≤ dueTicks v := by
    refine run_moves (P := fun u _ e => u.finished = true ∧
      (hooks e).count .tick + dueTicks u ≤ dueTicks v) hp ⟨hf, by simp⟩ ?_ h
    rintro acts u e a w e' _ _ ⟨hu, hsofar⟩ hm
    obtain ⟨hw, hlast⟩ := move_ticks hu hm
    refine ⟨hw, ?_⟩
    rw [hooks_append, List.count_append]
    omega
  omega

omit [Strategy σ] in
theorem dueTicks_le (v : Supervisor σ) : dueTicks v ≤ 1 := by
  unfold dueTicks
  split <;> decide

theorem ticks_after_end (hp : Placed v) (h : run v (.endRun :: acts) = some (w, e)) :
    (hooks e).count .tick ≤ 1 := by
  obtain ⟨u, e₁, e₂, hend, hrest, rfl⟩ := Machine.run_cons.mp h
  have hpu := hp.step hend
  cases hend
  exact Nat.le_trans (run_ticks hpu rfl hrest) (dueTicks_le _)

/-- Only a call that is due moves the stage. -/
theorem move_stage (hm : Move v a w e) :
    w.stage = v.stage ∨ ∃ c, a = .call c ∧ v.stage = c.before ∧ w.stage = c.after := by
  cases hm with
  | setsUp s stage held => exact .inr ⟨.setUp, rfl, stage, rfl⟩
  | prepares stage => exact .inr ⟨.prepare, rfl, stage, rfl⟩
  | starts s stage idle held spawned => exact .inr ⟨.start, rfl, stage, rfl⟩
  | startFails s f stage idle held spawned => exact .inr ⟨.start, rfl, stage, rfl⟩
  | joinsNone stage there => exact .inr ⟨.join, rfl, stage, rfl⟩
  | joins s r stage there => exact .inr ⟨.join, rfl, stage, rfl⟩
  | joinsPanicked stage there => exact .inr ⟨.join, rfl, stage, rfl⟩
  | finalizes s stage held => exact .inr ⟨.finalize, rfl, stage, rfl⟩
  | finalizesNone stage held => exact .inr ⟨.finalize, rfl, stage, rfl⟩
  | _ => exact .inl rfl

/-- A call that is due is taken, and joining is as soon as no worker is at work. -/
theorem due_call_taken {c : Call} (hidle : v.preparing = false) (hstage : v.stage = c.before)
    (hjoin : c = .join → v.worker = .absent ∨ v.hasStopped = true) :
    ∃ w e, step v (.call c) = some (w, e) ∧ w.stage = c.after := by
  simp only [step, call, hidle, Bool.false_eq_true, if_false, hstage, if_true]
  cases c with
  | setUp =>
    cases hs : v.strategy with
    | none =>
      simp only [enter, hs]
      exact ⟨_, _, rfl, rfl⟩
    | some s =>
      simp only [enter, hs]
      exact ⟨_, _, rfl, rfl⟩
  | prepare => exact ⟨_, _, rfl, rfl⟩
  | start =>
    cases hs : v.strategy with
    | none =>
      simp only [enter, hs]
      exact ⟨_, _, rfl, rfl⟩
    | some s =>
      cases hsp : v.spawn with
      | ok u =>
        simp only [enter, hs, hsp]
        exact ⟨_, _, rfl, rfl⟩
      | error f =>
        simp only [enter, hs, hsp]
        exact ⟨_, _, rfl, rfl⟩
  | join =>
    have hended := hjoin rfl
    cases hw : v.worker with
    | absent | exited s r | panicked =>
      simp only [enter, hw]
      exact ⟨_, _, rfl, rfl⟩
    | checking s | entering s | ticking s | draining s => simp [hasStopped, hw] at hended
  | finalize =>
    cases hs : v.strategy with
    | none =>
      simp only [enter, hs]
      exact ⟨_, _, rfl, rfl⟩
    | some s =>
      simp only [enter, hs]
      exact ⟨_, _, rfl, rfl⟩

theorem move_finalizes (hm : Move v a w e) (hf : .finalize ∈ hooks e) :
    v.stage = .joined ∧ ∃ s, v.strategy = some s := by
  cases hm with
  | finalizes s stage held => exact ⟨stage, s, held⟩
  | _ => simp at hf

omit [Strategy σ] in
theorem finalize_not_mem {c : Course} (hf : Fits c v) (hv : v.stage = .running) :
    .finalize ∉ c.hooks := by
  simp only [Fits, hv] at hf
  apply List.count_eq_zero.mp
  rw [Course.finalize_count, hf.2]
  rfl

theorem created_course {spawn : Except Failure Unit}
    (h : run (create s spawn) acts = some (v, e)) : ∃ c : Course, Fits c v ∧ c.hooks = hooks e :=
  run_course (c := .blank) (create_placed s spawn) rfl h

theorem hooks_once {spawn : Except Failure Unit} (h : run (create s spawn) acts = some (v, e)) :
    (hooks e).count .setUp ≤ 1 ∧ (hooks e).count .prepare ≤ 1 ∧ (hooks e).count .finalize ≤ 1 := by
  obtain ⟨c, _, hc⟩ := created_course h
  rw [← hc]
  refine ⟨c.setUp_once, c.prepare_once, ?_⟩
  rw [c.finalize_count]
  split <;> decide

theorem finalize_after_exit {spawn : Except Failure Unit}
    (h : run (create s spawn) acts = some (v, e)) (hf : .finalize ∈ hooks e) :
    ∃ before after u e₁ t r, acts = before ++ .call .join :: after ∧
      run (create s spawn) before = some (u, e₁) ∧ u.worker = .exited t r ∧
      .finalize ∉ hooks e₁ := by
  have hp := create_placed s spawn
  obtain ⟨first, a, rest, x, y, f₁, f₂, f₃, rfl, hfirst, ha, _, rfl, hmem⟩ :=
    Machine.step_of_mem_run h (mem_hooks.mp hf)
  obtain ⟨hstage, t, ht⟩ := move_finalizes (step_move (hp.run hfirst) ha) (mem_hooks.mpr hmem)
  obtain ⟨before, after, u, e₁, t', r, rfl, hu, hexit⟩ :=
    joined_after_exit hp ⟨by simp [create], by simp [create]⟩ hfirst (.inl hstage) ht
  obtain ⟨c, hfits, hc⟩ := created_course hu
  have hrunning := ((hp.run hu).running (by simp [hexit])).1
  exact ⟨before, after ++ a :: rest, u, e₁, t', r, by simp, hu, hexit,
    hc ▸ finalize_not_mem hfits hrunning⟩

/-- What calls, in whatever order, and the hooks of the strategy come to from a state on. -/
structure Orderly (v₀ : Supervisor σ) : Prop where
  /-- A call that is not due panics and changes nothing. -/
  refused : ∀ acts v e c, run v₀ acts = some (v, e) → v.preparing = false → v.stage ≠ c.before →
    step v (.call c) =
      some (v, [.returned c (Result.panics (.outOfStage v.name c.after v.stage c.before))])
  /-- One that is due leads one stage on, whatever its hook comes to. Joining waits for the worker. -/
  advanced : ∀ acts v e c, run v₀ acts = some (v, e) → v.preparing = false → v.stage = c.before →
    (c = .join → v.worker = .absent ∨ v.hasStopped = true) →
    ∃ w e', step v (.call c) = some (w, e') ∧ w.stage = c.after ∧ w.stage.rank = v.stage.rank + 1
  /-- Nothing else moves the stage. -/
  still : ∀ acts v e a w e', run v₀ acts = some (v, e) → step v a = some (w, e') →
    w.stage = v.stage ∨ ∃ c, a = .call c ∧ v.stage = c.before ∧ w.stage = c.after
  course : ∀ acts v e, run v₀ acts = some (v, e) → ∃ c : Course, hooks e = c.hooks
  once : ∀ acts v e, run v₀ acts = some (v, e) → (hooks e).count .setUp ≤ 1 ∧
    (hooks e).count .prepare ≤ 1 ∧ (hooks e).count .finalize ≤ 1
  /-- A tick or handler of the worker that fails or panics is the last that it calls. -/
  silent : ∀ before after u v w e₁ e₂ e₃, run v₀ before = some (u, e₁) → LoopFails u →
    step u .work = some (v, e₂) → run v after = some (w, e₃) → ∀ h ∈ hooks e₃, h = .finalize
  /-- The last hook comes after a join that found the worker returned. -/
  finalized : ∀ acts v e, run v₀ acts = some (v, e) → .finalize ∈ hooks e →
    ∃ before after u e₁ t r, acts = before ++ .call .join :: after ∧
      run v₀ before = some (u, e₁) ∧ u.worker = .exited t r ∧ .finalize ∉ hooks e₁
  lost : ∀ before after u v e₁ e₂, run v₀ before = some (u, e₁) → u.worker = .panicked →
    run u after = some (v, e₂) → hooks e₂ = []
  /-- The worker may have looked at the flag just before it was raised. -/
  lastTick : ∀ before after u v e₁ e₂, run v₀ before = some (u, e₁) →
    run u (.endRun :: after) = some (v, e₂) → (hooks e₂).count .tick ≤ 1

theorem supervision_is_orderly (s : σ) (spawn : Except Failure Unit) :
    Orderly (create s spawn) := by
  have hp := create_placed s spawn
  refine ⟨?_, ?_, ?_, ?_, ?_, ?_, ?_, ?_, ?_⟩
  · intro acts v e c h hidle hearly
    simp [step, call, hidle, hearly]
  · intro acts v e c h hidle hstage hjoin
    obtain ⟨w, e', hw, hafter⟩ := due_call_taken hidle hstage hjoin
    refine ⟨w, e', hw, hafter, ?_⟩
    rw [hafter, hstage]
    cases c <;> rfl
  · intro acts v e a w e' h hstep
    exact move_stage (step_move (hp.run h) hstep)
  · intro acts v e h
    obtain ⟨c, _, hc⟩ := created_course h
    exact ⟨c, hc.symm⟩
  · intro acts v e h
    exact hooks_once h
  · intro before after u v w e₁ e₂ e₃ hu hl hv hw
    exact ((hl.to_over hv).run ((hp.run hu).step hv) hw).2
  · intro acts v e h hf
    exact finalize_after_exit h hf
  · intro before after u v e₁ e₂ hu hpanic hv
    exact (Lost.run (.inl hpanic) (hp.run hu) hv).2
  · intro before after u v e₁ e₂ hu hv
    exact ticks_after_end (hp.run hu) hv

/-- The run is ended just after the worker looked at the flag, so one tick begins all the same. -/
theorem late_tick_begins_once :
    let start : Supervisor Strategy.Script := create { name := "script" }
    let before : List Action := [.call .setUp, .call .prepare, .deliver, .call .start, .work]
    let after : List Action := [.work, .work, .work, .work, .call .join, .call .finalize]
    ∃ u v e₁ e₂, run start before = some (u, e₁) ∧ run u (.endRun :: after) = some (v, e₂) ∧
      hooks e₁ = [.setUp, .prepare] ∧ hooks e₂ = [.tick, .finalize] ∧
      (hooks e₂).count .tick ≤ 1 := by
  intro start before after
  have horderly := supervision_is_orderly ({ name := "script" } : Strategy.Script) (.ok ())
  exact ⟨_, _, _, _, rfl, rfl, rfl, rfl, horderly.lastTick before after _ _ _ _ rfl rfl⟩

end Corun.Supervisor
