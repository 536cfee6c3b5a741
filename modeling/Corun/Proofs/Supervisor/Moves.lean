import Corun.Proofs.Machine
import Corun.Supervisor.State

namespace Corun.Supervisor

variable {σ : Type} [Strategy σ] {v w : Supervisor σ} {s : σ} {a : Action} {e : List Entry}

/-- The strategy is held until a worker is started, and again when one was joined that kept it. -/
def Placed (v : Supervisor σ) : Prop :=
  match v.stage with
  | .uninitialized | .initialized =>
    v.preparing = false ∧ v.worker = .absent ∧ ∃ s, v.strategy = some s
  | .prepared => v.worker = .absent ∧ ∃ s, v.strategy = some s
  | .running => v.preparing = false ∧ v.strategy = none
  | .joined | .finalized => v.preparing = false ∧ v.worker = .absent

theorem create_placed (s : σ) (spawn : Except Failure Unit) : Placed (create s spawn) :=
  ⟨rfl, rfl, s, rfl⟩

/-- All that can happen in one step from where strategy and worker belong. -/
inductive Move : Supervisor σ → Action → Supervisor σ → List Entry → Prop where
  | posts (v : Supervisor σ) (a : Announcement) :
    Move v (.post a) { v with inbox := v.inbox ++ [a] } []
  | ends (v : Supervisor σ) : Move v .endRun { v with finished := true } []
  | refuses (v : Supervisor σ) (c : Call) (idle : v.preparing = false)
      (early : v.stage ≠ c.before) :
    Move v (.call c) v
      [.returned c (Result.panics (.outOfStage v.name c.after v.stage c.before))]
  | setsUp (v : Supervisor σ) (s : σ) (stage : v.stage = .uninitialized)
      (held : v.strategy = some s) :
    Move v (.call .setUp)
      { v with stage := .initialized, strategy := some (Strategy.setUp s).state }
      (.hook .setUp :: notes (Strategy.setUp s) ++ [.returned .setUp (Strategy.setUp s).result])
  | prepares (v : Supervisor σ) (stage : v.stage = .initialized) :
    Move v (.call .prepare) { v with stage := .prepared, preparing := true } []
  | starts (v : Supervisor σ) (s : σ) (stage : v.stage = .prepared) (idle : v.preparing = false)
      (held : v.strategy = some s) (spawned : v.spawn = .ok ()) :
    Move v (.call .start) { v with stage := .running, strategy := none, worker := .checking s }
      [.returned .start (.ok ())]
  | startFails (v : Supervisor σ) (s : σ) (f : Failure) (stage : v.stage = .prepared)
      (idle : v.preparing = false) (held : v.strategy = some s) (spawned : v.spawn = .error f) :
    Move v (.call .start) { v with stage := .running, strategy := none }
      ((Strategy.discard s).2.map Entry.note ++ [.returned .start
        ((Strategy.discard s).1.bind fun _ => .error (.failed (f.within .spawning)))])
  | joinsNone (v : Supervisor σ) (stage : v.stage = .running) (there : v.worker = .absent) :
    Move v (.call .join) { v with stage := .joined }
      [.returned .join (Result.fail (.notStarted v.name))]
  | joins (v : Supervisor σ) (s : σ) (r : Except Failure Unit) (stage : v.stage = .running)
      (there : v.worker = .exited s r) :
    Move v (.call .join) { v with stage := .joined, strategy := some s, worker := .absent }
      [.returned .join (Result.within (.supervising v.name) (Result.ofExcept r))]
  | joinsPanicked (v : Supervisor σ) (stage : v.stage = .running) (there : v.worker = .panicked) :
    Move v (.call .join) { v with stage := .joined, worker := .absent }
      [.returned .join (Result.fail (.monitorPanicked v.name))]
  | finalizes (v : Supervisor σ) (s : σ) (stage : v.stage = .joined)
      (held : v.strategy = some s) :
    Move v (.call .finalize)
      { v with stage := .finalized, strategy := some (Strategy.finalize s).state }
      (.hook .finalize :: notes (Strategy.finalize s)
        ++ [.returned .finalize (Strategy.finalize s).result])
  | finalizesNone (v : Supervisor σ) (stage : v.stage = .joined) (held : v.strategy = none) :
    Move v (.call .finalize) { v with stage := .finalized } [.returned .finalize (.ok ())]
  | prepared (v : Supervisor σ) (s : σ) (stage : v.stage = .prepared)
      (inside : v.preparing = true) (held : v.strategy = some s) (empty : v.inbox = []) :
    Move v .deliver { v with preparing := false, strategy := some (Strategy.prepare s).state }
      (.hook .prepare :: notes (Strategy.prepare s)
        ++ [.returned .prepare (Strategy.prepare s).result])
  | delivers (v : Supervisor σ) (s : σ) (a : Announcement) (inbox : List Announcement)
      (stage : v.stage = .prepared) (inside : v.preparing = true) (held : v.strategy = some s)
      (next : v.inbox = a :: inbox) (passed : (dispatch a s).result = .ok ()) :
    Move v .deliver { v with inbox := inbox, strategy := some (dispatch a s).state }
      (.hook (.event a) :: notes (dispatch a s))
  | deliveryStops (v : Supervisor σ) (s : σ) (a : Announcement) (inbox : List Announcement)
      (stop : Stop) (stage : v.stage = .prepared) (inside : v.preparing = true)
      (held : v.strategy = some s) (next : v.inbox = a :: inbox)
      (stopped : (dispatch a s).result = .error stop) :
    Move v .deliver
      { v with preparing := false, inbox := inbox, strategy := some (dispatch a s).state }
      (.hook (.event a) :: notes (dispatch a s) ++ [.returned .prepare (.error stop)])
  | leaves (v : Supervisor σ) (s : σ) (there : v.worker = .checking s) (closed : v.finished = true) :
    Move v .work { v with worker := .exited s (.ok ()) } []
  | goesOn (v : Supervisor σ) (s : σ) (there : v.worker = .checking s)
      (open_ : v.finished = false) :
    Move v .work { v with worker := .entering s } []
  | ticks (v : Supervisor σ) (s : σ) (there : v.worker = .entering s) :
    Move v .work { v with worker := .ticking s } [.hook .tick]
  | ticked (v : Supervisor σ) (s : σ) (there : v.worker = .ticking s) :
    Move v .work { v with worker := (Worker.afterHook .draining (Strategy.tick s)).1 }
      (Worker.afterHook .draining (Strategy.tick s)).2
  | drained (v : Supervisor σ) (s : σ) (there : v.worker = .draining s) (empty : v.inbox = []) :
    Move v .work { v with worker := .checking s } []
  | hands (v : Supervisor σ) (s : σ) (a : Announcement) (inbox : List Announcement)
      (there : v.worker = .draining s) (next : v.inbox = a :: inbox) :
    Move v .work
      { v with inbox := inbox, worker := (Worker.afterHook .draining (dispatch a s)).1 }
      (.hook (.event a) :: (Worker.afterHook .draining (dispatch a s)).2)

theorem call_move {c : Call} (hp : Placed v) (h : v.call c = some (w, e)) :
    Move v (.call c) w e := by
  unfold call at h
  split at h
  · cases h
  · rename_i hidle
    have hidle : v.preparing = false := by simpa using hidle
    split at h
    · rename_i hstage
      cases c with
      | setUp =>
        simp only [Call.before] at hstage
        simp only [Placed, hstage] at hp
        obtain ⟨_, _, s, hs⟩ := hp
        simp only [enter, hs, Call.after, Option.some.injEq, Prod.mk.injEq] at h
        obtain ⟨rfl, rfl⟩ := h
        exact .setsUp v s hstage hs
      | prepare =>
        simp only [enter, Call.after, Option.some.injEq, Prod.mk.injEq] at h
        obtain ⟨rfl, rfl⟩ := h
        exact .prepares v hstage
      | start =>
        simp only [Call.before] at hstage
        simp only [Placed, hstage] at hp
        obtain ⟨_, s, hs⟩ := hp
        cases hsp : v.spawn with
        | ok u =>
          simp only [enter, hs, hsp, Call.after, Option.some.injEq, Prod.mk.injEq] at h
          obtain ⟨rfl, rfl⟩ := h
          exact hsp ▸ .starts v s hstage hidle hs hsp
        | error f =>
          simp only [enter, hs, hsp, Call.after, Option.some.injEq, Prod.mk.injEq] at h
          obtain ⟨rfl, rfl⟩ := h
          exact hsp ▸ .startFails v s f hstage hidle hs hsp
      | join =>
        cases hw : v.worker with
        | absent =>
          simp only [enter, hw, Call.after, Option.some.injEq, Prod.mk.injEq] at h
          obtain ⟨rfl, rfl⟩ := h
          exact hw ▸ .joinsNone v hstage hw
        | exited s r =>
          simp only [enter, hw, Call.after, Option.some.injEq, Prod.mk.injEq] at h
          obtain ⟨rfl, rfl⟩ := h
          exact .joins v s r hstage hw
        | panicked =>
          simp only [enter, hw, Call.after, Option.some.injEq, Prod.mk.injEq] at h
          obtain ⟨rfl, rfl⟩ := h
          exact .joinsPanicked v hstage hw
        | checking s | entering s | ticking s | draining s =>
          simp [enter, hw] at h
      | finalize =>
        cases hs : v.strategy with
        | none =>
          simp only [enter, hs, Call.after, Option.some.injEq, Prod.mk.injEq] at h
          obtain ⟨rfl, rfl⟩ := h
          exact hs ▸ .finalizesNone v hstage hs
        | some s =>
          simp only [enter, hs, Call.after, Option.some.injEq, Prod.mk.injEq] at h
          obtain ⟨rfl, rfl⟩ := h
          exact .finalizes v s hstage hs
    · rename_i hearly
      cases h
      exact .refuses v c hidle hearly

theorem deliver_move (hp : Placed v) (h : v.deliver = some (w, e)) : Move v .deliver w e := by
  unfold deliver at h
  split at h
  · rename_i hin
    have hstage : v.stage = .prepared := by
      unfold Placed at hp
      split at hp <;> simp_all
    simp only [Placed, hstage] at hp
    obtain ⟨_, s, hs⟩ := hp
    cases hi : v.inbox with
    | nil =>
      simp only [hs, hi, Option.some.injEq, Prod.mk.injEq] at h
      obtain ⟨rfl, rfl⟩ := h
      exact hi ▸ .prepared v s hstage hin hs hi
    | cons a inbox =>
      cases hr : (dispatch a s).result with
      | ok u =>
        simp only [hs, hi, hr, Option.some.injEq, Prod.mk.injEq] at h
        obtain ⟨rfl, rfl⟩ := h
        exact .delivers v s a inbox hstage hin hs hi hr
      | error stop =>
        simp only [hs, hi, hr, Option.some.injEq, Prod.mk.injEq] at h
        obtain ⟨rfl, rfl⟩ := h
        exact .deliveryStops v s a inbox stop hstage hin hs hi hr
  · cases h

theorem work_move (h : v.work = some (w, e)) : Move v .work w e := by
  cases hw : v.worker with
  | checking s =>
    cases hf : v.finished with
    | true =>
      simp only [work, hw, hf, if_true, Option.some.injEq, Prod.mk.injEq] at h
      obtain ⟨rfl, rfl⟩ := h
      exact hf ▸ .leaves v s hw hf
    | false =>
      simp only [work, hw, hf, Bool.false_eq_true, if_false, Option.some.injEq,
        Prod.mk.injEq] at h
      obtain ⟨rfl, rfl⟩ := h
      exact hf ▸ .goesOn v s hw hf
  | entering s =>
    simp only [work, hw, Option.some.injEq, Prod.mk.injEq] at h
    obtain ⟨rfl, rfl⟩ := h
    exact .ticks v s hw
  | ticking s =>
    simp only [work, hw, Option.some.injEq, Prod.mk.injEq] at h
    obtain ⟨rfl, rfl⟩ := h
    exact .ticked v s hw
  | draining s =>
    cases hi : v.inbox with
    | nil =>
      simp only [work, hw, hi, Option.some.injEq, Prod.mk.injEq] at h
      obtain ⟨rfl, rfl⟩ := h
      exact hi ▸ .drained v s hw hi
    | cons a inbox =>
      simp only [work, hw, hi, Option.some.injEq, Prod.mk.injEq] at h
      obtain ⟨rfl, rfl⟩ := h
      exact .hands v s a inbox hw hi
  | absent | exited s r | panicked => simp [work, hw] at h

theorem step_move (hp : Placed v) (h : step v a = some (w, e)) : Move v a w e := by
  cases a with
  | post a =>
    cases h
    exact .posts v a
  | endRun =>
    cases h
    exact .ends v
  | call c => exact call_move hp h
  | deliver => exact deliver_move hp h
  | work => exact work_move h

end Corun.Supervisor
