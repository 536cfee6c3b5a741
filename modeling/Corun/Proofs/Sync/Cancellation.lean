import Corun.Proofs.Machine
import Corun.Sync.Alarm

namespace Corun.Sync.Alarm

variable {a b u w : Alarm} {x : Action} {e e' : List Entry} {acts before after : List Action}

/-- All that can happen in one step. -/
inductive Move (a : Alarm) : Action → Alarm → List Entry → Prop where
  | sleeps (open_ : a.canceled = false) (there : a.thread = .starting ∨ a.thread = .awake false) :
    Move a .work { a with thread := .asleep } []
  | observes (open_ : a.canceled = false) (there : a.thread = .awake true) :
    Move a .work { a with thread := .due } []
  | desists (canceled : a.canceled = true)
      (there : a.thread = .starting ∨ ∃ expired, a.thread = .awake expired) :
    Move a .work { a with thread := .exited } []
  | calls (there : a.thread = .due) : Move a .work { a with thread := .calling } [.called]
  | finishes (there : a.thread = .calling) : Move a .work { a with thread := .exited } [.finished]
  | passes : Move a .pass { a with passed := true } []
  | expires (late : a.passed = true) (there : a.thread = .asleep) :
    Move a .expire { a with thread := .awake true } []
  | stirs (there : a.thread = .asleep) : Move a .stir { a with thread := .awake false } []
  | cancels (kept : a.owner = .keeping) :
    Move a .cancel { a with canceled := true, owner := .ringing } []
  | wakes (ringing : a.owner = .ringing) (there : a.thread = .asleep) :
    Move a .ring { a with thread := .awake false, owner := .joining } []
  | rings (ringing : a.owner = .ringing) (elsewhere : a.thread ≠ .asleep) :
    Move a .ring { a with owner := .joining } []
  | joins (joining : a.owner = .joining) (there : a.thread = .exited) :
    Move a .join { a with owner := .gone } [.released]

theorem check_move (there : a.thread = .starting ∨ a.thread = .awake false) :
    Move a .work a.check [] := by
  unfold check
  by_cases hc : a.canceled = true
  · rw [if_pos hc]
    exact .desists hc (there.imp_right fun h => ⟨false, h⟩)
  · rw [if_neg hc]
    exact .sleeps (by simpa using hc) there

theorem work_move (h : a.work = some (b, e)) : Move a .work b e := by
  unfold work at h
  split at h
  · rename_i there
    cases h
    exact check_move (.inl there)
  · rename_i there
    cases h
    exact check_move (.inr there)
  · rename_i there
    cases h
    by_cases hc : a.canceled = true
    · rw [if_pos hc]
      exact .desists hc (.inr ⟨true, there⟩)
    · rw [if_neg hc]
      exact .observes (by simpa using hc) there
  · rename_i there
    cases h
    exact .calls there
  · rename_i there
    cases h
    exact .finishes there
  · cases h
  · cases h

theorem step_move (h : step a x = some (b, e)) : Move a x b e := by
  cases x with
  | work => exact work_move h
  | pass =>
    cases h
    exact .passes
  | expire =>
    simp only [step] at h
    split at h
    · rename_i hc
      cases h
      exact .expires hc.1 hc.2
    · cases h
  | stir =>
    simp only [step] at h
    split at h
    · rename_i there
      cases h
      exact .stirs there
    · cases h
  | cancel =>
    simp only [step] at h
    split at h
    · rename_i kept
      cases h
      exact .cancels kept
    · cases h
  | ring =>
    simp only [step] at h
    split at h
    · rename_i ringing
      cases h
      by_cases there : a.thread = .asleep
      · rw [if_pos there]
        exact .wakes ringing there
      · rw [if_neg there]
        exact .rings ringing there
    · cases h
  | join =>
    simp only [step] at h
    split at h
    · rename_i hc
      cases h
      exact .joins hc.1 hc.2
    · cases h

/-- What every move keeps, a run keeps. -/
theorem run_moves {P : Alarm → List Action → List Entry → Prop} (hstart : P a [] [])
    (hmove : ∀ acts u e x w e', run a acts = some (u, e) → P u acts e → Move u x w e' →
      P w (acts ++ [x]) (e ++ e'))
    (h : run a acts = some (b, e)) : P b acts e :=
  Machine.run_invariant hstart
    (fun acts u e x w e' hu hsofar hstep => hmove acts u e x w e' hu hsofar (step_move hstep)) h

/-- How often the thread may still call back. -/
def Thread.credit : Thread → Nat
  | .starting | .asleep | .awake _ | .due => 1
  | .calling | .exited => 0

/-- How many calls are not finished. -/
def Thread.inside : Thread → Nat
  | .calling => 1
  | _ => 0

theorem move_calls (hm : Move a x b e) :
    e.count .called + b.thread.credit ≤ a.thread.credit ∧
      a.thread.inside + e.count .called = b.thread.inside + e.count .finished := by
  cases hm with
  | sleeps _ there =>
    rcases there with there | there <;> simp [there, Thread.credit, Thread.inside]
  | desists _ there =>
    rcases there with there | ⟨expired, there⟩ <;> simp [there, Thread.credit, Thread.inside]
  | observes _ there | expires _ there | stirs there | wakes _ there =>
    simp [there, Thread.credit, Thread.inside]
  | calls there | finishes there => simp [there, Thread.credit, Thread.inside]
  | passes | cancels | rings | joins => simp

theorem run_calls (h : run a acts = some (b, e)) :
    e.count .called + b.thread.credit ≤ a.thread.credit ∧
      a.thread.inside + e.count .called = b.thread.inside + e.count .finished := by
  refine run_moves (P := fun b _ e => e.count .called + b.thread.credit ≤ a.thread.credit ∧
    a.thread.inside + e.count .called = b.thread.inside + e.count .finished) (by simp) ?_ h
  intro acts u e x w e' _ hsofar hm
  have hlast := move_calls hm
  simp only [List.count_append]
  omega

/-- Where the thread is after its deadline. -/
def Thread.isLate : Thread → Bool
  | .awake true | .due => true
  | _ => false

/-- A thread is late only when the deadline has passed. -/
theorem run_late (h : run armed acts = some (b, e)) :
    (b.thread.isLate = true → b.passed = true) ∧ (b.passed = true → .pass ∈ acts) := by
  refine run_moves (P := fun b acts _ =>
    (b.thread.isLate = true → b.passed = true) ∧ (b.passed = true → .pass ∈ acts)) ?_ ?_ h
  · simp [armed, Thread.isLate]
  · intro acts u e x w e' _ hsofar hm
    obtain ⟨hlate, hpassed⟩ := hsofar
    cases hm with
    | passes => exact ⟨fun _ => rfl, fun _ => by simp⟩
    | expires late there => exact ⟨fun _ => late, fun _ => by simp [hpassed late]⟩
    | observes _ there =>
      have hu : u.passed = true := hlate (by simp [there, Thread.isLate])
      exact ⟨fun _ => hu, fun _ => by simp [hpassed hu]⟩
    | sleeps | desists | calls | finishes | stirs | wakes =>
      exact ⟨by simp [Thread.isLate], fun hp => by simp [hpassed hp]⟩
    | cancels | rings | joins => exact ⟨hlate, fun hp => by simp [hpassed hp]⟩

/-- The thread was woken by the deadline and has then had the lock, to look whether it is canceled. -/
def Observed (acts : List Action) : Prop :=
  ∃ before after a e, acts = before ++ .work :: after ∧ run armed before = some (a, e) ∧
    a.thread = .awake true

theorem not_observed_nil : ¬ Observed [] := by
  rintro ⟨before, after, -, -, hacts, -⟩
  exact absurd hacts (by simp)

theorem observed_append (h : run armed acts = some (a, e)) :
    Observed (acts ++ [x]) ↔ Observed acts ∨ x = .work ∧ a.thread = .awake true := by
  constructor
  · rintro ⟨before, after, u, ue, hacts, hu, hlook⟩
    rcases Machine.concat_eq_split.mp hacts with ⟨rfl, rfl, rfl⟩ | ⟨rest, -, rfl⟩
    · cases h.symm.trans hu
      exact .inr ⟨rfl, hlook⟩
    · exact .inl ⟨before, rest, u, ue, rfl, hu, hlook⟩
  · rintro (⟨before, after, u, ue, rfl, hu⟩ | ⟨rfl, hlook⟩)
    · exact ⟨before, after ++ [x], u, ue, by simp, hu⟩
    · exact ⟨acts, [], a, e, rfl, h, hlook⟩

/-- The alarm has called back, or is about to whatever happens. -/
def Bound (a : Alarm) (e : List Entry) : Prop := a.thread = .due ∨ .called ∈ e

/-- As long as nobody cancels, an alarm whose thread has looked is bound. -/
theorem run_observed (h : run armed acts = some (b, e)) :
    b.canceled = false → (Observed acts ↔ Bound b e) := by
  refine run_moves (P := fun b acts e => b.canceled = false → (Observed acts ↔ Bound b e)) ?_ ?_ h
  · intro _
    simp [not_observed_nil, Bound, armed]
  · intro acts u e x w e' hu hsofar hm hopen
    have hopen_u : u.canceled = false := by cases hm <;> simp_all
    rw [observed_append hu, hsofar hopen_u]
    cases hm with
    | observes _ there => simp [Bound, there]
    | calls there => simp [Bound, there]
    | sleeps _ there => rcases there with there | there <;> simp [Bound, there]
    | finishes there | expires _ there | stirs there | wakes _ there => simp [Bound, there]
    | passes | rings | joins => simp [Bound]
    | cancels => cases hopen
    | desists canceled => cases hopen_u.symm.trans canceled

/-- A cancel changes nothing for an alarm that is bound, and keeps any other from being bound. -/
theorem run_canceled (hc : a.canceled = true) (earlier : List Entry)
    (h : run a acts = some (b, e)) : Bound b (earlier ++ e) ↔ Bound a earlier := by
  have hrun : b.canceled = true ∧ (Bound b (earlier ++ e) ↔ Bound a earlier) := by
    refine run_moves (P := fun b _ e =>
      b.canceled = true ∧ (Bound b (earlier ++ e) ↔ Bound a earlier)) ⟨hc, by simp⟩ ?_ h
    intro acts u e x w e' _ hsofar hm
    obtain ⟨hu, hbound⟩ := hsofar
    refine ⟨by cases hm <;> simp_all, ?_⟩
    rw [← hbound, ← List.append_assoc]
    cases hm with
    | sleeps open_ | observes open_ => cases hu.symm.trans open_
    | calls there => simp [Bound, there]
    | desists _ there => rcases there with there | ⟨expired, there⟩ <;> simp [Bound, there]
    | finishes there | expires _ there | stirs there | wakes _ there => simp [Bound, there]
    | passes | cancels | rings | joins => simp [Bound]
  exact hrun.2

/-- An owner that still keeps the alarm has not canceled it, and any other has. -/
theorem run_owned (h : run armed acts = some (b, e)) :
    (b.canceled = true ↔ b.owner ≠ .keeping) ∧ (b.canceled = true → .cancel ∈ acts) := by
  refine run_moves (P := fun b acts _ =>
    (b.canceled = true ↔ b.owner ≠ .keeping) ∧ (b.canceled = true → .cancel ∈ acts)) ?_ ?_ h
  · simp [armed]
  · intro acts u e x w e' _ hsofar hm
    obtain ⟨howned, hcancel⟩ := hsofar
    cases hm with
    | cancels => simp
    | wakes ringing | rings ringing | joins joining => simp_all
    | sleeps | observes | desists | calls | finishes | passes | expires | stirs =>
      exact ⟨howned, fun hc => List.mem_append_left _ (hcancel hc)⟩

/-- A thread that is through has called back or was canceled. -/
theorem run_exited (h : run armed acts = some (b, e)) :
    b.thread = .exited → .called ∈ e ∨ b.canceled = true := by
  refine run_moves (P := fun b _ e => b.thread = .exited → .called ∈ e ∨ b.canceled = true)
    (by simp [armed]) ?_ h
  intro acts u e x w e' hu hsofar hm hexited
  cases hm with
  | desists canceled => exact .inr canceled
  | finishes there =>
    have hbalance := (run_calls hu).2
    have hcalled : 0 < e.count .called := by
      simp only [there, Thread.inside, armed] at hbalance
      omega
    exact .inl (List.mem_append_left _ (List.count_pos_iff.mp hcalled))
  | cancels => exact .inr rfl
  | passes | rings | joins => simpa using hsofar hexited
  | sleeps | observes | calls | expires | stirs | wakes => cases hexited

/-- The owner is gone, and the thread as well. -/
def Rested (a : Alarm) : Prop := a.owner = .gone ∧ a.thread = .exited

theorem Rested.move (ha : Rested a) (hm : Move a x b e) : Rested b ∧ e = [] := by
  obtain ⟨hgone, hexited⟩ := ha
  cases hm with
  | passes => exact ⟨⟨hgone, hexited⟩, rfl⟩
  | _ => simp_all

theorem Rested.run (ha : Rested a) (h : run a acts = some (b, e)) : Rested b ∧ e = [] := by
  refine run_moves (P := fun b _ e => Rested b ∧ e = []) ⟨ha, rfl⟩ ?_ h
  intro acts u e x w e' _ hsofar hm
  obtain ⟨hu, rfl⟩ := hsofar
  exact hu.move hm

theorem released_rested (h : run armed acts = some (b, e)) (hr : .released ∈ e) : Rested b := by
  obtain ⟨first, x, rest, u, w, e₁, e₂, e₃, rfl, -, hx, hrest, rfl, hmem⟩ :=
    Machine.step_of_mem_run h hr
  cases step_move hx with
  | joins joining there =>
    have hrested : Rested { u with owner := .gone } := ⟨rfl, there⟩
    exact (hrested.run hrest).1
  | _ => simp at hmem

/-- Was canceled, and is not asleep. -/
def Rung (a : Alarm) : Prop := a.canceled = true ∧ a.thread ≠ .asleep

/-- Steps that a thread has left to make when it is canceled. -/
def Thread.stepsLeft : Thread → Nat
  | .starting | .awake _ | .calling => 1
  | .due => 2
  | .asleep | .exited => 0

theorem Rung.move (ha : Rung a) (hm : Move a x b e) :
    Rung b ∧ b.thread.stepsLeft + [x].count .work ≤ a.thread.stepsLeft := by
  obtain ⟨hcanceled, hawake⟩ := ha
  cases hm with
  | sleeps open_ | observes open_ => cases hcanceled.symm.trans open_
  | expires _ there | stirs there | wakes _ there => exact absurd there hawake
  | desists _ there =>
    refine ⟨⟨hcanceled, by simp⟩, ?_⟩
    rcases there with there | ⟨expired, there⟩ <;> simp [there, Thread.stepsLeft]
  | calls there | finishes there =>
    exact ⟨⟨hcanceled, by simp⟩, by simp [there, Thread.stepsLeft]⟩
  | passes | rings | joins => exact ⟨⟨hcanceled, hawake⟩, by simp⟩
  | cancels => exact ⟨⟨rfl, hawake⟩, by simp⟩

theorem Rung.run (ha : Rung a) (h : run a acts = some (b, e)) :
    Rung b ∧ b.thread.stepsLeft + acts.count .work ≤ a.thread.stepsLeft := by
  refine run_moves (P := fun b acts _ =>
    Rung b ∧ b.thread.stepsLeft + acts.count .work ≤ a.thread.stepsLeft) ⟨ha, by simp⟩ ?_ h
  intro acts u e x w e' _ hsofar hm
  obtain ⟨hu, hleft⟩ := hsofar
  obtain ⟨hw, hlast⟩ := hu.move hm
  refine ⟨hw, ?_⟩
  rw [List.count_append]
  omega

/-- An owner that has rung has woken the thread, or it was awake. -/
theorem run_rung (h : run armed acts = some (b, e)) : b.owner = .joining → Rung b := by
  refine run_moves (P := fun b _ _ => b.owner = .joining → Rung b) (by simp [armed]) ?_ h
  intro acts u e x w e' hu hsofar hm hjoining
  have hcanceled : u.owner = .ringing → u.canceled = true :=
    fun hringing => (run_owned hu).1.mpr (by simp [hringing])
  have hmoved := hm
  cases hm with
  | cancels | joins => cases hjoining
  | wakes ringing => exact ⟨hcanceled ringing, by simp⟩
  | rings ringing elsewhere => exact ⟨hcanceled ringing, elsewhere⟩
  | sleeps | observes | desists | calls | finishes | passes | expires | stirs =>
    exact ((hsofar hjoining).move hmoved).1

theorem Rung.goesOn (ha : Rung a) (hjoining : a.owner = .joining) :
    (step a .work).isSome ∨ (step a .join).isSome := by
  obtain ⟨-, hawake⟩ := ha
  cases ht : a.thread with
  | asleep => exact absurd ht hawake
  | exited => exact .inr (by simp [step, hjoining, ht])
  | starting | due | calling => exact .inl (by simp [step, work, ht])
  | awake expired => cases expired <;> exact .inl (by simp [step, work, ht])

/-- What an alarm keeps to that has come this far. -/
structure OneShot (acts : List Action) (a : Alarm) (e : List Entry) : Prop where
  once : e.count .called ≤ 1
  notEarly : ∀ before x after u w e₁ e₂, acts = before ++ x :: after →
    run armed before = some (u, e₁) → step u x = some (w, e₂) → .called ∈ e₂ → .pass ∈ before
  /-- A cancel is in time until the thread, woken by the deadline, has had the lock. -/
  canceled : ∀ before after, acts = before ++ .cancel :: after → ¬ Observed before → .called ∉ e
  /-- Nothing but such a cancel lets the thread come to its end without having called back. -/
  kept : a.thread = .exited → .called ∉ e →
    ∃ before after, acts = before ++ .cancel :: after ∧ ¬ Observed before
  /-- When the owner is rid of it, the thread is through with the call, and nothing follows. -/
  released : .released ∈ e → a.thread = .exited ∧ e.count .finished = e.count .called ∧
    ∀ more b e', run a more = some (b, e') → e' = []
  /-- The owner need only wait for the thread, which has at most a call to make. -/
  comesBack : a.owner = .joining → ((step a .work).isSome ∨ (step a .join).isSome) ∧
    ∀ more b e', run a more = some (b, e') → more.count .work ≤ 2

/-- Where an alarm was canceled, it is bound if its thread had looked before. -/
theorem bound_iff (h : run armed (before ++ .cancel :: after) = some (a, e)) :
    Bound a e ↔ Observed before := by
  obtain ⟨u, e₁, e₂, hbefore, hrest, rfl⟩ := Machine.run_append.mp h
  obtain ⟨w, f₁, f₂, hcancel, hafter, rfl⟩ := Machine.run_cons.mp hrest
  cases step_move hcancel with
  | cancels kept =>
    have hopen : u.canceled = false := by
      rw [← Bool.not_eq_true, (run_owned hbefore).1]
      exact not_not_intro kept
    have hbound := run_canceled (a := { u with canceled := true, owner := .ringing }) rfl e₁ hafter
    rw [List.nil_append, hbound, run_observed hbefore hopen]
    rfl

theorem not_early {x : Action} (hu : run armed before = some (u, e)) (hx : step u x = some (w, e'))
    (hcalled : .called ∈ e') : .pass ∈ before := by
  obtain ⟨hlate, hpassed⟩ := run_late hu
  cases step_move hx with
  | calls there => exact hpassed (hlate (by simp [there, Thread.isLate]))
  | _ => simp at hcalled

/-- However the steps of the thread and of the owner and the deadline fall, an alarm calls back once,
late enough, and unless it was canceled in time. -/
theorem alarm_calls_back_once_unless_canceled_in_time (h : run armed acts = some (a, e)) :
    OneShot acts a e := by
  obtain ⟨honce, hbalance⟩ := run_calls h
  have hzero : armed.thread.inside = 0 := rfl
  have hone : armed.thread.credit = 1 := rfl
  refine ⟨by omega, ?_, ?_, ?_, ?_, ?_⟩
  · intro before x after u w e₁ e₂ _ hu hx hcalled
    exact not_early hu hx hcalled
  · rintro before after rfl hunseen hcalled
    exact hunseen ((bound_iff h).mp (.inr hcalled))
  · intro hexited hsilent
    have hcanceled : a.canceled = true := (run_exited h hexited).resolve_left hsilent
    obtain ⟨before, after, rfl⟩ := List.append_of_mem ((run_owned h).2 hcanceled)
    refine ⟨before, after, rfl, ?_⟩
    intro hobserved
    rcases (bound_iff h).mpr hobserved with hdue | hcalled
    · cases hexited.symm.trans hdue
    · exact hsilent hcalled
  · intro hreleased
    have hrested := released_rested h hreleased
    have hinside : a.thread.inside = 0 := by rw [hrested.2]; rfl
    exact ⟨hrested.2, by omega, fun more b e' hmore => (hrested.run hmore).2⟩
  · intro hjoining
    have hrung := run_rung h hjoining
    refine ⟨hrung.goesOn hjoining, ?_⟩
    intro more b e' hmore
    have hleft := (hrung.run hmore).2
    have hfew : a.thread.stepsLeft ≤ 2 := by
      unfold Thread.stepsLeft
      split <;> omega
    omega

/-- The thread wakes for the deadline, and the owner cancels before it has the lock. It does not call
back, though the deadline has passed. -/
theorem cancel_between_deadline_and_look :
    let before : List Action := [.work, .pass, .expire]
    let after : List Action := [.ring, .work, .join]
    ∃ a e, run armed (before ++ .cancel :: after) = some (a, e) ∧ .pass ∈ before ∧
      .called ∉ e ∧ .released ∈ e ∧ ∀ more b e', run a more = some (b, e') → e' = [] := by
  intro before after
  have hrun : run armed (before ++ .cancel :: after) =
      some (⟨true, true, .exited, .gone⟩, [.released]) := rfl
  have hshot := alarm_calls_back_once_unless_canceled_in_time hrun
  have hunseen : ¬ Observed before := by
    have hbefore : run armed before = some (⟨false, true, .awake true, .keeping⟩, []) := rfl
    rw [run_observed hbefore rfl]
    simp [Bound]
  exact ⟨_, _, hrun, by decide, hshot.canceled before after rfl hunseen, by decide,
    (hshot.released (by decide)).2.2⟩

-- The owner cancels after the thread has looked, and waits until it has called back.
example : run armed [.work, .pass, .expire, .work, .cancel, .ring, .work, .work, .join] =
    some (⟨true, true, .exited, .gone⟩, [.called, .finished, .released]) := rfl

end Corun.Sync.Alarm
