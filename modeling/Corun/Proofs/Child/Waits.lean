import Corun.Proofs.Child.Reaping
import Corun.Proofs.Child.Yielding

namespace Corun.Child

/-- Where a call that has found the child released or killed comes to from a stage. -/
def Stage.NextWait : Stage → Stage → Prop
  | past, s => s = past ∨ s = observing ∨ s = reaping
  | observing, s => s = observing ∨ s = reaping
  | reaping, s => s = reaping
  | _, _ => False

theorem Stage.NextWait.trans {s s' s'' : Stage} (h : s.NextWait s') (h' : s'.NextWait s'') :
    s.NextWait s'' := by
  cases s <;> cases s' <;> simp_all [NextWait]

/-- The stages from which a call may get to reap. -/
theorem Stage.NextWait.cases {s : Stage} (h : s.NextWait .reaping) :
    s = .past ∨ s = .observing ∨ s = .reaping := by
  cases s <;> simp_all [NextWait]

namespace Gated
open Os Sync

variable {g g' : Gated} {t u : Nat} {c : Call} {s s' : Stage} {r : Result Answer} {a : Action}
  {status : WaitStatus} {e seen : List Entry} {acts : List Action} {path : String}
  {operands : List String} {mode : KillMode}

/-- What a call comes back with that was at a stage of waiting. -/
inductive WaitResult (g : Gated) (s : Stage) : Result Answer → Prop where
  | told (x : Termination) (known : g.termination? = some x) : WaitResult g s (.ok (.ended x))
  /-- Another thread had reaped the child before the system was asked. -/
  | late (pid : Pid) (unasked : s.NextWait .observing) (ended : g.phase = .terminated) :
    WaitResult g s (Result.fail (.waitFailed pid .noChild))
  /-- Another thread had reaped the child before the second look at the record. -/
  | overtaken (unlooked : s.NextWait .past) (ended : g.phase = .terminated) :
    WaitResult g s (Result.fail (.invalidState "wait for" .terminated))
  /-- The child died of a signal that has no name. -/
  | nameless (pid : Pid) (status : WaitStatus) (unasked : s.NextWait .observing)
      (ended : g.life = .zombie status) (untold : Termination.ofStatus? status = none) :
    WaitResult g s (Result.fail (.waitFailed pid .invalidArgument))

theorem WaitResult.earlier (hm : WaitResult g s' r) (h : s.NextWait s') : WaitResult g s r := by
  cases hm with
  | told x known => exact .told x known
  | late pid unasked ended => exact .late pid (h.trans unasked) ended
  | overtaken unlooked ended => exact .overtaken (h.trans unlooked) ended
  | nameless pid status unasked ended untold => exact .nameless pid status (h.trans unasked) ended untold

/-- A call that was at a stage of waiting is still inside, or has come back as it may. -/
def WaitOutcome (t : Nat) (c : Call) (s : Stage) (g : Gated) (seen : List Entry) : Prop :=
  (returned? t seen = none ∧ ∃ s', g.pending? t = some ⟨c, s'⟩ ∧ s.NextWait s' ∧
    s'.NextWait .reaping) ∨
    ∃ r, returned? t seen = some r ∧ WaitResult g s r

theorem Change.stays_terminated (hs : Shared g) (h : Change g a g' e) (hp : g.phase = .terminated) :
    g'.phase = .terminated := by
  rcases h.phase_moves hs with hsame | hnext
  · exact hsame.trans hp
  · rw [hp] at hnext
    exact hnext.elim

/-- Nobody reaps a child whose end cannot be told. -/
theorem Change.stays_untold (hs : Shared g) (h : Change g a g' e) (ha : a ≠ .seize)
    (hended : g.life = .zombie status) (huntold : Termination.ofStatus? status = none) :
    g'.life = .zombie status := by
  cases h with
  | stages | answers | starts | endsStart | kills | rings => exact hended
  | creates t pid idle free unborn => simp [hs.absent.mpr unborn] at hended
  | signals t life sent r inside hit =>
    rcases hit with rfl | ⟨hlive, -⟩
    · exact hended
    · simp [hended, Life.isLive] at hlive
  | reaps t c status' x inside free ended known =>
    cases ended.symm.trans hended
    rw [huntold] at known
    cases known
  | lives life gateBytes reportBytes hasFollowers e next =>
    rcases next with rfl | ⟨hlive, -⟩
    · exact hended
    · simp [hended, Life.isLive] at hlive
  | seizes status behind => exact absurd behind ha

theorem WaitResult.later (hm : WaitResult g s r) (hs : Shared g) (h : Change g a g' e)
    (ha : a ≠ .seize) :
    WaitResult g' s r := by
  cases hm with
  | told x known => exact .told x (h.keeps_termination hs known)
  | late pid unasked ended => exact .late pid unasked (h.stays_terminated hs ended)
  | overtaken unlooked ended => exact .overtaken unlooked (h.stays_terminated hs ended)
  | nameless pid status unasked ended untold =>
    exact .nameless pid status unasked (h.stays_untold hs ha ended untold) untold

theorem Unseized.terminated (hs : Unseized g) (hreaped : g.life = .reaped status) :
    g.phase = .terminated := by
  by_contra hunended
  have hnone := hs hunended
  rw [hreaped] at hnone
  cases hnone

/-- What a waiting call is answered. -/
theorem Answers.waitResult (hu : Unseized g) (h : Answers g t c r) {p : Pending}
    (hin : g.pending? t = some p) (hw : p.stage.NextWait .reaping) : WaitResult g p.stage r := by
  cases h with
  | refuses c verb here =>
    rcases here with hidle | hchecking
    · cases hidle.symm.trans hin
    · cases hchecking.symm.trans hin
      exact hw.elim
  | cannotFork f idle | spares idle | names pid idle => cases idle.symm.trans hin
  | tells c x here ended known => exact .told x known
  | overtaken inside ended =>
    cases inside.symm.trans hin
    rw [ended]
    exact .overtaken (.inl rfl) ended
  | isLate c pid status inside reaped =>
    cases inside.symm.trans hin
    exact .late pid (.inl rfl) (hu.terminated reaped)
  | cannotTell c pid status inside ended unnamed =>
    cases inside.symm.trans hin
    exact .nameless pid status (.inl rfl) ended unnamed
  | isRobbed c pid status inside reaped unrecorded => exact absurd (hu.terminated reaped) unrecorded

/-- How a waiting call goes on. -/
theorem StageStep.onward {c' : Call} (h : StageStep g t c' s') (hin : g.pending? t = some ⟨c, s⟩)
    (hw : s.NextWait .reaping) : c' = c ∧ s.NextWait s' ∧ s'.NextWait .reaping := by
  cases h with
  | awaits idle | waits idle => cases idle.symm.trans hin
  | notifies _ _ inside | releases inside | closes inside | reads _ _ inside | holdsBack inside
  | passes inside | finds inside | sleeps inside | slips inside | wakes inside =>
    cases inside.symm.trans hin
    exact hw.elim
  | observes _ status x inside =>
    cases inside.symm.trans hin
    exact ⟨rfl, .inr rfl, rfl⟩
  | looks inside =>
    cases inside.symm.trans hin
    exact ⟨rfl, .inr (.inl rfl), .inr rfl⟩

/-- Whoever waits for the end of the child is not the thread that begins a call or that goes on with
another. -/
theorem Shared.waiter_apart {u : Nat} (hs : Shared g) (hin : g.pending? t = some ⟨c, s⟩)
    (hw : s.NextWait .reaping)
    (hu : g.pending? u = none ∨ (∃ s', g.pending? u = some ⟨.start, s'⟩) ∨
      g.pending? u = some ⟨.kill, .signaling⟩) : t ≠ u := by
  intro htu
  subst htu
  rcases hu with hidle | ⟨s', hstart⟩ | hsignaling
  · cases hidle.symm.trans hin
  · cases hstart.symm.trans hin
    have hcall := (hs.inside t _ hin).call
    rcases hw.cases with rfl | rfl | rfl <;> simp [Stage.Of] at hcall
  · cases hsignaling.symm.trans hin
    exact hw.elim

theorem Change.waiting (hs : Shared g) (hu : Unseized g) (h : Change g a g' e) (ha : a ≠ .seize)
    (hin : g.pending? t = some ⟨c, s⟩) (hw : s.NextWait .reaping) : WaitOutcome t c s g' e := by
  have hself : s.NextWait s := by rcases hw.cases with rfl | rfl | rfl <;> simp [Stage.NextWait]
  have hsame : g'.pending? t = g.pending? t → returned? t e = none → WaitOutcome t c s g' e :=
    fun hsame hsilent => .inl ⟨hsilent, s, hsame.trans hin, hself, hw⟩
  have hchange := h
  cases h with
  | stages u c' s' latch gateOpen gateBytes reportBytes e leads once sleepers shown =>
    have hsilent : returned? t e = none := by rcases shown with rfl | rfl <;> rfl
    by_cases hut : t = u
    · subst hut
      obtain ⟨rfl, honward, hw'⟩ := leads.onward hin hw
      exact .inl ⟨hsilent, s', by rw [pending?_place, if_pos rfl], honward, hw'⟩
    · apply hsame _ hsilent
      rw [pending?_place, if_neg hut]
      rfl
  | answers u c' r gives =>
    by_cases hut : t = u
    · subst hut
      have hmet := gives.waitResult hu hin hw
      exact .inr ⟨r, by simp, hmet.later hs hchange ha⟩
    · apply hsame
      · rw [pending?_back, if_neg hut]
      · rw [returned?_returned, if_neg (Ne.symm hut)]
  | creates u pid idle =>
    have hut := hs.waiter_apart hin hw (.inl idle)
    apply hsame
    · rw [pending?_back, if_neg hut]
      rfl
    · rw [returned?_returned, if_neg (Ne.symm hut)]
  | starts u idle | kills u idle =>
    apply hsame _ rfl
    rw [pending?_place, if_neg (hs.waiter_apart hin hw (.inl idle))]
    rfl
  | endsStart u r reportBytes inside =>
    have hut := hs.waiter_apart hin hw (.inr (.inl inside))
    apply hsame
    · rw [pending?_endStart, if_neg hut]
      rfl
    · rw [returned?_returned, if_neg (Ne.symm hut)]
  | signals u life sent r inside =>
    have hut := hs.waiter_apart hin hw (.inr (.inr inside))
    apply hsame
    · rw [pending?_back, if_neg hut]
      rfl
    · rw [returned?_cons, returned?_returned, if_neg (Ne.symm hut)]
      rfl
  | reaps u c' status x inside =>
    by_cases hut : t = u
    · subst hut
      exact .inr ⟨.ok (.ended x), by simp [returned?_cons, Entry.returned?], .told x rfl⟩
    · apply hsame
      · rw [pending?_back, if_neg hut]
        rfl
      · rw [returned?_cons, returned?_returned, if_neg (Ne.symm hut)]
        rfl
  | lives life gateBytes reportBytes hasFollowers e next shown =>
    apply hsame rfl
    apply List.findSome?_eq_none_iff.mpr
    intro x hx
    obtain ⟨refusal, rfl⟩ := shown x hx
    rfl
  | rings => exact hsame rfl rfl
  | seizes status behind => exact absurd behind ha

theorem WaitOutcome.change (hf : WaitOutcome t c s g seen) (hs : Shared g) (hu : Unseized g)
    (h : Change g a g' e)
    (ha : a ≠ .seize) : WaitOutcome t c s g' (seen ++ e) := by
  unfold WaitOutcome
  rw [returned?_append]
  rcases hf with ⟨hsilent, s', hin, honward, hw⟩ | ⟨r, hr, hmet⟩
  · rw [hsilent]
    rcases h.waiting hs hu ha hin hw with ⟨hsame, s'', hin', honward', hw'⟩ | ⟨r, hr, hmet⟩
    · exact .inl ⟨hsame, s'', hin', honward.trans honward', hw'⟩
    · exact .inr ⟨r, hr, hmet.earlier honward⟩
  · rw [hr]
    exact .inr ⟨r, rfl, hmet.later hs h ha⟩

/-- What a waiting call comes to in a run that goes on from where it waits. -/
theorem Unseized.run (hs : Shared g) (hu : Unseized g) (hr : run g acts = some (g', e))
    (hacts : ∀ a ∈ acts, a ≠ .seize) : Shared g' ∧ Unseized g' ∧
      ∀ t c s, g.pending? t = some ⟨c, s⟩ → s.NextWait .reaping → WaitOutcome t c s g' e := by
  have hinv := run_changes (P := fun v acts seen => (∀ a ∈ acts, a ≠ .seize) → Unseized v ∧
    ∀ t c s, g.pending? t = some ⟨c, s⟩ → s.NextWait .reaping → WaitOutcome t c s v seen)
    hs ?_ ?_ hr
  · exact ⟨hinv.1, hinv.2 hacts⟩
  · intro _
    refine ⟨hu, ?_⟩
    intro t c s hin hw
    have hself : s.NextWait s := by rcases hw.cases with rfl | rfl | rfl <;> simp [Stage.NextWait]
    exact .inl ⟨rfl, s, hin, hself, hw⟩
  · intro acts v e a w e' hv hp hc hacts
    obtain ⟨hunseized, hfate⟩ := hp fun b hb => hacts b (List.mem_append_left _ hb)
    have ha := hacts a (List.mem_append_right _ List.mem_cons_self)
    refine ⟨hunseized.change hc ha, ?_⟩
    intro t c s hin hw
    exact (hfate t c s hin hw).change hv hunseized hc ha

/-- Whoever has found the child ended reaps it, or finds it reaped, once the lock is free. -/
theorem Shared.reap_returns (hs : Shared g) (hu : Unseized g)
    (hin : g.pending? t = some ⟨c, .reaping⟩) (hfree : g.holder = none) :
    ∃ g' e x, g.step (.advance t) = some (g', e) ∧ returned? t e = some (.ok (.ended x)) ∧
      g'.termination? = some x := by
  have hstep : g.step (.advance t) = Gated.reap t c g := by
    simp [step, advance, hin, hfree]
  by_cases hended : g.phase = .terminated
  · obtain ⟨x, hx⟩ := hs.told.mpr hended
    have hreap : Gated.reap t c g = some (g.back t c (.ok (.ended x))) := by
      simp [Gated.reap, hended, hx]
    exact ⟨_, _, x, hstep.trans hreap, by simp, hx⟩
  · obtain ⟨status, x, hlife | hlife, hx⟩ := hs.reaping t c hin
    · obtain ⟨pid, hpid⟩ := hs.pid (hs.begun (by simp [hlife]))
      have hreap : Gated.reap t c g = some ((Gated.back t c (.ok (.ended x))
          { g with life := .reaped status, termination? := some x, phase := .terminated }).1,
          [.reaped status, .returned t c (.ok (.ended x))]) := by
        simp [Gated.reap, hended, hlife, hpid, hx, Gated.back]
      exact ⟨_, _, x, hstep.trans hreap, by simp [returned?_cons, Entry.returned?], rfl⟩
    · exact absurd (hu.terminated hlife) hended

/-- Others may hold the lock meanwhile, but not for ever: the child has ended. -/
theorem Shared.returns (hs : Shared g) (hu : Unseized g) (hin : g.pending? t = some ⟨c, .reaping⟩) :
    ∃ acts g' e x, run g acts = some (g', e) ∧ (∀ a ∈ acts, a ≠ .seize) ∧
      returned? t e = some (.ok (.ended x)) ∧ g'.termination? = some x := by
  have hunheld : g.holder ≠ some t := by
    apply hs.unheld
    intro p hp
    cases hin.symm.trans hp
    exact (hs.inside t _ hin).holds
  have hdead : g.life.isLive = false := by
    obtain ⟨status, x, hlife | hlife, -⟩ := hs.reaping t c hin <;> rw [hlife] <;> rfl
  obtain ⟨acts, g₁, e₁, hrun, hacts, hfree, -, hothers⟩ := hs.lock_freed hdead
  obtain ⟨hsame, hsilent⟩ := hothers t hunheld
  obtain ⟨hs₁, hu₁, -⟩ := hu.run hs hrun hacts
  obtain ⟨g₂, e₂, x, hstep, hreturned, hx⟩ := hs₁.reap_returns hu₁ (hsame.trans hin) hfree
  refine ⟨acts ++ [.advance t], g₂, e₁ ++ e₂, x, ?_, ?_, ?_, hx⟩
  · have hlast : run g₁ [.advance t] = some (g₂, e₂) :=
      Machine.run_cons.mpr ⟨g₂, e₂, [], hstep, rfl, (List.append_nil e₂).symm⟩
    exact Machine.run_append.mpr ⟨g₁, e₁, e₂, hrun, hlast, rfl⟩
  · intro a ha
    rcases List.mem_append.mp ha with hbefore | hlast
    · exact hacts a hbefore
    · cases List.mem_singleton.mp hlast
      simp
  · rw [returned?_append, hsilent, hreturned]
    rfl

/-- The system tells that a child has ended as long as it is not reaped. -/
theorem observing_asks (hin : g.pending? t = some ⟨c, .observing⟩) (hended : g.life = .zombie status)
    {x : Termination} (hx : Termination.ofStatus? status = some x) :
    g.step (.advance t) = some (g.place t c .reaping, []) := by
  have hstep : g.step (.advance t) = g.observe t c := by simp [step, advance, hin]
  rw [hstep]
  simp [observe, hended, hx]

/-- And not any longer. -/
theorem Shared.observing_late (hs : Shared g) (hin : g.pending? t = some ⟨c, .observing⟩)
    (hended : g.phase = .terminated) : ∃ pid, g.step (.advance t) =
      some (g.back t c (Result.fail (.waitFailed pid .noChild))) := by
  obtain ⟨status, hreaped, -⟩ := hs.reaped hended
  obtain ⟨pid, hpid⟩ := hs.pid (by simp [hended])
  have hstep : g.step (.advance t) = g.observe t c := by simp [step, advance, hin]
  refine ⟨pid, hstep.trans ?_⟩
  simp [observe, hreaped, hpid]

/-- Nor does it tell of an end for which there is no name. -/
theorem Shared.observing_nameless (hs : Shared g) (hin : g.pending? t = some ⟨c, .observing⟩)
    (hended : g.life = .zombie status) (huntold : Termination.ofStatus? status = none) :
    ∃ pid, g.step (.advance t) =
      some (g.back t c (Result.fail (.waitFailed pid .invalidArgument))) := by
  obtain ⟨pid, hpid⟩ := hs.pid (hs.begun (by simp [hended]))
  have hstep : g.step (.advance t) = g.observe t c := by simp [step, advance, hin]
  refine ⟨pid, hstep.trans ?_⟩
  simp [observe, hended, huntold, hpid]

/-- Whoever has awaited the release looks at the record once more, and need not find what it found. -/
theorem Shared.past_overtaken (hs : Shared g) (hin : g.pending? t = some ⟨.await, .past⟩)
    (hfree : g.holder = none) (hended : g.phase = .terminated) : g.step (.advance t) =
      some (g.back t .await (Result.fail (.invalidState "wait for" .terminated))) := by
  have hstep : g.step (.advance t) = some (g.wait t .await) := by simp [step, advance, hin, hfree]
  rw [hstep]
  rcases wait_cases hs t .await with ⟨hdue, -⟩ | ⟨-, hinvalid⟩
  · rcases hdue with hp | hp <;> cases hp.symm.trans hended
  · rw [hinvalid, invalid, hended]

/-- What is known of the threads that wait for a child. -/
structure Waited (g : Gated) (seen : List Entry) : Prop where
  /-- Whoever is told how the child ended is told what the record says. -/
  same : ∀ t c x, .returned t c (.ok (.ended x)) ∈ seen → g.termination? = some x
  /-- It is one of them that reaps the child. -/
  reaper : g.phase = .terminated → ∃ t c x, (c = .wait ∨ c = .await) ∧
    .returned t c (.ok (.ended x)) ∈ seen
  /-- They stay inside whatever comes next, or come back in one of a few ways. -/
  fate : ∀ t c s acts g' e, g.pending? t = some ⟨c, s⟩ → s.NextWait .reaping →
    run g acts = some (g', e) → (∀ a ∈ acts, a ≠ .seize) → WaitOutcome t c s g' e
  /-- Whoever asks the system in time is about to reap the child. -/
  asks : ∀ t c status x, g.pending? t = some ⟨c, .observing⟩ → g.life = .zombie status →
    Termination.ofStatus? status = some x → g.step (.advance t) = some (g.place t c .reaping, [])
  /-- Whoever is about to reap it can come back with how it ended. -/
  returns : ∀ t c, g.pending? t = some ⟨c, .reaping⟩ → ∃ acts g' e x, run g acts = some (g', e) ∧
    (∀ a ∈ acts, a ≠ .seize) ∧ returned? t e = some (.ok (.ended x)) ∧ g'.termination? = some x
  /-- Whoever asks after another has reaped it fails, -/
  late : ∀ t c, g.pending? t = some ⟨c, .observing⟩ → g.phase = .terminated →
    ∃ pid, g.step (.advance t) = some (g.back t c (Result.fail (.waitFailed pid .noChild)))
  /-- as does whoever looks at the record once more after that, -/
  overtaken : ∀ t, g.pending? t = some ⟨.await, .past⟩ → g.holder = none → g.phase = .terminated →
    g.step (.advance t) =
      some (g.back t .await (Result.fail (.invalidState "wait for" .terminated)))
  /-- and whoever asks about an end that has no name. -/
  nameless : ∀ t c status, g.pending? t = some ⟨c, .observing⟩ → g.life = .zombie status →
    Termination.ofStatus? status = none →
    ∃ pid, g.step (.advance t) = some (g.back t c (Result.fail (.waitFailed pid .invalidArgument)))

/-- However many threads wait for the child, and in whatever order they do so. -/
theorem waits_agree_unless_late (hr : run (ofCommand path operands mode) acts = some (g, e))
    (hacts : ∀ a ∈ acts, a ≠ .seize) : Waited g e := by
  obtain ⟨hs, hw⟩ := run_watched hr hacts
  have ha := run_answered hr
  refine ⟨?_, ?_, ?_, ?_, ?_, ?_, ?_, ?_⟩
  · intro t c x hx
    exact ha.answerAgrees t c _ hx
  · intro hended
    obtain ⟨x, hx⟩ := hs.told.mpr hended
    obtain ⟨t, c, hwaits, ht⟩ := ha.waited x hx
    exact ⟨t, c, x, hwaits, ht⟩
  · intro t c s more g' e' hin hwaiting hmore hnobody
    obtain ⟨-, -, hfate⟩ := hw.unseized.run hs hmore hnobody
    exact hfate t c s hin hwaiting
  · intro t c status x hin hended hx
    exact observing_asks hin hended hx
  · intro t c hin
    exact hs.returns hw.unseized hin
  · intro t c hin hended
    exact hs.observing_late hin hended
  · intro t hin hfree hended
    exact hs.past_overtaken hin hfree hended
  · intro t c status hin hended huntold
    exact hs.observing_nameless hin hended huntold

/-- Two threads wait for a child that is killed, one of which has been told by the system already. -/
theorem waits_agree_unless_late_of_two :
    let acts : List Action := [.call 0 (.create (.ok 7)), .call 0 .kill, .advance 0, .advance 0,
      .call 0 .wait, .call 1 .wait, .advance 0]
    ∃ g e, run (ofCommand "/bin/true" [] .single) acts = some (g, e) ∧ (∀ a ∈ acts, a ≠ .seize) ∧
      g.pending? 0 = some ⟨.wait, .reaping⟩ ∧ g.pending? 1 = some ⟨.wait, .observing⟩ ∧
      Waited g e := by
  intro acts
  have hacts : ∀ a ∈ acts, a ≠ .seize := by simp [acts]
  have hrun : ∃ g e, run (ofCommand "/bin/true" [] .single) acts = some (g, e) ∧
      g.pending? 0 = some ⟨.wait, .reaping⟩ ∧ g.pending? 1 = some ⟨.wait, .observing⟩ :=
    ⟨_, _, rfl, rfl, rfl⟩
  obtain ⟨g, e, hrun, hfirst, hsecond⟩ := hrun
  exact ⟨g, e, hrun, hacts, hfirst, hsecond, waits_agree_unless_late hrun hacts⟩

/-- Both threads have found the child killed, and the second asks the system when the first has reaped
the child. Or the child dies of a signal without a name, and then both fail. -/
theorem late_and_nameless_waits_fail :
    let overtaken : List Action := [.call 0 (.create (.ok 7)), .call 0 .kill, .advance 0, .advance 0,
      .call 0 .wait, .call 1 .wait, .advance 0, .advance 0, .advance 1]
    let nameless : List Action := [.call 0 (.create (.ok 7)), .call 0 .start, .advance 0, .advance 0,
      .child .settle, .child .pass, .child (.execute none), .advance 0, .receive 0 4, .call 0 .wait,
      .call 1 .wait, .child (.die 40), .advance 0, .advance 1]
    (∃ g, run (ofCommand "/bin/sh" [] .single) overtaken = some (g,
      [.returned 0 (.create (.ok 7)) (.ok (.pid 7)), .signaled .single (.ok ()),
        .returned 0 .kill (.ok .done), .reaped (.killed 9),
        .returned 0 .wait (.ok (.ended (.signaled .kill))),
        .returned 1 .wait (Result.fail (.waitFailed 7 .noChild))])) ∧
    ∃ g, run (ofCommand "/bin/sh" [] .single) nameless = some (g,
      [.returned 0 (.create (.ok 7)) (.ok (.pid 7)), .released, .executed none,
        .returned 0 .start (.ok .done),
        .returned 0 .wait (Result.fail (.waitFailed 7 .invalidArgument)),
        .returned 1 .wait (Result.fail (.waitFailed 7 .invalidArgument))]) :=
  ⟨⟨_, rfl⟩, ⟨_, rfl⟩⟩

end Gated

end Corun.Child
