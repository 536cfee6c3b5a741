import Corun.Proofs.Child.Record

namespace Corun.Child

/-- How a child ended that nobody is to be told of again. -/
def Life.reaping? : Life → Option Os.WaitStatus
  | reaped status => some status
  | _ => none

theorem Life.reaping?_eq_some {life : Life} {status : Os.WaitStatus} :
    life.reaping? = some status ↔ life = .reaped status := by
  cases life <;> simp [reaping?]

theorem Life.reaping?_of_live {life : Life} (h : life.isLive = true) : life.reaping? = none := by
  cases life <;> simp_all [isLive, reaping?]

namespace Gated
open Os Sync

variable {g g' : Gated} {t u : Nat} {c : Call} {s : Stage} {a : Action} {m : KillMode}
  {r : Except Errno Unit} {e seen : List Entry} {acts : List Action} {path : String}
  {operands : List String} {mode : KillMode}

def Entry.signal? : Entry → Option (KillMode × Except Errno Unit)
  | .signaled mode r => some (mode, r)
  | _ => none

def Entry.reaping? : Entry → Option WaitStatus
  | .reaped status => some status
  | _ => none

/-- The signals that were tried on a child or on its group, and what came of each. -/
def signals (seen : List Entry) : List (KillMode × Except Errno Unit) := seen.filterMap Entry.signal?

/-- What a child was reaped with, each time that it was. -/
def reapings (seen : List Entry) : List WaitStatus := seen.filterMap Entry.reaping?

@[simp] theorem signals_append (e seen : List Entry) :
    signals (seen ++ e) = signals seen ++ signals e := List.filterMap_append

@[simp] theorem reapings_append (e seen : List Entry) :
    reapings (seen ++ e) = reapings seen ++ reapings e := List.filterMap_append

/-- What the child does by itself is no signal, and reaps nobody. -/
theorem silent_of_executed (h : ∀ x ∈ e, ∃ refusal, x = .executed refusal) :
    signals e = [] ∧ reapings e = [] := by
  constructor
  · apply List.filterMap_eq_nil_iff.mpr
    intro x hx
    obtain ⟨refusal, rfl⟩ := h x hx
    rfl
  · apply List.filterMap_eq_nil_iff.mpr
    intro x hx
    obtain ⟨refusal, rfl⟩ := h x hx
    rfl

theorem Change.keeps_mode (h : Change g a g' e) : g'.killMode = g.killMode := by
  cases h <;> rfl

/-- A child counts as reaped when it is, and then it stays so. -/
theorem Change.accounts (hs : Shared g) (h : Change g a g' e) :
    g'.life.reaping?.toList = g.life.reaping?.toList ++ reapings e := by
  cases h with
  | stages _ _ _ _ _ _ _ e _ _ _ shown =>
    have hsilent : reapings e = [] := by rcases shown with rfl | rfl <;> rfl
    rw [hsilent, List.append_nil]
    rfl
  | answers | starts | endsStart | kills | rings => exact (List.append_nil _).symm
  | creates t pid idle free unborn =>
    rw [hs.absent.mpr unborn]
    rfl
  | signals t life sent r inside hit =>
    have hsame : life.reaping? = g.life.reaping? := by
      rcases hit with rfl | ⟨hlive, rfl⟩
      · rfl
      · rw [Life.reaping?_of_live hlive]
        rfl
    change life.reaping?.toList = g.life.reaping?.toList ++ []
    rw [hsame, List.append_nil]
  | lives life gateBytes reportBytes hasFollowers e next shown =>
    have hsame : life.reaping? = g.life.reaping? := by
      rcases next with rfl | ⟨hlive, hnext | ⟨status, rfl⟩⟩
      · rfl
      · rw [Life.reaping?_of_live hlive, Life.reaping?_of_live hnext]
      · rw [Life.reaping?_of_live hlive]
        rfl
    change life.reaping?.toList = g.life.reaping?.toList ++ reapings e
    rw [hsame, (silent_of_executed shown).2, List.append_nil]
  | reaps t c status x inside free ended | seizes status behind ended =>
    rw [ended]
    rfl

/-- The child is not reaped without its record. -/
def Unseized (g : Gated) : Prop := g.phase ≠ .terminated → g.life.reaping? = none

theorem Unseized.change (hu : Unseized g) (h : Change g a g' e) (ha : a ≠ .seize) : Unseized g' := by
  intro hunended
  cases h with
  | stages | answers | endsStart | rings => exact hu hunended
  | creates => rfl
  | starts t idle free gated => exact hu (by simp [gated])
  | kills t idle free alive => exact hu (by rcases alive with hp | hp <;> simp [hp])
  | signals t life sent r inside hit =>
    rcases hit with rfl | ⟨-, rfl⟩
    · exact hu hunended
    · rfl
  | lives life gateBytes reportBytes hasFollowers e next shown =>
    rcases next with rfl | ⟨-, hnext | ⟨status, rfl⟩⟩
    · exact hu hunended
    · exact Life.reaping?_of_live hnext
    · rfl
  | reaps => exact absurd rfl hunended
  | seizes status behind => exact absurd behind ha

/-- A signal is sent by whoever has put the child in killed and still holds the lock. -/
theorem Change.signaled (hs : Shared g) (h : Change g a g' e) (hm : .signaled m r ∈ e) :
    g.phase = .killed ∧ reapings e = [] := by
  cases h with
  | signals t life sent r inside => exact ⟨hs.inside t _ inside, rfl⟩
  | stages _ _ _ _ _ _ _ _ _ _ _ shown => rcases shown with rfl | rfl <;> simp at hm
  | lives _ _ _ _ _ _ shown =>
    obtain ⟨refusal, hx⟩ := shown _ hm
    cases hx
  | answers | creates | starts | endsStart | kills | reaps | rings | seizes => simp at hm

/-- Whoever is inside of kill was so before, or has found the child alive. -/
theorem Change.killing (h : Change g a g' e) (hin : g'.pending? u = some ⟨.kill, s⟩) :
    (∃ s, g.pending? u = some ⟨.kill, s⟩) ∨ g.phase = .ready ∨ g.phase = .running := by
  cases h with
  | stages t c s' latch gateOpen gateBytes reportBytes e leads =>
    rw [pending?_place] at hin
    split at hin
    · rename_i hut
      cases hin
      rcases leads.before with ⟨-, hfree⟩ | hbefore
      · cases hfree
      · rw [hut]
        exact .inl hbefore
    · exact .inl ⟨s, hin⟩
  | answers | creates | endsStart | signals | reaps =>
    simp only [pending?_back, pending?_endStart] at hin
    split at hin
    · cases hin
    · exact .inl ⟨s, hin⟩
  | starts t idle free gated => exact .inr (.inl gated)
  | kills t idle free alive => exact .inr alive
  | lives | rings | seizes => exact .inl ⟨s, hin⟩

/-- What trying a signal comes to that is sent in a run: it arrives, unless the system refuses it. -/
def SignalResult (acts : List Action) (r : Except Errno Unit) : Prop :=
  r = .ok () ∨ ∃ t errno, .refuse t errno ∈ acts ∧ r = .error errno

theorem SignalResult.mono {more : List Action} (h : SignalResult acts r) (hsub : acts ⊆ more) :
    SignalResult more r :=
  h.imp_right fun ⟨t, errno, hmem, hr⟩ => ⟨t, errno, hsub hmem, hr⟩

/-- After the one signal that may be tried nobody is inside of kill or gets there. -/
def SignalSpent (acts : List Action) (g : Gated) (seen : List Entry) : Prop :=
  signals seen = [] ∨ (∃ r, signals seen = [(g.killMode, r)] ∧ SignalResult acts r) ∧
    (g.phase = .killed ∨ g.phase = .terminated) ∧ ∀ t s, g.pending? t ≠ some ⟨.kill, s⟩

/-- A signal finds the child unreaped, and with it the kill is over. -/
theorem Change.tries (hs : Shared g) (hu : Unseized g) (h : Change g a g' e) :
    Gated.signals e = [] ∨ (∃ r, Gated.signals e = [(g.killMode, r)] ∧ SignalResult [a] r) ∧
      (∃ t, g.pending? t = some ⟨.kill, .signaling⟩) ∧ g'.phase = .killed ∧
      ∀ u s, g'.pending? u ≠ some ⟨.kill, s⟩ := by
  cases h with
  | signals t life sent r inside hit sends =>
    have hkilled : g.phase = .killed := hs.inside t _ inside
    have hheld : g.holder = some t := hs.held t _ inside rfl
    have hsent : SignalResult [a] sent := by
      rcases sends with hok | ⟨status, hreaped⟩ | ⟨errno, rfl, hrefused⟩
      · exact .inl hok
      · have hnone := hu (by simp [hkilled])
        rw [Life.reaping?_eq_some.mpr hreaped] at hnone
        cases hnone
      · exact .inr ⟨t, errno, List.mem_cons_self, hrefused⟩
    refine .inr ⟨⟨sent, rfl, hsent⟩, ⟨t, inside⟩, hkilled, ?_⟩
    intro u s hin
    rw [pending?_back] at hin
    split at hin
    · cases hin
    · rename_i hne
      cases hheld.symm.trans (hs.held u _ hin rfl)
      exact hne rfl
  | stages _ _ _ _ _ _ _ _ _ _ _ shown =>
    left
    rcases shown with rfl | rfl <;> rfl
  | lives _ _ _ _ _ _ shown => exact .inl (silent_of_executed shown).1
  | answers | creates | starts | endsStart | kills | reaps | rings | seizes => exact .inl rfl

theorem Change.stays_left (hs : Shared g) (h : Change g a g' e)
    (hp : g.phase = .killed ∨ g.phase = .terminated) : g'.phase = .killed ∨ g'.phase = .terminated := by
  rcases h.phase_moves hs with hsame | hnext
  · rwa [hsame]
  · rcases hp with hp | hp
    · rw [hp] at hnext
      exact .inr hnext
    · rw [hp] at hnext
      exact hnext.elim

theorem SignalSpent.change (hs : Shared g) (hu : Unseized g) (hp : SignalSpent acts g seen)
    (h : Change g a g' e) : SignalSpent (acts ++ [a]) g' (seen ++ e) := by
  unfold SignalSpent at hp ⊢
  rw [signals_append, h.keeps_mode]
  rcases hp with hnone | ⟨⟨r, hone, hr⟩, hphase, hout⟩
  · rw [hnone, List.nil_append]
    rcases h.tries hs hu with hsilent | ⟨⟨r, hsent, hr⟩, -, hkilled, hout⟩
    · exact .inl hsilent
    · exact .inr ⟨⟨r, hsent, hr.mono (List.subset_append_right acts [a])⟩, .inl hkilled, hout⟩
  · rcases h.tries hs hu with hsilent | ⟨-, ⟨t, hin⟩, -⟩
    · have hsame : signals seen ++ signals e = [(g.killMode, r)] := by rw [hone, hsilent]; rfl
      refine .inr ⟨⟨r, hsame, hr.mono (List.subset_append_left acts [a])⟩, ?_, ?_⟩
      · exact h.stays_left hs hphase
      · intro u s hin
        rcases h.killing hin with ⟨s, hbefore⟩ | hp
        · exact hout u s hbefore
        · rcases hphase with hq | hq <;> rw [hq] at hp <;> simp at hp
    · exact absurd hin (hout t .signaling)

/-- What is known of how a child came to its end in a run. -/
structure Ends (mode : KillMode) (acts : List Action) (g : Gated) (seen : List Entry) : Prop where
  /-- At most one signal is tried, and if that fails, then because the system has refused it. -/
  signaled : signals seen = [] ∨ ∃ r, signals seen = [(mode, r)] ∧ SignalResult acts r
  /-- Whatever it is sent to has not been reaped. -/
  inTime : ∀ before after m r, seen = before ++ .signaled m r :: after → reapings before = []
  /-- Once it is reaped, the record says with what. -/
  reaped : g.phase = .terminated → ∃ status x, reapings seen = [status] ∧ g.life = .reaped status ∧
    Termination.ofStatus? status = some x ∧ g.termination? = some x
  unreaped : g.phase ≠ .terminated → reapings seen = [] ∧ (∀ status, g.life ≠ .reaped status) ∧
    g.termination? = none

/-- What is kept while nobody reaps the child behind the back of its record. -/
structure Watched (mode : KillMode) (acts : List Action) (g : Gated) (seen : List Entry) : Prop where
  mode_eq : g.killMode = mode
  unseized : Unseized g
  accounted : reapings seen = g.life.reaping?.toList
  spent : SignalSpent acts g seen

theorem Watched.change (hs : Shared g) (hw : Watched mode acts g seen) (h : Change g a g' e)
    (ha : a ≠ .seize) : Watched mode (acts ++ [a]) g' (seen ++ e) := by
  refine ⟨h.keeps_mode.trans hw.mode_eq, hw.unseized.change h ha, ?_, hw.spent.change hs hw.unseized h⟩
  rw [reapings_append, hw.accounted]
  exact (h.accounts hs).symm

theorem ofCommand_watched (path : String) (operands : List String) (mode : KillMode) :
    Watched mode [] (ofCommand path operands mode) [] := ⟨rfl, fun _ => rfl, rfl, .inl rfl⟩

theorem run_watched (hr : run (ofCommand path operands mode) acts = some (g, e))
    (hacts : ∀ a ∈ acts, a ≠ .seize) : Shared g ∧ Watched mode acts g e := by
  have hinv := run_changes
    (P := fun u acts seen => (∀ a ∈ acts, a ≠ .seize) → Watched mode acts u seen)
    (ofCommand_shared path operands mode) (fun _ => ofCommand_watched path operands mode) ?_ hr
  · exact ⟨hinv.1, hinv.2 hacts⟩
  · intro acts u e a v e' hu hw hc hacts
    have hbefore := hw fun b hb => hacts b (List.mem_append_left _ hb)
    exact hbefore.change hu hc (hacts a (List.mem_append_right _ List.mem_cons_self))

theorem Watched.unreaped (hw : Watched mode acts g seen) (h : g.phase ≠ .terminated) : reapings seen = [] := by
  rw [hw.accounted, hw.unseized h]
  rfl

/-- However many threads start it, kill it and wait for it, in whatever order, and whether or not the
system refuses the signal. -/
theorem signaled_and_reaped_at_most_once
    (hr : run (ofCommand path operands mode) acts = some (g, e)) (hacts : ∀ a ∈ acts, a ≠ .seize) :
    Ends mode acts g e := by
  obtain ⟨hs, hw⟩ := run_watched hr hacts
  refine ⟨?_, ?_, ?_, ?_⟩
  · rcases hw.spent with hnone | ⟨hone, -⟩
    · exact .inl hnone
    · rw [← hw.mode_eq]
      exact .inr hone
  · rintro before after m r rfl
    obtain ⟨done, a, more, u, w, f₁, f₂, g₁, g₂, rfl, hdone, hstep, rfl, rfl⟩ :=
      Machine.step_of_split hr
    obtain ⟨hu, hwatched⟩ := run_watched hdone fun b hb => hacts b (List.mem_append_left _ hb)
    have hm : Entry.signaled m r ∈ g₁ ++ .signaled m r :: g₂ := by simp
    obtain ⟨hkilled, hsilent⟩ := (step_change hu hstep).signaled hu hm
    rw [reapings_append, hwatched.unreaped (by simp [hkilled])]
    rw [reapings_append] at hsilent
    exact (List.append_eq_nil_iff.mp hsilent).1
  · intro hended
    obtain ⟨status, hlife, hx⟩ := hs.reaped hended
    obtain ⟨x, hknown⟩ := hs.told.mpr hended
    refine ⟨status, x, ?_, hlife, hx.trans hknown, hknown⟩
    rw [hw.accounted, hlife]
    rfl
  · intro hunended
    refine ⟨hw.unreaped hunended, ?_, ?_⟩
    · intro status hlife
      have hnone := hw.unseized hunended
      rw [hlife] at hnone
      cases hnone
    · cases hx : g.termination? with
      | none => rfl
      | some x => exact absurd (hs.told.mp ⟨x, hx⟩) hunended

/-- Two threads wait for a child that a third kills, and kills once more after it is reaped. The signal
arrives, or the system refuses it and the child exits by itself. -/
theorem signaled_and_reaped_once_among_three :
    let before : List Action := [.call 0 (.create (.ok 7)), .call 0 .start, .advance 0, .advance 0,
      .child .settle, .child .pass, .child (.execute none), .advance 0, .receive 0 4, .call 1 .await,
      .call 0 .kill, .advance 0]
    let after : List Action := [.call 2 .wait, .advance 1, .advance 1, .advance 1, .advance 2,
      .advance 2, .advance 1, .call 0 .kill]
    let arrives := before ++ .advance 0 :: after
    let refused := before ++ .refuse 0 .notPermitted :: .child (.exit 3) :: after
    (∃ g e, run (ofCommand "/bin/true" [] .tree) arrives = some (g, e) ∧ (∀ a ∈ arrives, a ≠ .seize) ∧
      reapings e = [.killed 9] ∧ signals e = [(.tree, .ok ())] ∧ Ends .tree arrives g e) ∧
    ∃ g e, run (ofCommand "/bin/true" [] .tree) refused = some (g, e) ∧ (∀ a ∈ refused, a ≠ .seize) ∧
      reapings e = [.exited 3] ∧ signals e = [(.tree, .error .notPermitted)] ∧ Ends .tree refused g e := by
  intro before after arrives refused
  have harrives : ∀ a ∈ arrives, a ≠ .seize := by simp [arrives, before, after]
  have hrefused : ∀ a ∈ refused, a ≠ .seize := by simp [refused, before, after]
  have hfirst : ∃ g e, run (ofCommand "/bin/true" [] .tree) arrives = some (g, e) ∧
      reapings e = [.killed 9] ∧ signals e = [(.tree, .ok ())] := ⟨_, _, rfl, rfl, rfl⟩
  have hsecond : ∃ g e, run (ofCommand "/bin/true" [] .tree) refused = some (g, e) ∧
      reapings e = [.exited 3] ∧ signals e = [(.tree, .error .notPermitted)] := ⟨_, _, rfl, rfl, rfl⟩
  obtain ⟨g, e, hrun, hreaped, hsent⟩ := hfirst
  obtain ⟨g', e', hrun', hreaped', hsent'⟩ := hsecond
  exact ⟨⟨g, e, hrun, harrives, hreaped, hsent, signaled_and_reaped_at_most_once hrun harrives⟩,
    g', e', hrun', hrefused, hreaped', hsent', signaled_and_reaped_at_most_once hrun' hrefused⟩

end Gated

end Corun.Child
