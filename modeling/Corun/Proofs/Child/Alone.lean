import Corun.Proofs.Child.Latching
import Corun.Proofs.Child.Waits

namespace Corun.Child.Gated
open Os Sync

variable {g g' : Gated} {t u : Nat} {c : Call} {s : Stage} {r : Result Answer} {a : Action}
  {e : List Entry} {acts : List Action}

/-- A thread that awaits the child has begun to, and nothing else brings it there. -/
theorem StepEffect.awaits (hs : Shared g) (h : StepEffect g a g' e)
    (hin : g'.pending? u = some ⟨.await, s⟩) :
    (∃ s', g.pending? u = some ⟨.await, s'⟩) ∨ a = .call u .await := by
  have hback : ∀ {t : Nat}, g'.pending? u = (if u = t then none else g.pending? u) →
      ∃ s', g.pending? u = some ⟨.await, s'⟩ := by
    intro t hg
    rw [hg] at hin
    split at hin
    · cases hin
    · exact ⟨s, hin⟩
  have hplace : ∀ {t c s'}, g'.pending? u = (if u = t then some ⟨c, s'⟩ else g.pending? u) →
      u = t ∧ c = .await ∨ ∃ s', g.pending? u = some ⟨.await, s'⟩ := by
    intro t c s' hg
    rw [hg] at hin
    split at hin
    · rename_i hut
      cases hin
      exact .inl ⟨hut, rfl⟩
    · exact .inr ⟨s, hin⟩
  cases h with
  | waitsOn t c s' leads begins =>
    rcases hplace (pending?_place ..) with ⟨rfl, rfl⟩ | hbefore
    · cases leads with
      | awaits idle => exact .inr (begins idle)
      | observes _ _ _ inside | holdsBack inside | passes inside | finds inside | looks inside =>
        exact .inl ⟨_, inside⟩
    · exact .inl hbefore
  | answers | creates | signals | reaps => exact .inl (hback (pending?_back ..))
  | starts | kills =>
    rcases hplace (pending?_place ..) with ⟨-, hc⟩ | hbefore
    · cases hc
    · exact .inl hbefore
  | releases t g' e goesOn =>
    cases goesOn with
    | opens | closes | reads =>
      rcases hplace (pending?_place ..) with ⟨-, hc⟩ | hbefore
      · cases hc
      · exact .inl hbefore
    | findsNobody | isTold | hearsEnd => exact .inl (hback (pending?_back ..))
  | moves m g' e does goesOn => cases goesOn <;> exact .inl ⟨s, hin⟩
  | seizes => exact .inl ⟨s, hin⟩
  | latches g' rung =>
    cases rung with
    | notifies t c s' inside leads =>
      rcases hplace (pending?_place ..) with ⟨-, rfl⟩ | hbefore
      · simp at leads
      · exact .inl hbefore
    | slips t inside | sleeps t inside =>
      rcases hplace (pending?_place ..) with ⟨rfl, -⟩ | hbefore
      · exact .inl ⟨_, inside⟩
      · exact .inl hbefore
    | wakes k riser bell risen =>
      rcases hplace (pending?_place ..) with ⟨rfl, -⟩ | hbefore
      · exact .inl ⟨_, hs.sleeping _ ((Bell.rise_threads risen).subset List.mem_cons_self)⟩
      · exact .inl hbefore
    | rings | turns | leaves => exact .inl ⟨s, hin⟩

/-- One thread at most awaits the child, and is not left behind. -/
structure SoleWaiter (t : Nat) (g : Gated) : Prop where
  shared : Shared g
  latched : Latched g
  unseized : Unseized g
  alone : ∀ u s, g.pending? u = some ⟨.await, s⟩ → u = t
  heard : g.phase.Left → BeforeLatch g t →
    g.latch.isSet = true ∨ ∃ u c, g.pending? u = some ⟨c, .notifying⟩

/-- Nobody else begins to await the child, and nobody reaps it behind the back of the record. -/
def Action.KeepsSole (t : Nat) (a : Action) : Prop := a ≠ .seize ∧ ∀ u, a = .call u .await → u = t

theorem Action.keepsSole_advance (t u : Nat) : Action.KeepsSole t (.advance u) :=
  ⟨by simp, by simp⟩

theorem ofCommand_soleWaiter (path : String) (operands : List String) (mode : KillMode) (t : Nat) :
    SoleWaiter t (ofCommand path operands mode) := by
  refine ⟨ofCommand_shared path operands mode, ofCommand_latched, fun _ => rfl, ?_, ?_⟩
  · intro u s hin
    cases hin
  · intro hleft
    rcases hleft with h | h | h <;> cases h

theorem BeforeLatch.awaits (hb : BeforeLatch g u) : ∃ s, g.pending? u = some ⟨.await, s⟩ := by
  rcases hb with hin | hin
  · exact ⟨_, hin⟩
  · exact ⟨_, hin⟩

theorem SoleWaiter.effect (hl : SoleWaiter t g) (h : StepEffect g a g' e) (ha : a.KeepsSole t) :
    SoleWaiter t g' := by
  have hs := hl.shared
  have hchange := h.change hs
  refine ⟨hs.change hchange, hl.latched.effect hs h, hl.unseized.change hchange ha.1, ?_, ?_⟩
  · intro u s hin
    rcases h.awaits hs hin with ⟨s', hbefore⟩ | hbegins
    · exact hl.alone u s' hbefore
    · exact ha.2 u hbegins
  · intro hleft hbehind
    by_cases hbefore : g.phase.Left
    · have hready := (left_iff.mp hbefore).2
      have halarmed : WakeSent g g := by
        rcases hl.heard hbefore (h.behind hready hbehind) with hset | hin
        · exact .inr (.inl hset)
        · exact .inl hin
      -- Had another passed the latch instead, it would have been behind as well.
      rcases halarmed.effect hs hready (fun _ hb => hb) h with hin | hset | ⟨x, hx, hpassed⟩
      · exact .inr hin
      · exact .inl hset
      · obtain ⟨s, hin⟩ := hx.awaits
        cases hl.alone x s hin
        exact absurd hbehind hpassed
    · have hready : g.phase = .ready := by
        rcases hchange.phase_moves hs with hsame | hnext
        · exact absurd (hsame ▸ hleft) hbefore
        · cases hp : g.phase with
          | ready => rfl
          | notStarted =>
            rw [hp] at hnext
            have hready : g'.phase = .ready := hnext
            simp [hready, Phase.Left] at hleft
          | running | killed | terminated => simp [hp, Phase.Left] at hbefore
      exact .inr (hchange.departs hs hready (left_iff.mp hleft).2).2.2

theorem SoleWaiter.step (hl : SoleWaiter t g) (h : g.step a = some (g', e)) (ha : a.KeepsSole t) :
    SoleWaiter t g' :=
  hl.effect (step_effect hl.shared h) ha

theorem SoleWaiter.along (hl : SoleWaiter t g) (h : run g acts = some (g', e))
    (ha : ∀ a ∈ acts, a.KeepsSole t) :
    SoleWaiter t g' := by
  refine Machine.run_invariant (P := fun u acts _ => (∀ a ∈ acts, a.KeepsSole t) → SoleWaiter t u)
    (fun _ => hl) ?_ h ha
  intro acts u e a w e' _ hsofar hstep hspares
  have hu := hsofar fun b hb => hspares b (List.mem_append_left _ hb)
  exact hu.step hstep (hspares a (by simp))

/-- What a thread that awaits the child takes part in, and what wakes it. -/
def Action.isHis (t : Nat) : Action → Bool
  | .advance u => u = t
  | .bell (.ring _) => true
  | .resume _ => true
  | _ => false

theorem Action.isHis.spares (h : a.isHis t = true) : a.KeepsSole t := by
  cases a with
  | advance | bell | resume => exact ⟨by simp, by simp⟩
  | call | receive | refuse | child | seize => cases h

def ComesBack (t : Nat) (g : Gated) : Prop :=
  ∃ acts g' e r, run g acts = some (g', e) ∧ (∀ a ∈ acts, a.isHis t = true) ∧
    returned? t e = some r

theorem ComesBack.after (h : run g acts = some (g', [])) (ha : ∀ a ∈ acts, a.isHis t = true)
    (hback : ComesBack t g') : ComesBack t g := by
  obtain ⟨more, v, e, r, hmore, hhis, hr⟩ := hback
  refine ⟨acts ++ more, v, e, r, Machine.run_append.mpr ⟨g', [], e, h, hmore, rfl⟩, ?_, hr⟩
  intro a hmem
  rcases List.mem_append.mp hmem with hmem | hmem
  · exact ha a hmem
  · exact hhis a hmem

theorem ComesBack.advances (h : g.step (.advance t) = some (g', [])) (hback : ComesBack t g') :
    ComesBack t g := by
  have hrun : run g [.advance t] = some (g', []) := Machine.run_cons.mpr ⟨g', [], [], h, rfl, rfl⟩
  exact hback.after hrun (by simp [Action.isHis])

theorem ComesBack.returns (h : g.step (.advance t) = some (g', e)) (hr : returned? t e = some r) :
    ComesBack t g :=
  ⟨[.advance t], g', e, r, Machine.run_cons.mpr ⟨g', e, [], h, rfl, (List.append_nil e).symm⟩,
    by simp [Action.isHis], hr⟩

theorem ComesBack.isAnswered (h : g.step (.advance t) = some (g.back t c r)) : ComesBack t g :=
  .returns (r := r) h (by simp)

theorem SoleWaiter.reaping_back (hl : SoleWaiter t g) (hfree : g.holder = none)
    (hin : g.pending? t = some ⟨c, .reaping⟩) : ComesBack t g := by
  obtain ⟨g', e, x, hstep, hr, -⟩ := hl.shared.reap_returns hl.unseized hin hfree
  exact .returns hstep hr

theorem SoleWaiter.observing_back (hl : SoleWaiter t g) (hfree : g.holder = none)
    (hdead : g.life.isLive = false)
    (hleft : g.phase.Left) (hin : g.pending? t = some ⟨c, .observing⟩) : ComesBack t g := by
  cases hlife : g.life with
  | absent => exact absurd (hl.shared.absent.mp hlife) hleft.begun
  | zombie status =>
    cases hx : Termination.ofStatus? status with
    | some x =>
      have hstep := observing_asks hin hlife hx
      have hnext : SoleWaiter t (g.place t c .reaping) :=
        hl.step hstep (Action.keepsSole_advance t t)
      exact .advances hstep (hnext.reaping_back (c := c) hfree (by simp))
    | none =>
      obtain ⟨pid, hstep⟩ := hl.shared.observing_nameless hin hlife hx
      exact .isAnswered hstep
  | reaped status =>
    obtain ⟨pid, hstep⟩ := hl.shared.observing_late hin (hl.unseized.terminated hlife)
    exact .isAnswered hstep
  | forked | gated | released | running | refused => simp [hlife, Life.isLive] at hdead

theorem SoleWaiter.past_back (hl : SoleWaiter t g) (hfree : g.holder = none)
    (hdead : g.life.isLive = false)
    (hleft : g.phase.Left) (hin : g.pending? t = some ⟨.await, .past⟩) : ComesBack t g := by
  have hstep : g.step (.advance t) = some (g.wait t .await) := by
    simp [Gated.step, advance, hin, hfree]
  rcases wait_cases hl.shared t .await with ⟨-, hwaits⟩ | ⟨-, hinvalid⟩
  · rw [hwaits] at hstep
    have hnext : SoleWaiter t (g.place t .await .observing) :=
      hl.step hstep (Action.keepsSole_advance t t)
    exact .advances hstep (hnext.observing_back (c := .await) hfree hdead hleft (by simp))
  · rw [hinvalid] at hstep
    exact .isAnswered hstep

theorem SoleWaiter.asking_back (hl : SoleWaiter t g) (hfree : g.holder = none)
    (hin : g.pending? t = some ⟨.await, .asking⟩) : ComesBack t g := by
  have hstep : g.step (.advance t) = some (g.status t .await) := by
    simp [Gated.step, advance, hin, hfree]
  rcases status_cases hl.shared t .await with ⟨x, -, -, htold⟩ | ⟨-, hinvalid⟩
  · rw [htold] at hstep
    exact .isAnswered hstep
  · rw [hinvalid] at hstep
    exact .isAnswered hstep

theorem SoleWaiter.checking_back (hl : SoleWaiter t g) (hfree : g.holder = none)
    (hdead : g.life.isLive = false)
    (hleft : g.phase.Left) (hin : g.pending? t = some ⟨.await, .checking⟩) : ComesBack t g := by
  have hstep : g.step (.advance t) = some (g.check t) := by
    simp [Gated.step, advance, hin, hfree]
  have hspares := Action.keepsSole_advance t t
  rcases hleft with hp | hp | hp
  · rw [check, hp] at hstep
    exact .advances hstep ((hl.step hstep hspares).past_back hfree hdead (.inl hp) (by simp))
  · rw [check, hp] at hstep
    exact .advances hstep ((hl.step hstep hspares).past_back hfree hdead (.inr (.inl hp)) (by simp))
  · rw [check, hp] at hstep
    exact .advances hstep ((hl.step hstep hspares).asking_back hfree (by simp))

/-- One that is behind is let through, for the latch is set and there is nobody else to pass it. -/
theorem SoleWaiter.behind_back (hl : SoleWaiter t g) (hfree : g.holder = none)
    (hdead : g.life.isLive = false)
    (hleft : g.phase.Left) (hbehind : BeforeLatch g t) : ComesBack t g := by
  have hset : g.latch.isSet = true := by
    rcases hl.heard hleft hbehind with hset | ⟨u, c, hin⟩
    · exact hset
    · have hheld := hl.shared.held u _ hin (hl.shared.inside u _ hin).holds
      cases hfree.symm.trans hheld
  obtain ⟨acts, g', hrun, hhis, hcomes⟩ : ∃ acts g', run g acts = some (g', []) ∧
      (∀ a ∈ acts, a.isHis t = true) ∧ ReachesStage g g' t .checking := by
    rcases hbehind with hin | hin
    · have hstep : g.step (.advance t) =
          some ({ g with latch := ⟨false, g.latch.bell⟩ }.place t .await .checking, []) := by
        simp [Gated.step, advance, hin, Latch.step, Latch.pass, hset, afterLatch]
      exact ⟨[.advance t], _, Machine.run_cons.mpr ⟨_, [], [], hstep, rfl, rfl⟩,
        by simp [Action.isHis], .place rfl⟩
    · obtain ⟨x, acts, g', hrun, hacts, hbed, hcomes⟩ := hl.latched.lets hset hin
      obtain rfl : x = t := hl.alone x _ (hl.shared.sleeping x hbed)
      refine ⟨acts, g', hrun, ?_, hcomes⟩
      intro a ha
      obtain ⟨k, rfl | rfl⟩ := hacts a ha
      · rfl
      · rfl
  have hnext := hl.along hrun fun a ha => Action.isHis.spares (hhis a ha)
  have hback := hnext.checking_back (hcomes.holder.trans hfree) (by rw [hcomes.life]; exact hdead)
    (by rw [hcomes.phase]; exact hleft) hcomes.comes
  exact hback.after hrun hhis

/-- Wherever it is, it comes back when the child has left its gate and has ended, and nobody has the
lock. -/
theorem SoleWaiter.comesBack (hl : SoleWaiter t g) (hfree : g.holder = none)
    (hdead : g.life.isLive = false)
    (hleft : g.phase.Left) (hin : g.pending? t = some ⟨.await, s⟩) : ComesBack t g := by
  have hcall := (hl.shared.inside t _ hin).call
  cases s with
  | checking => exact hl.checking_back hfree hdead hleft hin
  | approaching => exact hl.behind_back hfree hdead hleft (.inl hin)
  | asleep => exact hl.behind_back hfree hdead hleft (.inr hin)
  | past => exact hl.past_back hfree hdead hleft hin
  | asking => exact hl.asking_back hfree hin
  | observing => exact hl.observing_back hfree hdead hleft hin
  | reaping => exact hl.reaping_back hfree hin
  | notifying | releasing | closing | reading | signaling => simp [Stage.Of] at hcall

end Corun.Child.Gated
