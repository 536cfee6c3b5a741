import Corun.Proofs.Child.Changes
import Corun.Proofs.Machine

namespace Corun.Child

/-- Nobody is inside of anything but the first look when the child is created. -/
theorem Pending.Fits.born {p : Pending} (hp : p.Fits .notStarted) : p.Fits .ready := by
  obtain ⟨c, s⟩ := p
  cases c <;> cases s <;> simp_all [Fits, Phase.Left]

namespace Gated
open Os Sync

variable {g g' : Gated} {t u : Nat} {c : Call} {s : Stage} {r : Result Answer} {a : Action}
  {e : List Entry} {acts : List Action} {path : String} {operands : List String} {mode : KillMode}

theorem ofCommand_shared (path : String) (operands : List String) (mode : KillMode) :
    Shared (ofCommand path operands mode) := by
  have hidle : ∀ t, (ofCommand path operands mode).pending? t = none := fun _ => rfl
  refine ⟨by simp [ofCommand], by simp [ofCommand], by simp [ofCommand], by simp [ofCommand],
    by simp [ofCommand], ?_, ?_, ?_, ?_, ?_, List.nodup_nil⟩
  · intro t p hp
    rw [hidle] at hp
    cases hp
  · intro t p hp
    rw [hidle] at hp
    cases hp
  · intro t ht
    cases ht
  · intro t c hp
    rw [hidle] at hp
    cases hp
  · intro t ht
    cases ht

theorem StageStep.fits (hs : Shared g) (hg : StageStep g t c s) : Pending.Fits g.phase ⟨c, s⟩ := by
  cases hg with
  | awaits | slips | wakes => trivial
  | waits _ due | passes _ due | looks _ due =>
    rcases due with hp | hp
    · exact .inl hp
    · exact .inr (.inl hp)
  | notifies c s inside leads =>
    have hfits := hs.inside t _ inside
    obtain ⟨rfl, rfl⟩ | ⟨rfl, rfl⟩ := leads
    · exact hfits
    · exact hfits
  | releases inside | closes inside | reads _ _ inside | sleeps inside =>
    have hfits := hs.inside t _ inside
    exact hfits
  | observes c status x inside =>
    obtain ⟨rfl | rfl, hleft⟩ := (hs.inside t _ inside).waits (.inl rfl)
    · exact hleft
    · exact hleft
  | holdsBack _ gated =>
    intro hp
    rw [gated] at hp
    cases hp
  | finds _ ended => exact ended

/-- It is inside of the same call as before, unless it begins one for which it need not keep the lock. -/
theorem StageStep.before (hg : StageStep g t c s) :
    g.pending? t = none ∧ c.holds = false ∨ ∃ s, g.pending? t = some ⟨c, s⟩ := by
  cases hg with
  | awaits idle | waits idle => exact .inl ⟨idle, rfl⟩
  | notifies _ _ inside | observes _ _ _ inside | releases inside | closes inside | reads _ _ inside
  | holdsBack inside | passes inside | finds inside | looks inside | sleeps inside | slips inside
  | wakes inside => exact .inr ⟨_, inside⟩

theorem StageStep.asleep (hg : StageStep g t c s) (h : s = .asleep) : c = .await := by
  cases hg with
  | notifies _ _ _ leads => rcases leads with ⟨-, rfl⟩ | ⟨-, rfl⟩ <;> cases h
  | sleeps => rfl
  | _ => cases h

/-- Only a child that has ended is about to be reaped. -/
theorem StageStep.reaping (hg : StageStep g t c s) (h : s = .reaping) : ∃ status x,
    (g.life = .zombie status ∨ g.life = .reaped status) ∧ Termination.ofStatus? status = some x := by
  cases hg with
  | notifies _ _ _ leads => rcases leads with ⟨-, rfl⟩ | ⟨-, rfl⟩ <;> cases h
  | observes _ status x _ ended known => exact ⟨status, x, .inl ended, known⟩
  | _ => cases h

theorem StageStep.holds_iff (hs : Shared g) (hg : StageStep g t c s) :
    c.holds = true ↔ g.holder = some t := by
  rcases hg.before with ⟨hidle, hfree⟩ | ⟨before, hin⟩
  · constructor
    · intro h
      rw [hfree] at h
      cases h
    · intro h
      obtain ⟨p, hp, -⟩ := hs.holder t h
      rw [hidle] at hp
      cases hp
  · constructor
    · exact hs.held t _ hin
    · intro h
      obtain ⟨p, hp, hc⟩ := hs.holder t h
      cases hin.symm.trans hp
      exact hc

theorem Shared.place {latch : Latch} (hs : Shared g) (hfits : Pending.Fits g.phase ⟨c, s⟩)
    (hheld : c.holds = true ↔ g.holder = some t)
    (hr : s = .reaping → ∃ status x, (g.life = .zombie status ∨ g.life = .reaped status) ∧
      Termination.ofStatus? status = some x)
    (honce : latch.bell.threads.Nodup)
    (hsleepers : ∀ u ∈ latch.bell.threads,
      u ≠ t ∧ u ∈ g.latch.bell.threads ∨ u = t ∧ c = .await ∧ s = .asleep) :
    Shared ({ g with latch }.place t c s) := by
  refine ⟨hs.named, hs.absent, hs.gated, hs.told, hs.reaped, ?_, ?_, ?_, ?_, ?_, honce⟩
  · intro u p hp
    rw [pending?_place] at hp
    split at hp
    · cases hp
      exact hfits
    · exact hs.inside u p hp
  · intro u p hp hc
    rw [pending?_place] at hp
    split at hp
    · rename_i hu
      cases hp
      rw [hu]
      exact hheld.mp hc
    · exact hs.held u p hp hc
  · intro u hu
    rw [pending?_place]
    split
    · rename_i hut
      exact ⟨_, rfl, hheld.mpr (hut ▸ hu)⟩
    · exact hs.holder u hu
  · intro u c' hp
    rw [pending?_place] at hp
    split at hp
    · cases hp
      exact hr rfl
    · exact hs.reaping u c' hp
  · intro u hu
    rw [pending?_place]
    rcases hsleepers u hu with ⟨hne, hm⟩ | ⟨rfl, rfl, rfl⟩
    · rw [if_neg hne]
      exact hs.sleeping u hm
    · rw [if_pos rfl]

theorem Answers.here (h : Answers g t c r) : g.pending? t ≠ some ⟨.await, .asleep⟩ := by
  intro hasleep
  cases h with
  | refuses _ _ here => simp [hasleep] at here
  | tells _ _ here => simp [hasleep] at here
  | cannotFork _ idle | spares idle | names _ idle => simp [hasleep] at idle
  | overtaken inside | isLate _ _ _ inside
  | cannotTell _ _ _ inside | isRobbed _ _ _ inside => simp [hasleep] at inside

theorem Shared.back (hs : Shared g) (hawake : g.pending? t ≠ some ⟨.await, .asleep⟩) (c : Call)
    (r : Result Answer) : Shared (g.back t c r).1 := by
  refine ⟨hs.named, hs.absent, hs.gated, hs.told, hs.reaped, ?_, ?_, ?_, ?_, ?_, hs.once⟩
  · intro u p hp
    rw [pending?_back] at hp
    split at hp
    · cases hp
    · exact hs.inside u p hp
  · intro u p hp hc
    rw [pending?_back] at hp
    split at hp
    · cases hp
    · rename_i hne
      have hheld := hs.held u p hp hc
      simp [Gated.back, hheld, hne]
  · intro u hu
    have hkept : g.holder = some u ∧ u ≠ t := by
      simp only [Gated.back] at hu
      split at hu
      · cases hu
      · rename_i hne
        refine ⟨hu, ?_⟩
        rintro rfl
        exact hne hu
    rw [pending?_back, if_neg hkept.2]
    exact hs.holder u hkept.1
  · intro u c hp
    rw [pending?_back] at hp
    split at hp
    · cases hp
    · exact hs.reaping u c hp
  · intro u hu
    have hasleep := hs.sleeping u hu
    rw [pending?_back, if_neg ?_]
    · exact hasleep
    · rintro rfl
      exact hawake hasleep

/-- Its channels do not matter once it is created. -/
theorem Shared.channels (hs : Shared g) (gateOpen reportOpen hasFollowers : Bool)
    (gateBytes reportBytes : List UInt8) :
    Shared { g with gateOpen, reportOpen, gateBytes, reportBytes, hasFollowers } :=
  ⟨hs.named, hs.absent, hs.gated, hs.told, hs.reaped, hs.inside, hs.held, hs.holder, hs.reaping,
    hs.sleeping, hs.once⟩

/-- Nobody is inside of start or kill while the lock is free. -/
theorem Shared.free (hs : Shared g) (hfree : g.holder = none) {p : Pending}
    (hp : g.pending? t = some p) : p.call.holds = false := by
  cases hc : p.call.holds with
  | false => rfl
  | true =>
    have hheld := hs.held t p hp hc
    rw [hfree] at hheld
    cases hheld

theorem Shared.created (hs : Shared g) (hunborn : g.phase = .notStarted) (pid : Pid) : Shared
      { g with phase := .ready, pid? := some pid, hasGate := true, hasReport := true,
               gateBytes := [], gateOpen := true, reportBytes := [], reportOpen := true,
               life := .forked } := by
  have hnone : ¬ ∃ x, g.termination? = some x := by
    rw [hs.told, hunborn]
    simp
  have hfits : ∀ t p, g.pending? t = some p → p.Fits .notStarted := by
    intro t p hp
    have hin := hs.inside t p hp
    rwa [hunborn] at hin
  refine ⟨by simp, by simp, fun _ => ⟨rfl, rfl⟩, ?_, by simp, ?_, hs.held, hs.holder, ?_, hs.sleeping,
    hs.once⟩
  · constructor
    · intro h
      exact absurd h hnone
    · intro h
      cases h
  · intro t p hp
    exact (hfits t p hp).born
  · intro t c hp
    obtain ⟨-, hleft⟩ := (hfits t _ hp).waits (.inr rfl)
    exact absurd rfl hleft.begun

/-- The child is released or killed by a thread that takes the lock for it. -/
theorem Shared.left {phase : Phase} {hasGate hasReport : Bool} (hs : Shared g)
    (hidle : g.pending? t = none) (hfree : g.holder = none)
    (halive : g.phase = .ready ∨ g.phase = .running)
    (hphase : c = .start ∧ phase = .running ∨ c = .kill ∧ phase = .killed) :
    Shared ({ g with phase, hasGate, hasReport, holder := some t }.place t c .notifying) := by
  have hbegun : g.phase ≠ .notStarted := by rcases halive with hp | hp <;> simp [hp]
  have hunended : g.phase ≠ .terminated := by rcases halive with hp | hp <;> simp [hp]
  have hnone : ¬ ∃ x, g.termination? = some x := fun h => hunended (hs.told.mp h)
  have hleft : phase.Left ∧ phase ≠ .terminated ∧ phase ≠ .ready := by
    rcases hphase with ⟨-, rfl⟩ | ⟨-, rfl⟩ <;> simp [Phase.Left]
  have hlive : g.life ≠ .absent := fun hl => hbegun (hs.absent.mp hl)
  have hnamed := hs.known hbegun
  have hbegun' := hleft.1.begun
  refine ⟨by simp [Gated.place, hnamed, hbegun'], by simp [Gated.place, hlive, hbegun'],
    by simp [Gated.place, hleft], ?_, by simp [Gated.place, hleft], ?_, ?_, ?_, ?_, ?_, hs.once⟩
  · constructor
    · intro h
      exact absurd h hnone
    · intro h
      exact absurd h hleft.2.1
  · intro u p hp
    rw [pending?_place] at hp
    split at hp
    · cases hp
      rcases hphase with ⟨rfl, rfl⟩ | ⟨rfl, rfl⟩ <;> rfl
    · exact (hs.inside u p hp).later (hs.free hfree hp) hleft.1 fun h => absurd h hunended
  · intro u p hp hc
    rw [pending?_place] at hp
    split at hp
    · rename_i hu
      rw [hu]
      rfl
    · have hidles := hs.free hfree hp
      rw [hc] at hidles
      cases hidles
  · intro u hu
    obtain rfl : t = u := Option.some.inj hu
    refine ⟨_, by rw [pending?_place, if_pos rfl], ?_⟩
    rcases hphase with ⟨rfl, -⟩ | ⟨rfl, -⟩ <;> rfl
  · intro u c' hp
    rw [pending?_place] at hp
    split at hp
    · cases hp
    · exact hs.reaping u c' hp
  · intro u hu
    have hasleep := hs.sleeping u hu
    rw [pending?_place, if_neg ?_]
    · exact hasleep
    · rintro rfl
      rw [hidle] at hasleep
      cases hasleep

theorem Shared.reap {status : WaitStatus} {x : Termination} (hs : Shared g) (hfree : g.holder = none)
    (hended : g.life = .zombie status) (hx : Termination.ofStatus? status = some x) :
    Shared { g with life := .reaped status, termination? := some x, phase := .terminated } := by
  have hbegun : g.phase ≠ .notStarted := hs.begun (by simp [hended])
  refine ⟨by simp [hs.known hbegun], by simp, by simp, by simp, fun _ => ⟨status, rfl, hx⟩, ?_, hs.held,
    hs.holder, ?_, hs.sleeping, hs.once⟩
  · intro t p hp
    exact (hs.inside t p hp).later (hs.free hfree hp) (.inr (.inr rfl)) fun h => h.symm
  · intro t c _
    exact ⟨status, x, .inr rfl, hx⟩

/-- A child that has not ended goes on or ends. -/
theorem Shared.lives {life : Life} (hs : Shared g) (hnext : life = g.life ∨
      g.life.isLive = true ∧ (life.isLive = true ∨ ∃ status, life = .zombie status)) :
    Shared { g with life } := by
  rcases hnext with rfl | ⟨hlive, hnext⟩
  · exact hs
  · have habsent : life ≠ .absent := by
      rintro rfl
      simp [Life.isLive] at hnext
    have hborn : g.phase ≠ .notStarted := hs.begun fun hl => by simp [hl, Life.isLive] at hlive
    refine ⟨hs.named, by simp [habsent, hborn], hs.gated, hs.told, ?_, hs.inside, hs.held, hs.holder, ?_,
      hs.sleeping, hs.once⟩
    · intro hp
      obtain ⟨status, hl, -⟩ := hs.reaped hp
      simp [hl, Life.isLive] at hlive
    · intro t c hp
      obtain ⟨status, _, hl | hl, -⟩ := hs.reaping t c hp <;> simp [hl, Life.isLive] at hlive

theorem Shared.seize {status : WaitStatus} (hs : Shared g) (hended : g.life = .zombie status) :
    Shared { g with life := .reaped status } := by
  have hborn : g.phase ≠ .notStarted := hs.begun (by simp [hended])
  refine ⟨hs.named, by simp [hborn], hs.gated, hs.told, ?_, hs.inside, hs.held, hs.holder, ?_,
    hs.sleeping, hs.once⟩
  · intro hp
    obtain ⟨known, hl, -⟩ := hs.reaped hp
    rw [hended] at hl
    cases hl
  · intro t c hp
    obtain ⟨known, x, hl | hl, hx⟩ := hs.reaping t c hp
    · cases hended.symm.trans hl
      exact ⟨status, x, .inr rfl, hx⟩
    · rw [hended] at hl
      cases hl

theorem Shared.change (hs : Shared g) (h : Change g a g' e) : Shared g' := by
  cases h with
  | stages t c s latch gateOpen gateBytes reportBytes e leads once sleepers shown =>
    have hc := hs.channels gateOpen g.reportOpen g.hasFollowers gateBytes reportBytes
    have hfits := leads.fits hs
    have hheld := leads.holds_iff hs
    refine hc.place hfits hheld leads.reaping once ?_
    intro u hu
    exact (sleepers u hu).imp_right fun ⟨hut, hasleep⟩ => ⟨hut, leads.asleep hasleep, hasleep⟩
  | answers t c r gives => exact hs.back gives.here c r
  | creates t pid idle free unborn =>
    refine (hs.created unborn pid).back ?_ _ _
    intro hasleep
    cases idle.symm.trans hasleep
  | starts t idle free gated => exact hs.left idle free (.inl gated) (.inl ⟨rfl, rfl⟩)
  | endsStart t r reportBytes inside =>
    have hc := hs.channels false false g.hasFollowers g.gateBytes reportBytes
    refine hc.back ?_ .start r
    intro hasleep
    obtain ⟨s, hin⟩ := inside
    cases hin.symm.trans hasleep
  | kills t idle free alive => exact hs.left idle free alive (.inr ⟨rfl, rfl⟩)
  | signals t life sent r inside hit =>
    have hlife : Shared { g with life } := hs.lives <| by
      rcases hit with h | ⟨hlive, h⟩
      · exact .inl h.symm
      · exact .inr ⟨hlive, .inr ⟨_, h⟩⟩
    refine hlife.back ?_ _ _
    intro hasleep
    cases inside.symm.trans hasleep
  | reaps t c status x inside free ended known =>
    refine (hs.reap free ended known).back ?_ _ _
    intro hasleep
    cases inside.symm.trans hasleep
  | lives life gateBytes reportBytes hasFollowers e next shown =>
    exact (hs.lives next).channels g.gateOpen g.reportOpen hasFollowers gateBytes reportBytes
  | rings latch once sleepers =>
    exact ⟨hs.named, hs.absent, hs.gated, hs.told, hs.reaped, hs.inside, hs.held, hs.holder,
      hs.reaping, fun u hu => hs.sleeping u (sleepers u hu), once⟩
  | seizes status behind ended => exact hs.seize ended

/-- What every step keeps of a child and of what was seen of it, a run keeps. -/
theorem run_effects {P : Gated → List Action → List Entry → Prop} (hs : Shared g)
    (hstart : P g [] [])
    (heffect : ∀ acts u e a v e', run g acts = some (u, e) → Shared u → P u acts e →
      StepEffect u a v e' →
      P v (acts ++ [a]) (e ++ e'))
    (hr : run g acts = some (g', e)) : Shared g' ∧ P g' acts e := by
  refine Machine.run_invariant (P := fun u acts e => Shared u ∧ P u acts e) ⟨hs, hstart⟩ ?_ hr
  intro acts u e a v e' hsofar hboth hstep
  obtain ⟨hu, hp⟩ := hboth
  have hd := step_effect hu hstep
  exact ⟨hu.change (hd.change hu), heffect acts u e a v e' hsofar hu hp hd⟩

theorem run_changes {P : Gated → List Action → List Entry → Prop} (hs : Shared g) (hstart : P g [] [])
    (hchange : ∀ acts u e a v e', Shared u → P u acts e → Change u a v e' →
      P v (acts ++ [a]) (e ++ e'))
    (hr : run g acts = some (g', e)) : Shared g' ∧ P g' acts e :=
  run_effects hs hstart
    (fun acts u e a v e' _ hu hp hd => hchange acts u e a v e' hu hp (hd.change hu))
    hr

theorem run_shared (hr : run (ofCommand path operands mode) acts = some (g, e)) : Shared g :=
  (run_changes (P := fun _ _ _ => True) (ofCommand_shared path operands mode) trivial
    (fun _ _ _ _ _ _ _ _ _ => trivial) hr).1

end Gated

end Corun.Child
