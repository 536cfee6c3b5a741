import Corun.Proofs.Child.Shared

namespace Corun.Child

/-- How many steps start and kill have to take, apart from those that read the report. -/
def Stage.left : Stage → Nat
  | notifying => 3
  | releasing => 2
  | closing => 1
  | _ => 0

theorem Life.reportWriters_of_dead {life : Life} (h : life.isLive = false) : life.reportWriters = 0 := by
  cases life <;> simp_all [isLive, reportWriters]

namespace Gated
open Os Sync

variable {g g' : Gated} {t u : Nat} {c : Call} {s s' : Stage} {r : Result Answer} {a : Action}
  {e e' : List Entry}

theorem returned?_append (t : Nat) (e e' : List Entry) :
    returned? t (e ++ e') = (returned? t e).or (returned? t e') := List.findSome?_append

/-- How far a thread at a stage is from giving the lock up. -/
def stepsToUnlock (s : Stage) (g : Gated) : Nat := s.left + g.reportBytes.length

/-- The thread that holds the lock takes a step by which it gives the lock up or comes closer to that. -/
structure HolderProgress (u : Nat) (s : Stage) (g g' : Gated) (e : List Entry) : Prop where
  life : g'.life = g.life
  others : ∀ v, v ≠ u → g'.pending? v = g.pending? v ∧ returned? v e = none
  nears : g'.holder = none ∨
    ∃ c s', g'.holder = some u ∧ g'.pending? u = some
      ⟨c, s'⟩ ∧ g'.stepsToUnlock s' < g.stepsToUnlock s

theorem HolderProgress.place (hheld : g.holder = some u) (latch : Latch) (gateOpen : Bool)
    (gateBytes reportBytes : List UInt8) (c : Call)
    (hless : s'.left + reportBytes.length < g.stepsToUnlock s) (he : e = [] ∨ e = [.released]) :
    HolderProgress u s g ({ g with latch, gateOpen, gateBytes, reportBytes }.place u c s') e := by
  refine ⟨rfl, ?_, .inr ⟨c, s', hheld, ?_, hless⟩⟩
  · intro v hv
    rw [pending?_place, if_neg hv]
    refine ⟨rfl, ?_⟩
    rcases he with rfl | rfl <;> rfl
  · rw [pending?_place, if_pos rfl]

theorem HolderProgress.back (hheld : g.holder = some u) (gateOpen reportOpen : Bool)
    (reportBytes : List UInt8)
    (c : Call) (r : Result Answer) (he : e = [] ∨ ∃ m sent, e = [.signaled m sent]) :
    HolderProgress u s g ({ g with gateOpen, reportOpen, reportBytes }.back u c r).1
      (e ++ [.returned u c r]) := by
  refine ⟨rfl, ?_, .inl ?_⟩
  · intro v hv
    rw [pending?_back, if_neg hv, returned?_append, returned?_returned, if_neg (Ne.symm hv)]
    refine ⟨rfl, ?_⟩
    rcases he with rfl | ⟨m, sent, rfl⟩ <;> rfl
  · simp [Gated.back, hheld]

theorem notifying_holderProgress (hheld : g.holder = some u)
    (hin : g.pending? u = some ⟨c, .notifying⟩) :
    ∃ g', g.step (.advance u) = some (g', []) ∧ HolderProgress u .notifying g g' [] := by
  have hnext : ∃ s', Stage.left s' < Stage.left .notifying ∧ g.step (.advance u) =
      some ({ g with latch := ⟨true, g.latch.bell.announce⟩ }.place u c s', []) := by
    cases c with
    | start => exact ⟨.releasing, by decide, by simp [step, advance, hin, Latch.step]⟩
    | create | wait | await | kill | pid | status =>
      exact ⟨.signaling, by decide, by simp [step, advance, hin, Latch.step]⟩
  obtain ⟨s', hless, hstep⟩ := hnext
  refine ⟨_, hstep, .place hheld _ g.gateOpen g.gateBytes g.reportBytes c ?_ (.inl rfl)⟩
  exact Nat.add_lt_add_right hless _

theorem releasing_holderProgress (hheld : g.holder = some u)
    (hin : g.pending? u = some ⟨c, .releasing⟩) :
    ∃ g' e, g.step (.advance u) = some (g', e) ∧ HolderProgress u .releasing g g' e := by
  have hstep : g.step (.advance u) = some (g.openGate u) := by simp [step, advance, hin]
  unfold openGate at hstep
  split at hstep
  · rename_i count gate hwrite
    refine ⟨_, _, hstep, .place hheld g.latch g.gateOpen gate.bytes g.reportBytes .start ?_ (.inr rfl)⟩
    simp [stepsToUnlock, Stage.left]
  · exact ⟨_, _, hstep, .back hheld false false g.reportBytes .start _ (.inl rfl)⟩

theorem closing_holderProgress (hheld : g.holder = some u)
    (hin : g.pending? u = some ⟨c, .closing⟩) :
    ∃ g', g.step (.advance u) = some (g', []) ∧ HolderProgress u .closing g g' [] := by
  have hstep : g.step (.advance u) =
      some ({ g with gateOpen := false }.place u c (.reading []), []) := by
    simp [step, advance, hin]
  refine ⟨_, hstep, .place hheld g.latch false g.gateBytes g.reportBytes c ?_ (.inl rfl)⟩
  simp [stepsToUnlock, Stage.left]

theorem report_flows_of_dead (hdead : g.life.isLive = false) : g.report.blocks = false := by
  simp [report, Channel.blocks, Life.reportWriters_of_dead hdead]

/-- A report that has something in it or is not written any more is read on or comes to its end. -/
theorem reading_holderProgress {bytes : List UInt8} (hheld : g.holder = some u)
    (hflowing : g.report.blocks = false) (hin : g.pending? u = some ⟨c, .reading bytes⟩) :
    ∃ g' e, g.step (.receive u reportSize) = some (g', e) ∧
      HolderProgress u (.reading bytes) g g' e := by
  have hflows : ¬ (g.report.blocks = true ∨ reportSize = 0) := by simp [hflowing, reportSize]
  have hstep : g.step (.receive u reportSize) = g.receive u reportSize := rfl
  simp only [receive, hin, if_neg hflows] at hstep
  split at hstep
  · exact ⟨_, _, hstep, .back hheld false false _ .start _ (.inl rfl)⟩
  · split at hstep
    · exact ⟨_, _, hstep, .back hheld false false _ .start _ (.inl rfl)⟩
    · rename_i hmore
      refine ⟨_, _, hstep, .place hheld g.latch g.gateOpen g.gateBytes _ .start ?_ (.inl rfl)⟩
      have hchunk : g.reportBytes.take (min reportSize (reportSize - bytes.length)) ≠ [] := hmore
      have hsome : g.reportBytes ≠ [] := by
        intro hnone
        rw [hnone, List.take_nil] at hchunk
        exact hchunk rfl
      have hcount : min reportSize (reportSize - bytes.length) ≠ 0 := by
        intro hzero
        rw [hzero, List.take_zero] at hchunk
        exact hchunk rfl
      have hlength := List.length_pos_of_ne_nil hsome
      simp only [report, Channel.read, stepsToUnlock, Stage.left, List.length_drop]
      omega

theorem signaling_holderProgress (hheld : g.holder = some u) (hborn : g.life ≠ .absent)
    (hdead : g.life.isLive = false) (hin : g.pending? u = some ⟨c, .signaling⟩) :
    ∃ g' e, g.step (.advance u) = some (g', e) ∧ HolderProgress u .signaling g g' e := by
  have hstep : g.step (.advance u) = some (g.signal u none) := by simp [step, advance, hin]
  obtain ⟨life, sent, hsend, hhit, -⟩ := send_cases none hborn
  obtain rfl : g.life = life := by
    rcases hhit with hsame | ⟨hlive, -⟩
    · exact hsame
    · rw [hdead] at hlive
      cases hlive
  simp only [signal, hsend] at hstep
  exact ⟨_, _, hstep, .back hheld g.gateOpen g.reportOpen g.reportBytes .kill _
    (.inr ⟨g.killMode, sent, rfl⟩)⟩

/-- Whoever holds the lock is not kept from its next step. -/
theorem Shared.holder_holderProgress (hs : Shared g) (hheld : g.holder = some u)
    (hdead : g.life.isLive = false)
    (hin : g.pending? u = some ⟨c, s⟩) :
    ∃ a g' e, a ≠ .seize ∧ g.step a = some (g', e) ∧ HolderProgress u s g g' e := by
  have hfits := hs.inside u _ hin
  obtain ⟨p, hp, hc⟩ := hs.holder u hheld
  cases hin.symm.trans hp
  cases s with
  | notifying =>
    obtain ⟨g', hstep, hprogress⟩ := notifying_holderProgress hheld hin
    exact ⟨.advance u, g', [], by simp, hstep, hprogress⟩
  | releasing =>
    obtain ⟨g', e, hstep, hprogress⟩ := releasing_holderProgress hheld hin
    exact ⟨.advance u, g', e, by simp, hstep, hprogress⟩
  | closing =>
    obtain ⟨g', hstep, hprogress⟩ := closing_holderProgress hheld hin
    exact ⟨.advance u, g', [], by simp, hstep, hprogress⟩
  | reading bytes =>
    obtain ⟨g', e, hstep, hprogress⟩ :=
      reading_holderProgress hheld (report_flows_of_dead hdead) hin
    exact ⟨.receive u reportSize, g', e, by simp, hstep, hprogress⟩
  | signaling =>
    obtain rfl : c = .kill := hfits.call
    obtain ⟨g', e, hstep, hprogress⟩ :=
      signaling_holderProgress hheld (hs.signaled_born hin) hdead hin
    exact ⟨.advance u, g', e, by simp, hstep, hprogress⟩
  | observing | reaping | checking | approaching | asleep | past | asking =>
    rw [hfits.holds] at hc
    cases hc

/-- The lock can be freed without anybody else taking a step. -/
theorem Shared.lock_freed (hs : Shared g) (hdead : g.life.isLive = false) :
    ∃ acts g' e, run g acts = some (g', e) ∧ (∀ a ∈ acts, a ≠ .seize) ∧ g'.holder = none ∧
      g'.life = g.life ∧
      ∀ v, g.holder ≠ some v → g'.pending? v = g.pending? v ∧ returned? v e = none := by
  cases hholder : g.holder with
  | none => exact ⟨[], g, [], rfl, by simp, hholder, rfl, fun v _ => ⟨rfl, rfl⟩⟩
  | some u =>
    obtain ⟨⟨c, s⟩, hin, -⟩ := hs.holder u hholder
    -- By how far the holder is from giving the lock up.
    induction hn : g.stepsToUnlock s using Nat.strongRecOn generalizing g c s with
    | ind n ih =>
      obtain ⟨a, g₁, e₁, ha, hstep, hprogress⟩ := hs.holder_holderProgress hholder hdead hin
      have hs₁ : Shared g₁ := hs.change (step_change hs hstep)
      have hdead₁ : g₁.life.isLive = false := by rw [hprogress.life, hdead]
      have hothers : ∀ v, some u ≠ some v → g₁.pending? v = g.pending? v ∧ returned? v e₁ = none := by
        intro v hv
        apply hprogress.others
        rintro rfl
        exact hv rfl
      rcases hprogress.nears with hfree | ⟨c', s', hheld₁, hin₁, hless⟩
      · refine ⟨[a], g₁, e₁, ?_, by simpa using ha, hfree, hprogress.life, hothers⟩
        exact Machine.run_cons.mpr ⟨g₁, e₁, [], hstep, rfl, (List.append_nil e₁).symm⟩
      · obtain ⟨acts, g₂, e₂, hrest, hacts, hfree, hlife, hsame⟩ :=
          ih (g₁.stepsToUnlock s') (hn ▸ hless) hs₁ hdead₁ hheld₁ c' s' hin₁ rfl
        refine ⟨a :: acts, g₂, e₁ ++ e₂, ?_, ?_, hfree, hlife.trans hprogress.life, ?_⟩
        · exact Machine.run_cons.mpr ⟨g₁, e₁, e₂, hstep, hrest, rfl⟩
        · simpa using ⟨ha, hacts⟩
        · intro v hv
          obtain ⟨hp₁, hr₁⟩ := hothers v hv
          obtain ⟨hp₂, hr₂⟩ := hsame v hv
          exact ⟨hp₂.trans hp₁, by rw [returned?_append, hr₁, hr₂]; rfl⟩

end Gated

end Corun.Child
