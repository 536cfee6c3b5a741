import Corun.Proofs.Child.Wiring
import Corun.Proofs.Child.Yielding

namespace Corun.Child

/-- By how much the child is behind with its report: the steps that it has yet to take, and the bytes that
it may have to write. -/
def Life.owed : Life → Nat
  | forked => 8
  | gated => 7
  | released => 6
  | refused (_ :: unsent) => unsent.length + 2
  | _ => 0

namespace Gated
open Os Sync

variable {g g' u v : Gated} {t : Nat} {c call : Call} {s : Stage} {r : Result Answer} {a : Action}
  {e e' seen : List Entry} {acts more : List Action} {path : String}
  {operands : List String} {mode : KillMode} {refusal : Option Errno}

/-- Nobody but its owners signals the child, as long as its image is not that of the command. -/
def OnlyOwnersSignal (start : Gated) (acts : List Action) : Prop :=
  ∀ before signal after u e, acts = before ++ .child (.die signal) :: after →
    run start before = some (u, e) → u.life = .running

theorem OnlyOwnersSignal.before {start : Gated} {more : List Action}
    (h : OnlyOwnersSignal start (acts ++ more)) :
    OnlyOwnersSignal start acts := by
  intro before signal after u e hacts hu
  exact h before signal (after ++ more) u e (by simp [hacts]) hu

theorem OnlyOwnersSignal.last {start : Gated} (h : OnlyOwnersSignal start (acts ++ [a]))
    (hu : run start acts = some (u, e)) : ∀ signal, a = .child (.die signal) → u.life = .running := by
  intro signal ha
  exact h acts signal [] u e (by rw [ha]) hu

theorem OnlyOwnersSignal.append {start : Gated} (h : OnlyOwnersSignal start acts)
    (hmore : ∀ signal, .child (.die signal) ∉ more) : OnlyOwnersSignal start (acts ++ more) := by
  intro before signal after u e hacts hu
  rcases List.append_eq_append_iff.mp hacts with ⟨rest, hbefore, hrest⟩ | ⟨rest, hfirst, hrest⟩
  · refine absurd ?_ (hmore signal)
    rw [hrest]
    simp
  · cases rest with
    | nil =>
      refine absurd ?_ (hmore signal)
      have hmem : .child (.die signal) ∈ [] ++ more := hrest ▸ List.mem_cons_self
      exact hmem
    | cons b rest =>
      obtain ⟨rfl, -⟩ := List.cons.inj hrest
      exact h before signal rest u e hfirst hu

theorem run_wired (hr : run (ofCommand path operands mode) acts = some (g, e))
    (hunharmed : OnlyOwnersSignal (ofCommand path operands mode) acts) : Shared g ∧ Wired g e := by
  refine ⟨run_shared hr, ?_⟩
  refine (run_effects (P := fun u acts e => OnlyOwnersSignal (ofCommand path operands mode) acts →
    Wired u e)
    (ofCommand_shared path operands mode) (fun _ => ofCommand_wired) ?_ hr).2 hunharmed
  intro acts u e a v e' hu hs hsofar hd h
  exact (hsofar h.before).effect hs hd (h.last hu)

theorem StepEffect.executes (h : StepEffect g a g' e) (hx : .executed refusal ∈ e) :
    a = .child (.execute refusal) ∧ g.life = .released ∧ e = [.executed refusal] := by
  cases h with
  | moves m g' e does goesOn =>
    cases goesOn with
    | executes here | isRefused errno here =>
      obtain rfl := Entry.executed.inj (List.mem_singleton.mp hx)
      exact ⟨does, here, rfl⟩
    | _ => simp at hx
  | releases t g' e goesOn => cases goesOn <;> simp at hx
  | _ => simp at hx

theorem StepEffect.opens (h : StepEffect g a g' e) (hx : .released ∈ e) :
    ∃ t, g.pending? t = some ⟨.start, .releasing⟩ := by
  cases h with
  | moves m g' e does goesOn => cases goesOn <;> simp at hx
  | releases t g' e goesOn =>
    cases goesOn with
    | opens inside => exact ⟨t, inside⟩
    | _ => simp at hx
  | _ => simp at hx

theorem Wired.once (hw : Wired g seen) : (attempts seen).length ≤ 1 := by
  cases hw with
  | unborn _ untried | gated _ _ _ _ _ _ _ untried | spared _ _ _ untried
  | opened _ _ _ _ _ untried => simp [untried]
  | executed _ _ _ _ tried | refused _ _ _ _ tried => simp [tried]

/-- Killed before it was let through. -/
structure KilledAtGate (g : Gated) : Prop where
  here : g.life.spared = true
  phase : g.phase = .killed ∨ g.phase = .terminated
  gateBytes : g.gateBytes = []

theorem KilledAtGate.wiringUnchanged (h : KilledAtGate g) (hsame : WiringUnchanged g g') :
    KilledAtGate g' :=
  ⟨hsame.life ▸ h.here, hsame.phase ▸ h.phase, hsame.gateBytes.trans h.gateBytes⟩

/-- Once it is killed there, it will not try, and nobody will let it through. -/
theorem KilledAtGate.effect (h : KilledAtGate g) (hs : Shared g) (hd : StepEffect g a g' e) :
    KilledAtGate g' ∧ attempts e = [] ∧ .released ∉ e := by
  have hover : g.phase ≠ .notStarted ∧ g.phase ≠ .ready ∧ g.phase ≠ .running := by
    rcases h.phase with hp | hp <;> simp [hp]
  have hlife := h.here
  cases hd with
  | waitsOn t c s leads => exact ⟨h.wiringUnchanged (leads.wiringUnchanged hs), rfl, by simp⟩
  | answers t c r gives => exact ⟨h.wiringUnchanged (gives.wiringUnchanged hs), rfl, by simp⟩
  | latches g' rung => exact ⟨h.wiringUnchanged rung.wiringUnchanged, rfl, by simp⟩
  | creates t pid idle free unborn => exact absurd unborn hover.1
  | starts t idle free gated => exact absurd gated hover.2.1
  | releases t g' e goesOn =>
    obtain ⟨s, hin⟩ : ∃ s, g.pending? t = some ⟨.start, s⟩ := by
      cases goesOn <;> exact ⟨_, ‹_›⟩
    exact absurd (hs.starter hin).1 hover.2.2
  | kills t idle free alive =>
    rcases alive with hp | hp
    · exact absurd hp hover.2.1
    · exact absurd hp hover.2.2
  | signals t life sent r inside hit =>
    refine ⟨⟨?_, h.phase, h.gateBytes⟩, rfl, by simp⟩
    rcases hit with rfl | ⟨-, rfl⟩
    · exact hlife
    · rfl
  | reaps t c status x inside free ended => exact ⟨⟨rfl, .inr rfl, h.gateBytes⟩, rfl, by simp⟩
  | seizes status startStepsLeft ended => exact ⟨⟨rfl, h.phase, h.gateBytes⟩, rfl, by simp⟩
  | moves m g' e does goesOn =>
    cases goesOn with
    | settles | findsGateShut | dies => exact ⟨⟨rfl, h.phase, h.gateBytes⟩, rfl, by simp⟩
    | follows => exact ⟨⟨hlife, h.phase, h.gateBytes⟩, rfl, by simp⟩
    | passes byte rest here sent => cases h.gateBytes.symm.trans sent
    | executes here | isRefused _ here | reports _ here | reportsToNobody _ here | givesUp here
    | exits _ here =>
      rw [here] at hlife
      cases hlife

theorem KilledAtGate.along (h : KilledAtGate g) (hs : Shared g) (hr : run g acts = some (g', e)) :
    attempts e = [] ∧ .released ∉ e := by
  refine (run_effects (P := fun u _ e => KilledAtGate u ∧ attempts e = [] ∧ .released ∉ e) hs
    ⟨h, rfl, by simp⟩ ?_ hr).2.2
  intro acts u e a v e' _ hu hsofar hd
  obtain ⟨hspared, hsilent, hshut⟩ := hsofar
  obtain ⟨hnext, hsilent', hshut'⟩ := hspared.effect hu hd
  exact ⟨hnext, by rw [attempts_append, hsilent, hsilent', List.append_nil], by simp [hshut, hshut']⟩

/-- At its gate the child has not tried, nobody has let it through, and a kill spares it. -/
theorem Wired.killed (hs : Shared g) (hw : Wired g seen) (hready : g.phase = .ready)
    (h : g.step (.call t .kill) = some (g', e)) :
    KilledAtGate g' ∧ e = [] ∧ attempts seen = [] ∧ .released ∉ seen := by
  have hbegin : g.begin t .kill = some (g', e) := h
  unfold begin at hbegin
  split at hbegin
  · cases hbegin
  · obtain ⟨-, hkill⟩ := locked hbegin
    have hnamed := hs.known (by simp [hready])
    simp only [kill, hready, if_neg hnamed] at hkill
    cases hkill
    cases hw with
    | gated here phase stages gateBytes gateOpen reportBytes reportOpen untried shut =>
      refine ⟨⟨?_, .inl rfl, gateBytes⟩, rfl, untried, shut⟩
      rcases here with hl | hl <;> simp [Gated.place, hl, Life.spared]
    | unborn phase => cases phase.symm.trans hready
    | spared here phase | opened here phase | executed here phase | refused errno here phase =>
      simp [hready, Phase.Left] at phase

/-- Giving up a child that is at its gate begins with a kill. -/
theorem kill_of_given_up (hready : g.phase = .ready)
    (hcall : call = .kill ∨ g.giveUpCalls.head? = some call) : call = .kill := by
  rcases hcall with hkill | hfirst
  · exact hkill
  · simp only [giveUpCalls, hready, List.head?_cons, Option.some.injEq] at hfirst
    exact hfirst.symm

theorem run_path (hr : run (ofCommand path operands mode) acts = some (g, e)) : g.path = path := by
  refine (run_changes (P := fun u _ _ => u.path = path) (ofCommand_shared path operands mode) rfl ?_ hr).2
  intro acts u e a v e' _ hu hc
  refine Eq.trans ?_ hu
  cases hc <;> rfl

/-- Start is refused unless the child is ready, or comes back from where it has let the child through. -/
theorem StepEffect.start_returns (hs : Shared g) (h : StepEffect g a g' e)
    (hr : .returned t .start r ∈ e) :
    (g.pending? t = none ∧ g.phase ≠ .ready ∧ ∃ verb, r = Result.fail (.invalidState verb g.phase)) ∨
    ∃ t', StartStep g t' g' e := by
  cases h with
  | answers t' c r' gives =>
    obtain ⟨rfl, rfl, rfl⟩ := Entry.returned.inj (List.mem_singleton.mp hr)
    have hfits := hs.inside t
    cases gives with
    | refuses _ verb here undue =>
      rcases here with hidle | hin
      · exact .inl ⟨hidle, undue, verb, rfl⟩
      · exact absurd (hfits _ hin) (by simp [Pending.Fits])
    | tells _ x here =>
      rcases here with ⟨-, hc⟩ | hin | hin
      · cases hc
      · exact absurd (hfits _ hin) (by simp [Pending.Fits])
      · exact absurd (hfits _ hin) (by simp [Pending.Fits])
    | isLate _ _ _ hin | cannotTell _ _ _ hin | isRobbed _ _ _ hin =>
      exact absurd (hfits _ hin) (by simp [Pending.Fits])
  | releases t' g' e goesOn => exact .inr ⟨t', goesOn⟩
  | reaps t' c status x inside =>
    obtain ⟨rfl, rfl, -⟩ : t = t' ∧ .start = c ∧ r = .ok (.ended x) := by simpa using hr
    exact absurd (hs.inside t _ inside) (by simp [Pending.Fits])
  | moves m g' e does goesOn => cases goesOn <;> simp at hr
  | _ => simp at hr

/-- What was told stays true, since the child tries only once. -/
theorem ReportTold.later (h : ReportTold path (attempts e) r)
    (honce : (attempts (e ++ e')).length ≤ 1) :
    ReportTold path (attempts (e ++ e')) r := by
  have hone : (attempts e).length = 1 := by
    rcases h with ⟨htried, -⟩ | ⟨errno, told, htried, -⟩ <;> rw [htried] <;> rfl
  have hnone : attempts e' = [] := by
    rw [attempts_append, List.length_append] at honce
    exact List.eq_nil_of_length_eq_zero (by omega)
  rwa [attempts_append, hnone, List.append_nil]

/-- How a thread comes back from start in one step of a run. -/
theorem start_comes_back {before after : List Action}
    (hr : run (ofCommand path operands mode) (before ++ a :: after) = some (g, e))
    (hunharmed : OnlyOwnersSignal (ofCommand path operands mode) (before ++ a :: after))
    (hu : run (ofCommand path operands mode) before = some (u, seen)) (hstep : u.step a = some (v, e'))
    (hret : .returned t .start r ∈ e') :
    (u.pending? t = none ∧ u.phase ≠ .ready ∧ ∃ verb, r = Result.fail (.invalidState verb u.phase)) ∨
    (∃ s, u.pending? t = some ⟨.start, s⟩) ∧ ReportTold path (attempts e) r := by
  obtain ⟨hs, hw⟩ := run_wired hu hunharmed.before
  rcases (step_effect hs hstep).start_returns hs hret with hrefused | ⟨t', hgoes⟩
  · exact .inl hrefused
  · obtain ⟨rfl, -, htold⟩ := hw.told hs hgoes hret
    have hinside : ∃ s, u.pending? t = some ⟨.start, s⟩ := by
      cases hgoes <;> exact ⟨_, ‹_›⟩
    obtain ⟨u', seen', rest, hu', -, rfl⟩ := Machine.run_append.mp hr
    cases hu.symm.trans hu'
    rw [run_path hu] at htold
    exact .inr ⟨hinside, htold.later (run_wired hr hunharmed).2.once⟩

/-- The steps of a thread inside of start and of the child, when its command is refused so or not. -/
def IsStartStep (t : Nat) (refusal : Option Errno) (a : Action) : Prop :=
  a ∈ [Action.advance t, .receive t reportSize, .child .settle, .child .pass,
    .child (.execute refusal), .child .report]

/-- Nobody leaves start but by coming back. -/
theorem Change.stays (h : Change g a g' e) (hs : Shared g) (hin : g.pending? t = some ⟨.start, s⟩) :
    (∃ s', g'.pending? t = some ⟨.start, s'⟩) ∨ ∃ r, .returned t .start r ∈ e := by
  obtain ⟨-, hheld, halone⟩ := hs.starter hin
  have hbusy : g.holder ≠ none := by simp [hheld]
  cases h with
  | stages t' c s' latch gateOpen gateBytes reportBytes e leads =>
    refine .inl ?_
    rw [pending?_place]
    split
    · rename_i ht
      subst ht
      rcases leads.before with ⟨hidle, -⟩ | ⟨s'', hsame⟩
      · cases hidle.symm.trans hin
      · cases hsame.symm.trans hin
        exact ⟨s', rfl⟩
    · exact ⟨s, hin⟩
  | answers t' c r gives =>
    have hother : t ≠ t' := by
      rintro rfl
      exact gives.unheld hs hheld
    exact .inl ⟨s, by rw [pending?_back, if_neg hother, hin]⟩
  | endsStart t' r reportBytes inside =>
    obtain ⟨s', hin'⟩ := inside
    obtain ⟨rfl, -⟩ := halone t' s' hin'
    exact .inr ⟨r, by simp⟩
  | signals t' life sent r inside =>
    have hother : t ≠ t' := by
      rintro rfl
      cases inside.symm.trans hin
    refine .inl ⟨s, ?_⟩
    rw [pending?_back, if_neg hother]
    exact hin
  | creates t' pid idle free | starts t' idle free | kills t' idle free
  | reaps t' c status x inside free => exact absurd free hbusy
  | lives | rings | seizes => exact .inl ⟨s, hin⟩

/-- How far a thread inside of start is from coming back, when nobody but the child helps it. -/
def startStepsLeft (s : Stage) (g : Gated) : Nat := g.stepsToUnlock s + g.life.owed

/-- The thread or the child can take a step by which start comes back or comes closer to that. -/
def StartProgress (t : Nat) (s : Stage) (refusal : Option Errno) (g : Gated) : Prop :=
  ∃ a g' e, IsStartStep t refusal a ∧ g.step a = some (g', e) ∧
    ((∃ r, .returned t .start r ∈ e) ∨
      ∃ s', g'.pending? t = some ⟨.start, s'⟩ ∧ g'.startStepsLeft s' < g.startStepsLeft s)

theorem HolderProgress.startProgress (hn : HolderProgress t s g g' e) (hs : Shared g)
    (hin : g.pending? t = some ⟨.start, s⟩)
    (hown : IsStartStep t refusal a) (hstep : g.step a = some (g', e)) :
    StartProgress t s refusal g := by
  refine ⟨a, g', e, hown, hstep, ?_⟩
  have hc := step_change hs hstep
  rcases hc.stays hs hin with ⟨s', hin'⟩ | hback
  · rcases hn.nears with hfree | ⟨c, s'', -, hsame, hless⟩
    · have hheld := ((hs.change hc).starter hin').2.1
      cases hfree.symm.trans hheld
    · cases hsame.symm.trans hin'
      refine .inr ⟨s', hin', ?_⟩
      unfold startStepsLeft
      rw [hn.life]
      exact Nat.add_lt_add_right hless _
  · exact .inl hback

/-- The child goes on towards its report. -/
theorem move_startProgress {m : Child.Move} (hin : g.pending? t = some ⟨.start, s⟩)
    (hown : IsStartStep t refusal (.child m)) (hmove : g.move m = some (g', e))
    (hcalls : g'.calls = g.calls)
    (hless : g'.reportBytes.length + g'.life.owed < g.reportBytes.length + g.life.owed) :
    StartProgress t s refusal g := by
  refine ⟨.child m, g', e, hown, hmove, .inr ⟨s, ?_, ?_⟩⟩
  · unfold Gated.pending?
    rw [hcalls]
    exact hin
  · unfold startStepsLeft stepsToUnlock
    omega

theorem execute_startProgress (hin : g.pending? t = some ⟨.start, s⟩) (hl : g.life = .released)
    (refusal : Option Errno) : StartProgress t s refusal g := by
  cases refusal with
  | none =>
    have hmove : g.move (.execute none) = some ({ g with life := .running }, [.executed none]) := by
      simp [move, hl]
    exact move_startProgress hin (by simp [IsStartStep]) hmove rfl (by simp [hl, Life.owed])
  | some errno =>
    have hmove : g.move (.execute (some errno)) =
        some ({ g with life := .refused errno.recognized.toBytes }, [.executed (some errno)]) := by
      simp [move, hl]
    exact move_startProgress hin (by simp [IsStartStep]) hmove rfl
      (by simp [hl, Life.owed, Errno.toBytes])

/-- A report that is wholly unsent is sent. -/
theorem report_startProgress {b : UInt8} {unsent : List UInt8}
    (hin : g.pending? t = some ⟨.start, s⟩)
    (hl : g.life = .refused (b :: unsent)) (hopen : g.reportOpen = true) (refusal : Option Errno) :
    StartProgress t s refusal g := by
  have hmove : g.move .report =
      some ({ g with reportBytes := g.reportBytes ++ b :: unsent, life := .refused [] }, []) := by
    simp [move, hl, report, Channel.write, hopen]
  refine move_startProgress hin (by simp [IsStartStep]) hmove rfl ?_
  simp only [hl, Life.owed, List.length_append, List.length_cons]
  omega

/-- Whoever is inside of start waits for nobody but the child, and the child for nobody. -/
theorem Wired.startProgress (hs : Shared g) (hw : Wired g seen)
    (hin : g.pending? t = some ⟨.start, s⟩)
    (refusal : Option Errno) : StartProgress t s refusal g := by
  obtain ⟨hrunning, hheld, -⟩ := hs.starter hin
  have hreads : ∀ {bytes}, s = .reading bytes → g.report.blocks = false →
      StartProgress t s refusal g := by
    rintro bytes rfl hflows
    obtain ⟨g', e, hstep, hn⟩ := reading_holderProgress hheld hflows hin
    exact hn.startProgress hs hin (by simp [IsStartStep]) hstep
  have hcloses : s = .closing → StartProgress t s refusal g := by
    rintro rfl
    obtain ⟨g', hstep, hn⟩ := closing_holderProgress hheld hin
    exact hn.startProgress hs hin (by simp [IsStartStep]) hstep
  cases hw with
  | unborn phase => cases phase.symm.trans hrunning
  | spared here phase => simp [hrunning] at phase
  | gated here phase stages =>
    rcases stages t s hin with rfl | rfl
    · obtain ⟨g', hstep, hn⟩ := notifying_holderProgress hheld hin
      exact hn.startProgress hs hin (by simp [IsStartStep]) hstep
    · obtain ⟨g', e, hstep, hn⟩ := releasing_holderProgress hheld hin
      exact hn.startProgress hs hin (by simp [IsStartStep]) hstep
  | opened here phase stages =>
    rcases here with ⟨hl | hl, hbyte⟩ | ⟨hl, -⟩
    · have hmove : g.move .settle = some ({ g with life := .gated }, []) := by simp [move, hl]
      exact move_startProgress hin (by simp [IsStartStep]) hmove rfl (by simp [hl, Life.owed])
    · have hmove : g.move .pass = some ({ g with gateBytes := [], life := .released }, []) := by
        simp [move, hl, gate, Channel.blocks, Channel.read, hbyte]
      exact move_startProgress hin (by simp [IsStartStep]) hmove rfl (by simp [hl, Life.owed])
    · exact execute_startProgress hin hl refusal
  | executed here phase stages =>
    have hwriters : g.life.reportWriters = 0 := by
      rcases here with hl | ⟨status, hl⟩ | ⟨status, hl⟩ <;> rw [hl] <;> rfl
    rcases stages t s hin with hclosing | hreading
    · exact hcloses hclosing
    · exact hreads hreading (by simp [report, Channel.blocks, hwriters])
  | refused errno here phase stages =>
    obtain ⟨hstage, hbytes, hopen⟩ := stages t s hin
    rcases hstage with hclosing | ⟨bytes, hreading, hshort⟩
    · exact hcloses hclosing
    · rw [hreading] at hbytes
      cases hsent : g.reportBytes with
      | cons b rest => exact hreads hreading (by simp [report, Channel.blocks, hsent])
      | nil =>
        rcases here with ⟨unsent, hl⟩ | ⟨status, hl⟩ | ⟨status, hl⟩
        · cases unsent with
          | cons b unsent => exact report_startProgress hin hl hopen refusal
          | nil =>
            -- All is sent and nothing is there, so it would have been read.
            have hlength := congrArg List.length hbytes
            simp [hsent, hl, Stage.got, Life.unsent, Errno.toBytes] at hlength
            unfold reportSize at hshort
            omega
        · exact hreads hreading (by simp [report, Channel.blocks, hl, Life.reportWriters])
        · exact hreads hreading (by simp [report, Channel.blocks, hl, Life.reportWriters])

/-- A thread inside of start gets to a step with which it comes back. -/
theorem Wired.returns (hs : Shared g) (hw : Wired g seen) (hin : g.pending? t = some ⟨.start, s⟩)
    (refusal : Option Errno) : ∃ more u s' e a g' e' r, run g more = some (u, e) ∧
      u.pending? t = some ⟨.start, s'⟩ ∧ u.step a = some (g', e') ∧
      (∀ b ∈ more ++ [a], IsStartStep t refusal b) ∧ .returned t .start r ∈ e' := by
  induction hn : g.startStepsLeft s using Nat.strongRecOn generalizing g seen s with
  | ind n ih =>
    obtain ⟨a, g₁, e₁, hown, hstep, hnext⟩ := hw.startProgress hs hin refusal
    have hd := step_effect hs hstep
    rcases hnext with ⟨r, hret⟩ | ⟨s₁, hin₁, hless⟩
    · exact ⟨[], g, s, [], a, g₁, e₁, r, rfl, hin, hstep, by simpa using hown, hret⟩
    · have hw₁ : Wired g₁ (seen ++ e₁) := by
        apply hw.effect hs hd
        rintro signal rfl
        simp [IsStartStep] at hown
      obtain ⟨more, u, s', e, b, g', e', r, hrest, hin', hlast, hmore, hret⟩ :=
        ih (g₁.startStepsLeft s₁) (hn ▸ hless) (hs.change (hd.change hs)) hw₁ hin₁ rfl
      refine ⟨a :: more, u, s', e₁ ++ e, b, g', e', r, ?_, hin', hlast, ?_, hret⟩
      · exact Machine.run_cons.mpr ⟨g₁, e₁, e, hstep, hrest, rfl⟩
      · intro x hx
        rcases List.mem_cons.mp hx with rfl | hx
        · exact hown
        · exact hmore x hx

theorem IsStartStep.unharmed (hmore : ∀ a ∈ more, IsStartStep t refusal a) (signal : Nat) :
    .child (.die signal) ∉ more := by
  intro hmem
  have hown := hmore _ hmem
  simp [IsStartStep] at hown

/-- What start and the child have to do with each other in a run. -/
structure Handshake (start : Gated) (acts : List Action) (g : Gated) (e : List Entry) : Prop where
  once : (attempts e).length ≤ 1
  /-- The child tries to execute its command only after it was let through. -/
  after : ∀ refusal e₁ e₂, e = e₁ ++ .executed refusal :: e₂ → .released ∈ e₁
  /-- Only a thread inside of start lets it through. -/
  opens : ∀ before a after u v e₁ e₂, acts = before ++ a :: after →
    run start before = some (u, e₁) → u.step a = some (v, e₂) → .released ∈ e₂ →
    ∃ t, u.pending? t = some ⟨.start, .releasing⟩
  /-- A child that is killed or given up while it is at its gate never tries. -/
  spared : ∀ before t call after u e₁, acts = before ++ .call t call :: after →
    run start before = some (u, e₁) → u.phase = .ready →
    call = .kill ∨ u.giveUpCalls.head? = some call → attempts e = [] ∧ .released ∉ e
  /-- Start is refused if the child is not at its gate, and else tells what became of the attempt. -/
  told : ∀ before a after u v e₁ e₂ t r, acts = before ++ a :: after →
    run start before = some (u, e₁) → u.step a = some (v, e₂) → .returned t .start r ∈ e₂ →
    (u.pending? t = none ∧ u.phase ≠ .ready ∧
      ∃ verb, r = Result.fail (.invalidState verb u.phase)) ∨
    (∃ s, u.pending? t = some ⟨.start, s⟩) ∧ ReportTold start.path (attempts e) r
  /-- It comes back when nobody but the child goes on, whatever will become of the attempt. -/
  returns : ∀ t s refusal, g.pending? t = some ⟨.start, s⟩ →
    ∃ more g' e' r, run g more = some (g', e') ∧ (∀ a ∈ more, IsStartStep t refusal a) ∧
      .returned t .start r ∈ e' ∧ ReportTold start.path (attempts (e ++ e')) r

/-- Whatever threads do with a child that nobody but they signal before it has executed its command. -/
theorem start_learns_what_became_of_child
    (hr : run (ofCommand path operands mode) acts = some (g, e))
    (hunharmed : OnlyOwnersSignal (ofCommand path operands mode) acts) :
    Handshake (ofCommand path operands mode) acts g e := by
  obtain ⟨hs, hw⟩ := run_wired hr hunharmed
  refine ⟨hw.once, ?_, ?_, ?_, ?_, ?_⟩
  · rintro refusal e₁ e₂ rfl
    obtain ⟨before, a, after, u, v, f₁, f₂, e₃, e₄, rfl, hu, hstep, rfl, rfl⟩ :=
      Machine.step_of_split hr
    obtain ⟨hsu, hwu⟩ := run_wired hu hunharmed.before
    have hmem : .executed refusal ∈ e₃ ++ .executed refusal :: e₄ := by simp
    obtain ⟨-, hl, -⟩ := (step_effect hsu hstep).executes hmem
    obtain ⟨-, -, -, -, -, hopened⟩ := hwu.past_gate hsu hl
    exact List.mem_append_left _ hopened
  · rintro before a after u v e₁ e₂ rfl hu hstep hopened
    exact (step_effect (run_shared hu) hstep).opens hopened
  · rintro before t call after u e₁ rfl hu hready hcall
    obtain rfl := kill_of_given_up hready hcall
    obtain ⟨hsu, hwu⟩ := run_wired hu hunharmed.before
    obtain ⟨u', e₂, e₃, hu', hrest, rfl⟩ := Machine.run_append.mp hr
    cases hu.symm.trans hu'
    obtain ⟨v, e₄, e₅, hstep, hafter, rfl⟩ := Machine.run_cons.mp hrest
    obtain ⟨hspared, rfl, huntried, hshut⟩ := hwu.killed hsu hready hstep
    have hsv := hsu.change (step_change hsu hstep)
    obtain ⟨hsilent, hstays⟩ := hspared.along hsv hafter
    exact ⟨by simp [huntried, hsilent], by simp [hshut, hstays]⟩
  · rintro before a after u v e₁ e₂ t r rfl hu hstep hret
    exact start_comes_back hr hunharmed hu hstep hret
  · intro t s refusal hin
    obtain ⟨more, u, s', e₁, a, g', e₂, r, hmore, hin', hlast, hown, hret⟩ := hw.returns hs hin refusal
    have hall : run g (more ++ [a]) = some (g', e₁ ++ (e₂ ++ [])) :=
      Machine.run_append.mpr ⟨u, e₁, _, hmore, Machine.run_cons.mpr ⟨g', e₂, [], hlast, rfl, rfl⟩, rfl⟩
    have hwhole : run (ofCommand path operands mode) (acts ++ (more ++ [a])) =
        some (g', e ++ (e₁ ++ (e₂ ++ []))) := Machine.run_append.mpr ⟨g, e, _, hr, hall, rfl⟩
    have hu : run (ofCommand path operands mode) (acts ++ more) = some (u, e ++ e₁) :=
      Machine.run_append.mpr ⟨g, e, e₁, hr, hmore, rfl⟩
    refine ⟨more ++ [a], g', _, r, hall, hown, by simp [hret], ?_⟩
    have hsplit : acts ++ (more ++ [a]) = (acts ++ more) ++ a :: [] := by simp
    have hback :=
      start_comes_back (hsplit ▸ hwhole) (hsplit ▸ hunharmed.append (IsStartStep.unharmed hown))
      hu hlast hret
    rcases hback with ⟨hidle, -⟩ | ⟨-, htold⟩
    · cases hidle.symm.trans hin'
    · exact htold

/-- Start reads in two parts that there is no such file. -/
theorem start_learns_of_missing_file :
    let acts : List Action := [.call 0 (.create (.ok 7)), .call 0 .start, .advance 0, .advance 0,
      .child .settle, .advance 0, .child .pass, .child (.execute (some ⟨2⟩)), .child .report,
      .receive 0 3, .receive 0 3]
    ∃ g e, run (ofCommand "/bin/none" [] .single) acts = some (g, e) ∧ attempts e = [some ⟨2⟩] ∧
      e.getLast? = some (.returned 0 .start (Result.fail (.execFailed "/bin/none" ⟨2⟩))) ∧
      Handshake (ofCommand "/bin/none" [] .single) acts g e := by
  intro acts
  have hunharmed : OnlyOwnersSignal (ofCommand "/bin/none" [] .single) acts := by
    intro before signal after u e hacts
    have hmem : .child (.die signal) ∈ acts := by simp [hacts]
    simp [acts] at hmem
  have hcarried : Errno.ofBytes (Errno.toBytes (Errno.recognized ⟨2⟩)) = ⟨2⟩ :=
    (Errno.ofBytes_toBytes_recognized ⟨2⟩).trans (Errno.recognized_of_known rfl)
  refine ⟨_, _, rfl, rfl, ?_, start_learns_what_became_of_child rfl hunharmed⟩
  exact congrArg
    (fun errno => some (Entry.returned 0 .start (Result.fail (.execFailed "/bin/none" errno)))) hcarried

end Gated

end Corun.Child
