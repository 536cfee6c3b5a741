import Corun.Proofs.Child.Shared

namespace Corun.Child

/-- Where a child comes to from a phase. -/
def Phase.Next (phase later : Phase) : Prop :=
  match phase with
  | .notStarted => later = .ready
  | .ready => later = .running ∨ later = .killed
  | .running => later = .killed ∨ later = .terminated
  | .killed => later = .terminated
  | .terminated => False

/-- The record lacks something that its phase calls for. -/
def RecordLacks : Cause → Prop
  | .noPid | .gateUsed | .statusPipeUsed => True
  | _ => False

namespace Gated
open Os Sync

variable {g g' : Gated} {t u : Nat} {c : Call} {s : Stage} {r : Result Answer} {a : Action}
  {e seen : List Entry} {acts : List Action} {path : String} {operands : List String}
  {mode : KillMode} {x : Termination}

/-- What a call gave back is what the record says, and nothing is missing there. Only forking may fail
with anything. -/
def AnswerAgrees (g : Gated) (c : Call) : Result Answer → Prop
  | .ok .done => True
  | .ok (.pid pid) => g.pid? = some pid
  | .ok (.ended x) => g.termination? = some x
  | .error (.failed f) => RecordLacks f.cause → c = .create (.error f)
  | .error (.panicked _) => False

theorem Change.phase_moves (hs : Shared g) (h : Change g a g' e) :
    g'.phase = g.phase ∨ g.phase.Next g'.phase := by
  cases h with
  | stages | answers | endsStart | signals | lives | rings | seizes => exact .inl rfl
  | creates t pid idle free unborn =>
    rw [unborn]
    exact .inr rfl
  | starts t idle free gated =>
    rw [gated]
    exact .inr (.inl rfl)
  | kills t idle free alive =>
    rcases alive with hp | hp
    · rw [hp]
      exact .inr (.inr rfl)
    · rw [hp]
      exact .inr (.inl rfl)
  | reaps t c status x inside free ended known =>
    obtain ⟨-, hp | hp | hp⟩ := (hs.inside t _ inside).waits (.inr rfl)
    · rw [hp]
      exact .inr (.inr rfl)
    · rw [hp]
      exact .inr rfl
    · exact .inl hp.symm

/-- A pid is recorded once, by the call that creates the child. -/
theorem Change.names (hs : Shared g) (h : Change g a g' e) : g'.pid? = g.pid? ∨
    g.pid? = none ∧ ∃ t pid, g'.pid? = some pid ∧
      e = [.returned t (.create (.ok pid)) (.ok (.pid pid))] := by
  cases h with
  | creates t pid idle free unborn => exact .inr ⟨hs.named.mpr unborn, t, pid, rfl, rfl⟩
  | stages | answers | starts | endsStart | kills | signals | reaps | lives | rings | seizes =>
    exact .inl rfl

/-- An end is recorded once, by a call that has waited for it. -/
theorem Change.tells (hs : Shared g) (h : Change g a g' e) : g'.termination? = g.termination? ∨
    g.termination? = none ∧ ∃ t c x status, (c = .wait ∨ c = .await) ∧ g'.termination? = some x ∧
      e = [.reaped status, .returned t c (.ok (.ended x))] := by
  cases h with
  | reaps t c status x inside free ended known =>
    have hunended : g.termination? = none := by
      cases hx : g.termination? with
      | none => rfl
      | some x =>
        obtain ⟨status, hl, -⟩ := hs.reaped (hs.told.mp ⟨x, hx⟩)
        rw [ended] at hl
        cases hl
    obtain ⟨hwaits, -⟩ := (hs.inside t _ inside).waits (.inr rfl)
    exact .inr ⟨hunended, t, c, x, status, hwaits, rfl, rfl⟩
  | stages | answers | creates | starts | endsStart | kills | signals | lives | rings | seizes =>
    exact .inl rfl

theorem Change.keeps_pid {pid : Pid} (hs : Shared g) (h : Change g a g' e)
    (hpid : g.pid? = some pid) : g'.pid? = some pid := by
  rcases h.names hs with hsame | ⟨hnone, -⟩
  · exact hsame.trans hpid
  · rw [hpid] at hnone
    cases hnone

theorem Change.keeps_termination (hs : Shared g) (h : Change g a g' e)
    (hx : g.termination? = some x) : g'.termination? = some x := by
  rcases h.tells hs with hsame | ⟨hnone, -⟩
  · exact hsame.trans hx
  · rw [hx] at hnone
    cases hnone

theorem AnswerAgrees.later (hr : g.AnswerAgrees c r) (hs : Shared g) (h : Change g a g' e) :
    g'.AnswerAgrees c r := by
  match r with
  | .ok .done => trivial
  | .ok (.pid _) => exact h.keeps_pid hs hr
  | .ok (.ended _) => exact h.keeps_termination hs hr
  | .error (.failed _) => exact hr
  | .error (.panicked _) => exact hr.elim

theorem Answers.answerAgrees (h : Answers g t c r) : g.AnswerAgrees c r := by
  cases h with
  | cannotFork f => exact fun _ => rfl
  | spares => trivial
  | names pid _ _ known => exact known
  | tells c x _ _ known => exact known
  | refuses | overtaken | isLate | cannotTell | isRobbed => exact False.elim

/-- A call that comes back. Start and kill fail only with what the system, or the child, has told them. -/
inductive Returns (g g' : Gated) (t : Nat) : Call → Result Answer → Prop where
  | answered (c : Call) (r : Result Answer) (gives : Answers g t c r)
      (leaves : g' = (g.back t c r).1) : Returns g g' t c r
  | created (pid : Pid) (known : g'.pid? = some pid) :
    Returns g g' t (.create (.ok pid)) (.ok (.pid pid))
  | done (c : Call) (holds : c.holds = true) : Returns g g' t c (.ok .done)
  | failed (c : Call) (f : Failure) (holds : c.holds = true)
      (told : (∃ errno, f.cause = .system errno) ∨ ∃ path errno, f.cause = .execFailed path errno) :
    Returns g g' t c (.error (.failed f))
  | reaped (c : Call) (x : Termination) (known : g'.termination? = some x) :
    Returns g g' t c (.ok (.ended x))

theorem Change.returned (h : Change g a g' e) (hr : .returned t c r ∈ e) : Returns g g' t c r := by
  cases h with
  | stages _ _ _ _ _ _ _ _ _ _ _ shown => rcases shown with rfl | rfl <;> simp at hr
  | answers t c r gives =>
    cases List.mem_singleton.mp hr
    exact .answered c r gives rfl
  | creates t pid =>
    cases List.mem_singleton.mp hr
    exact .created pid rfl
  | endsStart t r reportBytes inside gives =>
    cases List.mem_singleton.mp hr
    obtain rfl | ⟨f, errno, rfl, hf⟩ := gives
    · exact .done .start rfl
    · exact .failed .start f rfl (hf.imp (fun h => ⟨errno, h⟩) fun h => ⟨g.path, errno, h⟩)
  | signals t life sent r inside hit sends gives =>
    simp only [List.mem_cons, reduceCtorEq, List.not_mem_nil, or_false, false_or] at hr
    cases hr
    obtain rfl | ⟨f, errno, rfl, hf⟩ := gives
    · exact .done .kill rfl
    · exact .failed .kill f rfl (.inl ⟨errno, hf⟩)
  | reaps t c status x =>
    simp only [List.mem_cons, reduceCtorEq, List.not_mem_nil, or_false, false_or] at hr
    cases hr
    exact .reaped c x rfl
  | lives _ _ _ _ _ _ shown =>
    obtain ⟨refusal, hx⟩ := shown _ hr
    cases hx
  | starts | kills | rings | seizes => simp at hr

theorem Returns.answerAgrees (h : Returns g g' t c r) : g'.AnswerAgrees c r := by
  cases h with
  | answered c r gives leaves =>
    have hagrees := gives.answerAgrees
    rw [leaves]
    cases r with
    | ok answer => cases answer <;> exact hagrees
    | error stop => cases stop <;> exact hagrees
  | created pid known => exact known
  | done => trivial
  | failed c f holds told =>
    intro hlacks
    rcases told with ⟨errno, hf⟩ | ⟨path, errno, hf⟩ <;> rw [hf] at hlacks <;> exact hlacks.elim
  | reaped c x known => exact known

theorem without_absent {calls : List (Nat × Pending)} (h : calls.lookup t = none) :
    without t calls = calls := by
  apply List.filter_eq_self.mpr
  intro p hp
  have hne := List.lookup_eq_none_iff.mp h p hp
  simpa [bne, BEq.comm] using hne

/-- Whoever does not hold the lock leaves nothing behind but the call. -/
theorem back_unheld (h : g.holder ≠ some t) (c : Call) (r : Result Answer) :
    (g.back t c r).1 = { g with calls := without t g.calls } := by
  simp [Gated.back, h]

theorem Shared.unheld (hs : Shared g) (h : ∀ p, g.pending? t = some p → p.call.holds = false) :
    g.holder ≠ some t := by
  intro hheld
  obtain ⟨p, hp, hc⟩ := hs.holder t hheld
  rw [h p hp] at hc
  cases hc

theorem Shared.back_idle (hs : Shared g) (hidle : g.pending? t = none) (c : Call)
    (r : Result Answer) : g.back t c r = (g, [.returned t c r]) := by
  have hheld : g.holder ≠ some t := hs.unheld (by simp [hidle])
  have hcalls : without t g.calls = g.calls := without_absent hidle
  simp [Gated.back, hheld, hcalls]

theorem Shared.pid_call (hs : Shared g) (hidle : g.pending? t = none) (hfree : g.holder = none) :
    (∃ pid, Call.Due g.phase .pid ∧ g.pid? = some pid ∧
      g.step (.call t .pid) = some (g, [.returned t .pid (.ok (.pid pid))])) ∨
    ¬ Call.Due g.phase .pid ∧ g.step (.call t .pid) =
      some (g, [.returned t .pid (Result.fail (.invalidState "query the pid of" g.phase))]) := by
  have hcall : g.step (.call t .pid) = some (g.pid t) := by
    change g.begin t .pid = some (g.pid t)
    unfold begin
    rw [if_neg (by simp [hidle])]
    exact if_neg (by simp [hfree])
  rw [hcall]
  rcases pid_cases hs t with ⟨pid, hdue, hpid, hanswer⟩ | ⟨hundue, hanswer⟩
  · rw [hanswer, hs.back_idle hidle]
    exact .inl ⟨pid, hdue, hpid, rfl⟩
  · rw [hanswer, invalid, hs.back_idle hidle]
    exact .inr ⟨hundue, rfl⟩

theorem Shared.status_call (hs : Shared g) (hidle : g.pending? t = none) (hfree : g.holder = none) :
    (∃ x, g.phase = .terminated ∧ g.termination? = some x ∧
      g.step (.call t .status) = some (g, [.returned t .status (.ok (.ended x))])) ∨
    g.phase ≠ .terminated ∧ g.step (.call t .status) = some (g, [.returned t .status
      (Result.fail (.invalidState "query the termination status of" g.phase))]) := by
  have hcall : g.step (.call t .status) = some (g.status t .status) := by
    change g.begin t .status = some (g.status t .status)
    unfold begin
    rw [if_neg (by simp [hidle])]
    exact if_neg (by simp [hfree])
  rw [hcall]
  rcases status_cases hs t .status with ⟨x, hended, hx, hanswer⟩ | ⟨hundue, hanswer⟩
  · rw [hanswer, hs.back_idle hidle]
    exact .inl ⟨x, hended, hx, rfl⟩
  · rw [hanswer, invalid, hs.back_idle hidle]
    exact .inr ⟨hundue, rfl⟩

/-- No call to create is left inside. -/
theorem Shared.not_creating (hs : Shared g) (fork : Except Failure Pid) (s : Stage) :
    g.pending? t ≠ some ⟨.create fork, s⟩ := by
  intro hin
  have hcall := (hs.inside t _ hin).call
  cases s <;> simp [Stage.Of] at hcall

/-- Whoever is answered holds no lock: only start and kill hold it, and what they come back with is not
among the answers that leave the record as it is. -/
theorem Answers.unheld (hs : Shared g) (h : Answers g t c r) : g.holder ≠ some t := by
  apply hs.unheld
  intro p hp
  rw [(hs.inside t p hp).holds]
  cases h with
  | refuses c verb here =>
    rcases here with hidle | hin
    · cases hidle.symm.trans hp
    · cases hin.symm.trans hp
      rfl
  | tells c x here =>
    rcases here with ⟨hidle, -⟩ | hin | hin
    · cases hidle.symm.trans hp
    · cases hin.symm.trans hp
      rfl
    · cases hin.symm.trans hp
      rfl
  | cannotFork _ idle | spares idle | names _ idle => cases idle.symm.trans hp
  | overtaken inside | isLate _ _ _ inside | cannotTell _ _ _ inside | isRobbed _ _ _ inside =>
    cases inside.symm.trans hp
    rfl

/-- Only a thread that is outside of all calls is refused a child. -/
theorem Answers.idle {fork : Except Failure Pid} {stop : Stop} (hs : Shared g)
    (h : Answers g t (.create fork) (.error stop)) : g.pending? t = none := by
  cases h with
  | refuses c verb here =>
    rcases here with hidle | hin
    · exact hidle
    · exact absurd hin (hs.not_creating fork .checking)
  | cannotFork f idle => exact idle
  | isLate c pid status inside | cannotTell c pid status inside =>
    exact absurd inside (hs.not_creating fork .observing)
  | isRobbed c pid status inside => exact absurd inside (hs.not_creating fork .reaping)

/-- Forking aside, a call that is refused for the phase names the phase and leaves the record alone. -/
theorem Returns.refuses {f : Failure} {verb : String} {phase : Phase} (hs : Shared g)
    (h : Returns g g' t c (.error (.failed f))) (hf : f.cause = .invalidState verb phase)
    (hfork : c ≠ .create (.error f)) :
    phase = g.phase ∧ g' = { g with calls := without t g.calls } := by
  cases h with
  | answered c r gives leaves =>
    refine ⟨?_, leaves.trans (back_unheld (gives.unheld hs) c _)⟩
    cases gives with
    | refuses | overtaken =>
      cases hf
      rfl
    | cannotFork => exact absurd rfl hfork
    | isLate | cannotTell | isRobbed => cases hf
  | failed c f holds told =>
    rcases told with ⟨errno, hcause⟩ | ⟨path, errno, hcause⟩ <;> cases hf.symm.trans hcause

/-- Whoever cannot create the child leaves everything as it was. -/
theorem Returns.cannot_create {fork : Except Failure Pid} {stop : Stop} (hs : Shared g)
    (h : Returns g g' t (.create fork) (.error stop)) : g' = g := by
  cases h with
  | answered c r gives leaves => rw [leaves, hs.back_idle (gives.idle hs)]
  | failed c f holds => cases holds

/-- Calls gave back what the record says, and the record has no pid and no end that no call gave back. -/
structure Answered (g : Gated) (seen : List Entry) : Prop where
  answerAgrees : ∀ t c r, .returned t c r ∈ seen → g.AnswerAgrees c r
  created : ∀ pid, g.pid? = some pid →
    ∃ t, .returned t (.create (.ok pid)) (.ok (.pid pid)) ∈ seen
  waited : ∀ x, g.termination? = some x →
    ∃ t c, (c = .wait ∨ c = .await) ∧ .returned t c (.ok (.ended x)) ∈ seen

theorem Answered.change (hs : Shared g) (ha : Answered g seen) (h : Change g a g' e) :
    Answered g' (seen ++ e) := by
  refine ⟨?_, ?_, ?_⟩
  · intro t c r hr
    rcases List.mem_append.mp hr with hold | hnew
    · exact (ha.answerAgrees t c r hold).later hs h
    · exact (h.returned hnew).answerAgrees
  · intro pid hpid
    rcases h.names hs with hsame | ⟨-, t, pid', hpid', rfl⟩
    · obtain ⟨t, ht⟩ := ha.created pid (hsame.symm.trans hpid)
      exact ⟨t, List.mem_append_left _ ht⟩
    · cases hpid'.symm.trans hpid
      exact ⟨t, List.mem_append_right _ List.mem_cons_self⟩
  · intro x hx
    rcases h.tells hs with hsame | ⟨-, t, c, x', status, hwaits, hx', rfl⟩
    · obtain ⟨t, c, hwaits, ht⟩ := ha.waited x (hsame.symm.trans hx)
      exact ⟨t, c, hwaits, List.mem_append_left _ ht⟩
    · cases hx'.symm.trans hx
      exact ⟨t, c, hwaits, List.mem_append_right _ (by simp)⟩

/-- What is known of a child and of what was seen of it. -/
structure Recorded (g : Gated) (seen : List Entry) : Prop extends Answered g seen where
  named : (∃ pid, g.pid? = some pid) ↔ g.phase ≠ .notStarted
  /-- At the gate the record has an end of both channels. -/
  gated : g.phase = .ready → g.hasGate = true ∧ g.hasReport = true
  told : (∃ x, g.termination? = some x) ↔ g.phase = .terminated
  /-- Steps move the phase on, or leave it as it is. -/
  moves : ∀ a g' e, g.step a = some (g', e) → g'.phase = g.phase ∨ g.phase.Next g'.phase
  /-- The pid is told exactly when it is due. -/
  pid : ∀ t, g.pending? t = none → g.holder = none →
    (∃ pid, Call.Due g.phase .pid ∧ g.pid? = some pid ∧
      g.step (.call t .pid) = some (g, [.returned t .pid (.ok (.pid pid))])) ∨
    ¬ Call.Due g.phase .pid ∧ g.step (.call t .pid) =
      some (g, [.returned t .pid (Result.fail (.invalidState "query the pid of" g.phase))])
  /-- How the child ended is told exactly when it has been reaped. -/
  status : ∀ t, g.pending? t = none → g.holder = none →
    (∃ x, g.phase = .terminated ∧ g.termination? = some x ∧
      g.step (.call t .status) = some (g, [.returned t .status (.ok (.ended x))])) ∨
    g.phase ≠ .terminated ∧ g.step (.call t .status) = some (g, [.returned t .status
      (Result.fail (.invalidState "query the termination status of" g.phase))])
  /-- Whoever is refused is told the phase, and only is no longer inside of the call. -/
  refuses : ∀ a g' e t c f verb phase, g.step a = some (g', e) →
    .returned t c (.error (.failed f)) ∈ e → f.cause = .invalidState verb phase →
    c ≠ .create (.error f) → phase = g.phase ∧ g' = { g with calls := without t g.calls }
  cannotCreate : ∀ a g' e t fork stop, g.step a = some (g', e) →
    .returned t (.create fork) (.error stop) ∈ e → g' = g

theorem Shared.recorded (hs : Shared g) (ha : Answered g seen) : Recorded g seen := by
  refine ⟨ha, ?_, hs.gated, hs.told, ?_, ?_, ?_, ?_, ?_⟩
  · constructor
    · rintro ⟨pid, hpid⟩ hunborn
      rw [hs.named.mpr hunborn] at hpid
      cases hpid
    · intro hbegun
      exact hs.pid hbegun
  · intro a g' e h
    exact (step_change hs h).phase_moves hs
  · intro t hidle hfree
    exact hs.pid_call hidle hfree
  · intro t hidle hfree
    exact hs.status_call hidle hfree
  · intro a g' e t c f verb phase h hr hf hfork
    exact ((step_change hs h).returned hr).refuses hs hf hfork
  · intro a g' e t fork stop h hr
    exact ((step_change hs h).returned hr).cannot_create hs

theorem run_answered (hr : run (ofCommand path operands mode) acts = some (g, e)) : Answered g e := by
  have hstart : Answered (ofCommand path operands mode) [] :=
    ⟨(by simp), (by simp [ofCommand]), (by simp [ofCommand])⟩
  have hinv := run_changes (P := fun u _ seen => Answered u seen) (ofCommand_shared path operands mode)
    hstart (fun acts u e a v e' hu ha h => ha.change hu h) hr
  exact hinv.2

/-- However many threads call, and whatever becomes of the child meanwhile. -/
theorem record_agrees_with_calls (hr : run (ofCommand path operands mode) acts = some (g, e)) :
    Recorded g e :=
  (run_shared hr).recorded (run_answered hr)

/-- One thread fails to create the child, creates it, and kills it at its gate. -/
theorem record_agrees_with_calls_of_owner :
    let acts : List Action := [.call 0 (.create (.error (.ofCause (.notFound "/bin/none")))),
      .call 0 (.create (.ok 7)), .call 0 .kill, .advance 0, .advance 0, .call 0 .wait, .advance 0,
      .advance 0]
    ∃ g e, run (ofCommand "/bin/none" [] .single) acts = some (g, e) ∧ g.phase = .terminated ∧
      g.termination? = some (.signaled .kill) ∧ Recorded g e := by
  intro acts
  have hrun : ∃ g e, run (ofCommand "/bin/none" [] .single) acts = some (g, e) ∧
      g.phase = .terminated ∧ g.termination? = some (.signaled .kill) := ⟨_, _, rfl, rfl, rfl⟩
  obtain ⟨g, e, hrun, hphase, hx⟩ := hrun
  exact ⟨g, e, hrun, hphase, hx, record_agrees_with_calls hrun⟩

end Gated

end Corun.Child
