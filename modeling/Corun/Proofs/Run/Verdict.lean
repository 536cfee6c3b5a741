import Corun.Proofs.Run.Awaiting
import Corun.Proofs.Run.Stopping

namespace Corun.Run
open Os Child

variable {σ : Type} [Strategy σ] {start r r' : Run σ} {a : Action} {e e' lines : List Entry}
  {p : Position} {acts : List Action} {outcome : Except Failure Outcome}
  {ve : List Supervisor.Entry} {f : Ending}

/-- The manager has polled the watch before anything was published, and has done nothing since. -/
def PolledInVain (start : Run σ) (acts : List Action) : Prop :=
  ∃ before after u e, acts = before ++ .manage :: after ∧ run start before = some (u, e) ∧
    u.position = .polling ∧ published before = [] ∧ .manage ∉ after

/-- The manager has polled in vain and then found that the limit had passed. -/
def TimedOut (start : Run σ) (acts : List Action) : Prop :=
  ∃ before after u e, acts = before ++ .manage :: after ∧ run start before = some (u, e) ∧
    u.position = .checkingLimit ∧ u.expired = true ∧ .alarm .pass ∈ before ∧
    PolledInVain start before

theorem PolledInVain.more (h : PolledInVain start acts) (ha : a ≠ .manage) :
    PolledInVain start (acts ++ [a]) := by
  obtain ⟨before, after, u, e, rfl, hu, here, hnothing, hsince⟩ := h
  exact ⟨before, after ++ [a], u, e, by simp, hu, here, hnothing, by simp [hsince, ha.symm]⟩

theorem TimedOut.more (h : TimedOut start acts) : TimedOut start (acts ++ [a]) := by
  obtain ⟨before, after, u, e, rfl, hu⟩ := h
  exact ⟨before, after ++ [a], u, e, by simp, hu⟩

/-- The deadline of an alarm has passed, and its thread may have woken for it. -/
def Late (al : Sync.Alarm) : Prop :=
  al.passed = true ∨ al.thread = .awake true ∨ al.thread = .due

theorem check_late {al : Sync.Alarm} (h : Late al.check) : Late al := by
  rcases h with h | h | h
  · exact .inl h
  all_goals
    simp only [Sync.Alarm.check] at h
    split at h <;> cases h

theorem late_work {al al' : Sync.Alarm} {ae : List Sync.Alarm.Entry} (h : al.work = some (al', ae)) :
    (Late al' → Late al) ∧ (.called ∈ ae → Late al) := by
  simp only [Sync.Alarm.work] at h
  split at h
  · cases h
    exact ⟨check_late, by simp⟩
  · cases h
    exact ⟨check_late, by simp⟩
  · rename_i hthread
    exact ⟨fun _ => .inr (.inl hthread), fun _ => .inr (.inl hthread)⟩
  · rename_i hthread
    exact ⟨fun _ => .inr (.inr hthread), fun _ => .inr (.inr hthread)⟩
  · cases h
    refine ⟨fun hl => .inl ?_, by simp⟩
    simpa [Late] using hl
  · cases h
  · cases h

theorem late_step {al al' : Sync.Alarm} {aa : Sync.Alarm.Action} {ae : List Sync.Alarm.Entry}
    (h : al.step aa = some (al', ae)) :
    (Late al' → Late al ∨ aa = .pass) ∧ (.called ∈ ae → Late al) := by
  cases aa with
  | work =>
    obtain ⟨hlate, hcalled⟩ := late_work h
    exact ⟨fun hl => .inl (hlate hl), hcalled⟩
  | pass =>
    cases h
    exact ⟨fun _ => .inr rfl, by simp⟩
  | expire =>
    simp only [Sync.Alarm.step] at h
    split at h
    · rename_i hpassed
      cases h
      exact ⟨fun _ => .inl (.inl hpassed.1), by simp⟩
    · cases h
  | stir =>
    simp only [Sync.Alarm.step] at h
    split at h
    · cases h
      refine ⟨fun hl => .inl (.inl ?_), by simp⟩
      simpa [Late] using hl
    · cases h
  | cancel =>
    simp only [Sync.Alarm.step] at h
    split at h
    · cases h
      exact ⟨.inl, by simp⟩
    · cases h
  | ring =>
    simp only [Sync.Alarm.step] at h
    split at h
    · cases h
      refine ⟨fun hl => .inl ?_, by simp⟩
      rcases hl with hl | hl | hl
      · exact .inl hl
      · simp only at hl
        split at hl
        · cases hl
        · exact .inr (.inl hl)
      · simp only at hl
        split at hl
        · cases hl
        · exact .inr (.inr hl)
    · cases h
  | join =>
    simp only [Sync.Alarm.step] at h
    split at h
    · cases h
      exact ⟨.inl, by simp⟩
    · cases h

/-- An alarm that is due or has called back was armed for a limit that has passed. -/
structure Timed (start : Run σ) (acts : List Action) (r : Run σ) : Prop where
  limited : r.alarm.isSome = true ∨ r.expired = true → start.hasLimit = true
  late : ∀ al, r.alarm = some al → Late al → .alarm .pass ∈ acts
  expired : r.expired = true → .alarm .pass ∈ acts

omit [Strategy σ] in
theorem Timed.keeps (ht : Timed start acts r) (halarm : r'.alarm = r.alarm)
    (hexpired : r'.expired = r.expired) : Timed start (acts ++ [a]) r' := by
  refine ⟨?_, ?_, ?_⟩
  · rw [halarm, hexpired]
    exact ht.limited
  · rw [halarm]
    exact fun al hal hl => List.mem_append_left _ (ht.late al hal hl)
  · rw [hexpired]
    exact fun hexp => List.mem_append_left _ (ht.expired hexp)

theorem Timed.move (ht : Timed start acts r) (hlimit : r.hasLimit = start.hasLimit)
    (h : Move r a r' e') : Timed start (acts ++ [a]) r' := by
  have hexpired : r.expired = true → .alarm .pass ∈ acts ++ [a] :=
    fun hexp => List.mem_append_left _ (ht.expired hexp)
  cases h with
  | arms here limited =>
    refine ⟨fun _ => hlimit.symm.trans limited, ?_, hexpired⟩
    intro al hal hl
    cases hal
    simp [Late, Sync.Alarm.armed] at hl
  | disarms outcome al al' ae here armed took =>
    refine ⟨fun _ => ht.limited (.inl (by simp [armed])), ?_, hexpired⟩
    intro bl hbl hl
    cases hbl
    have hmine : disarmAction al.owner ≠ .pass := by cases al.owner <;> simp [disarmAction]
    have hbefore := ((late_step took).1 hl).resolve_right hmine
    exact List.mem_append_left _ (ht.late al armed hbefore)
  | disarmed outcome here =>
    refine ⟨?_, ?_, hexpired⟩
    · rintro (harmed | hexp)
      · cases harmed
      · exact ht.limited (.inr hexp)
    · intro al hal
      cases hal
  | alarmMoves aa al al' ae background armed took =>
    have hlimited := ht.limited (.inl (by simp [armed]))
    have hlate : Late al → .alarm .pass ∈ acts ++ [Action.alarm aa] :=
      fun hl => List.mem_append_left _ (ht.late al armed hl)
    refine ⟨fun _ => hlimited, ?_, ?_⟩
    · intro bl hbl hl
      cases hbl
      rcases (late_step took).1 hl with hbefore | rfl
      · exact hlate hbefore
      · simp
    · intro hexp
      rcases Bool.or_eq_true_iff.mp hexp with hexp | hcalled
      · exact hexpired hexp
      · exact hlate ((late_step took).2 (List.contains_iff_mem.mp hcalled))
  | jumps | supervises | supervised | creates | createFails | enlists | enlistFails | drives | polls
  | ends | drains | childMoves | publishes | works => exact ht.keeps rfl rfl

theorem Fresh.timed (hf : Fresh start) (h : run start acts = some (r, e)) : Timed start acts r := by
  refine Run.run_moves (P := fun u acts _ => Timed start acts u) hf.manned ?_ ?_ h
  · exact ⟨by simp [hf.alarm, hf.expired], by simp [hf.alarm], by simp [hf.expired]⟩
  · intro acts u e a w e' hrun _ ht hmoved
    exact ht.move (run_sameTask hrun).hasLimit hmoved

inductive Found (start : Run σ) (acts : List Action) (r : Run σ) (e : List Entry) :
    Except Failure Outcome → Prop where
  /-- The first process that was published has ended. -/
  | completed (k : Nat) (b : Benchmark) (pid : Pid) (t : Termination)
      (first : (published acts).head? = some pid) (whose : start.benchmarks[k]? = some b)
      (awaited : Awaited r e k pid (.ok t)) : Found start acts r e (.ok (.completed b pid t))
  | awaitFails (k : Nat) (pid : Pid) (f : Failure) (first : (published acts).head? = some pid)
      (awaited : Awaited r e k pid (.error f)) :
    Found start acts r e (.error (f.within (.collecting pid)))
  | timedOut (limited : start.hasLimit = true) (late : TimedOut start acts) :
    Found start acts r e (.ok .timedOut)
  /-- There is a limit, and no thread for its alarm. -/
  | unarmed (f : Failure) (limited : start.hasLimit = true) (failed : start.timer = .error f) :
    Found start acts r e (.error (f.within .spawningTimer))

/-- What a run comes to whose supervisor was started. -/
inductive Verdict (start : Run σ) (acts : List Action) (r : Run σ) (e : List Entry) :
    Result Outcome → Prop where
  | stopped (stop : Stop) (only : ∀ s, StoppedBy start acts s ↔ s = stop) :
    Verdict start acts r e (.error (.failed (Supervisor.loopFailure start.supervisor.name stop)))
  | finalizeFails (f : Failure) (unstopped : ∀ stop, ¬ StoppedBy start acts stop)
      (failed : .supervisor (.returned .finalize (.error (.failed f))) ∈ e) :
    Verdict start acts r e (.error (.failed f))
  | found (outcome : Except Failure Outcome) (unstopped : ∀ stop, ¬ StoppedBy start acts stop)
      (finalized : .supervisor (.returned .finalize (.ok ())) ∈ e)
      (found : Found start acts r e outcome) : Verdict start acts r e (.ofExcept outcome)

theorem published_first {pid : Pid} (h : (published acts).head? = some pid) (acts' : List Action) :
    (published (acts ++ acts')).head? = some pid := by
  rw [published_append, List.head?_append, h]
  rfl

theorem Found.move (h : Found start acts r e outcome) (hm : Manned r) (hmove : Move r a r' e') :
    Found start (acts ++ [a]) r' (e ++ e') outcome := by
  cases h with
  | completed k b pid t first whose awaited =>
    exact .completed k b pid t (published_first first _) whose (awaited.move hm hmove)
  | awaitFails k pid f first awaited =>
    exact .awaitFails k pid f (published_first first _) (awaited.move hm hmove)
  | timedOut limited late => exact .timedOut limited late.more
  | unarmed f limited failed => exact .unarmed f limited failed

/-- The supervisor was not started. -/
def Unlaunched (e : List Entry) : Prop := .supervisor (.returned .start (.ok ())) ∉ e

/-- An outcome that the manager may have, with a pid of its own for each child. If the loop was stopped,
it may be any. -/
def Holds (start : Run σ) (acts : List Action) (r : Run σ) (e : List Entry)
    (outcome : Except Failure Outcome) : Prop :=
  r.names.Nodup ∧ (Found start acts r e outcome ∨ ∃ stop, StoppedBy start acts stop)

def Ending.Fits (start : Run σ) (acts : List Action) (r : Run σ) (e : List Entry) : Ending → Prop
  | .aborted _ => Unlaunched e
  | .judged outcome joined finalized => Holds start acts r e outcome ∧ Joined start acts joined ∧
    r.supervisor.worker = .absent ∧ .supervisor (.returned .finalize finalized) ∈ e ∧
    ∀ q, finalized ≠ .error (.panicked q)
  | .unwound q => Unlaunched e ∨ .supervisor (.returned .finalize (.error (.panicked q))) ∈ e

def Position.Fits (start : Run σ) (acts : List Action) (r : Run σ) (e : List Entry) :
    Position → Prop
  | entering | settingUp | creating _ | enlisting _ | preparing | starting _ | launching
  | aborting _ => Unlaunched e
  | arming | polling | checkingSupervisor => True
  | checkingLimit => PolledInVain start acts
  | disarming outcome | closing outcome | joining outcome => Holds start acts r e outcome
  | finalizing outcome joined => Holds start acts r e outcome ∧ Joined start acts joined ∧
    r.supervisor.worker = .absent
  | cleaning f | killing _ f | draining f | releasing _ f | dismissing f => f.Fits start acts r e
  | returned res => r.supervisor.step .work = none ∧
    ∃ f : Ending, f.Fits start acts r e ∧ res = r.surrender.1.bind fun _ => f.result

theorem Move.launches (hs : Stationed r) (h : Move r a r' e)
    (hx : .supervisor (.returned .start (.ok ())) ∈ e) :
    r.position = .launching ∧ r'.position = .arming := by
  obtain ⟨n, hn⟩ | ⟨ve, hmem, ⟨-, hc⟩ | ⟨-, hwork⟩⟩ := h.heard hs hx
  · cases hn
  · generalize r'.supervisor = v at hc
    generalize r'.position = p at hc
    cases hc with
    | starts s here => exact ⟨here, rfl⟩
    | _ => simp [Supervisor.notes] at hmem
  · exact absurd hmem (hwork.mute _ _)

theorem Unlaunched.move (h : Unlaunched e) (hs : Stationed r) (hmove : Move r a r' e')
    (hp : r.position ≠ .launching ∨ r'.position ≠ .arming) : Unlaunched (e ++ e') := by
  intro hx
  rcases List.mem_append.mp hx with hx | hx
  · exact h hx
  · obtain ⟨hlaunching, harming⟩ := hmove.launches hs hx
    exact hp.elim (absurd hlaunching) (absurd harming)

theorem Holds.move (hh : Holds start acts r e outcome) (hm : Manned r) (h : Move r a r' e')
    (hl : r.position.isEarly = false) : Holds start (acts ++ [a]) r' (e ++ e') outcome := by
  obtain ⟨hapart, hfound⟩ := hh
  refine ⟨?_, hfound.imp (fun hfound => hfound.move hm h) (fun ⟨stop, hstop⟩ => ⟨stop, hstop.more⟩)⟩
  rcases h.names hm with hnames | ⟨k, b, pid, here, -⟩
  · exact hnames ▸ hapart
  · simp [here, Position.isEarly, Position.phase] at hl

theorem Move.stays_absent (hs : Stationed r) (h : Move r a r' e')
    (hl : r.position.isLaunch = false) (hw : r.supervisor.worker = .absent) :
    r'.supervisor.worker = .absent := by
  by_contra hthere
  rcases h.worker hs hthere with hbefore | here
  · exact hbefore hw
  · simp [here, Position.isLaunch, Position.phase] at hl

theorem Position.isWatching_false (h : p.isWatching = false) :
    p.isEarly = false ∧ p.isLaunch = false := by
  simp only [isWatching, isEarly, isLaunch, decide_eq_false_iff_not] at h ⊢
  omega

theorem Ending.Fits.move (hf : f.Fits start acts r e) (hrun : run start acts = some (r, e))
    (hm : Manned r) (hs : Stationed r) (h : Move r a r' e') (hl : r.position.isWatching = false) :
    f.Fits start (acts ++ [a]) r' (e ++ e') := by
  have hlater : r.position ≠ .launching := by
    intro here
    simp [here, Position.isWatching, Position.phase] at hl
  obtain ⟨hearly, hlaunch⟩ := Position.isWatching_false hl
  cases f with
  | aborted c => exact Unlaunched.move hf hs h (.inl hlater)
  | judged outcome joined finalized =>
    obtain ⟨hholds, hjoined, hw, hx, hcalm⟩ := hf
    exact ⟨hholds.move hm h hearly, hjoined.congr (stoppedBy_absent hrun hw),
      h.stays_absent hs hlaunch hw, List.mem_append_left _ hx, hcalm⟩
  | unwound q => exact hf.imp (fun hun => hun.move hs h (.inl hlater)) (List.mem_append_left _)

theorem fits_launch (hl : p.isLaunch = true) : p.Fits start acts r e ↔ Unlaunched e := by
  cases p with
  | entering | settingUp | creating | enlisting | preparing | starting | launching => exact Iff.rfl
  | _ => cases hl

theorem fits_afterStop (stop : Stop) (hun : Unlaunched e) :
    (Position.afterStop stop).Fits start acts r e := by
  cases stop with
  | failed f => exact hun
  | panicked q => exact .inl hun

/-- Before the supervisor is started, a launch goes on or is given up. -/
theorem Move.leavesLaunch (h : Move r a r' e') (hl : r.position.isLaunch = true) :
    r'.position = .arming ∨
      ∀ acts (u : Run σ) e, Unlaunched e → r'.position.Fits start acts u e := by
  have habsurd : ∀ {q : Position}, r.position = q → q.isLaunch = false → False := by
    intro q here hq
    rw [here, hq] at hl
    cases hl
  cases h with
  | jumps p lines leads =>
    refine .inr fun acts u e hun => ?_
    cases leads with
    | lacksBenchmarks | enters | allCreated | allStarted => exact hun
    | unlimited here | unarmable _ here | limitReached _ here | limitAhead here | supervisorGone here
    | supervisorThere here | unarmed _ here | cleans _ _ here | allKilled _ _ here | keeps _ _ _ here
    | allReleased _ _ here | concludes _ here => exact (habsurd here rfl).elim
  | supervised va v ve res due =>
    rcases dueCall?_cases due with here | here | here | ⟨_, here⟩ | ⟨_, _, here⟩
    · refine .inr fun acts u e hun => ?_
      rw [goTo_position, here]
      rcases res with (f | q) | _
      · exact hun
      · exact .inl hun
      · exact hun
    · refine .inr fun acts u e hun => ?_
      rw [goTo_position, here]
      rcases res with stop | _
      · exact fits_afterStop stop hun
      · exact hun
    · rw [goTo_position, here]
      rcases res with stop | _
      · exact .inr fun acts u e hun => fits_afterStop stop hun
      · exact .inl rfl
    · exact (habsurd here rfl).elim
    · exact (habsurd here rfl).elim
  | drives k c g g' ge p lines there took leads =>
    refine .inr fun acts u e hun => ?_
    generalize Gated.returned? manager ge = res at leads
    cases leads with
    | startGoesOn | started => exact hun
    | startStops stop stop' => exact fits_afterStop stop' hun
    | killGoesOn _ here | killed _ _ _ here | releaseGoesOn _ _ _ here | released _ _ here =>
      exact (habsurd here rfl).elim
  | creates | createFails | enlists | enlistFails => exact .inr fun acts u e hun => hun
  | ends p lines leads =>
    cases leads with
    | closes _ here | aborts _ _ here | dismisses _ here => exact (habsurd here rfl).elim
  | arms here | polls _ _ _ _ here | disarmed _ here | drains _ _ here => exact (habsurd here rfl).elim
  | supervises | disarms | childMoves | publishes | works | alarmMoves =>
    exact .inr fun acts u e hun => (fits_launch hl).mpr hun

/-- A manager that stays where it is keeps what it takes with it. -/
theorem Position.Fits.stays (hf : r.position.Fits start acts r e)
    (hrun : run start acts = some (r, e)) (hm : Manned r) (hs : Stationed r) (h : Move r a r' e')
    (hl : r.position.isLaunch = false) (ha : r.position = .checkingLimit → a ≠ .manage)
    (hp : r'.position = r.position)
    (hsame : r.supervisor.step .work = none → r'.supervisor = r.supervisor) :
    r'.position.Fits start (acts ++ [a]) r' (e ++ e') := by
  rw [hp]
  cases here : r.position with
  | entering | settingUp | creating | enlisting | preparing | starting | launching =>
    simp [here, Position.isLaunch, Position.phase] at hl
  | arming | polling | checkingSupervisor => trivial
  | checkingLimit =>
    rw [here] at hf
    exact PolledInVain.more hf (ha here)
  | disarming outcome | closing outcome | joining outcome =>
    rw [here] at hf
    exact Holds.move hf hm h (by simp [here, Position.isEarly, Position.phase])
  | finalizing outcome joined =>
    rw [here] at hf
    obtain ⟨hholds, hjoined, hw⟩ := hf
    exact ⟨hholds.move hm h (by simp [here, Position.isEarly, Position.phase]),
      hjoined.congr (stoppedBy_absent hrun hw), h.stays_absent hs hl hw⟩
  | aborting c =>
    rw [here] at hf
    exact Unlaunched.move hf hs h (.inl (by simp [here]))
  | cleaning f | killing k f | draining f | releasing k f | dismissing f =>
    rw [here] at hf
    exact Ending.Fits.move hf hrun hm hs h (by simp [here, Position.isWatching, Position.phase])
  | returned res =>
    rw [here] at hf
    obtain ⟨hover, f, hfits, hres⟩ := hf
    have hsame := hsame hover
    refine ⟨by rw [hsame]; exact hover, f, ?_, ?_⟩
    · exact hfits.move hrun hm hs h (by simp [here, Position.isWatching, Position.phase])
    · rw [hres, surrender, surrender, hsame]

theorem Jump.fits (hf : r.position.Fits start acts r e) (hrun : run start acts = some (r, e))
    (hm : Manned r) (hs : Stationed r) (hw : r.position.isWatching = true → Tracking r acts e)
    (hh : Heeded start acts r) (ht : Timed start acts r) (hl : r.position.isLaunch = false)
    (h : Jump r p lines) : p.Fits start (acts ++ [.manage]) (r.goTo p) (e ++ lines) := by
  have hmove := Move.jumps p lines h
  have htask := run_sameTask hrun
  have hearly : r.position.isEarly = false := by
    simp only [Position.isLaunch, Position.isEarly, decide_eq_false_iff_not] at hl ⊢
    omega
  have hfits : ∀ {f : Ending}, f.Fits start acts r e → r.position.isWatching = false →
      f.Fits start (acts ++ [.manage]) (r.goTo p) (e ++ lines) :=
    fun hfits hlater => hfits.move hrun hm hs hmove hlater
  have hapart : r.position.isWatching = true → r.names.Nodup :=
    fun hwatching => (hw hwatching).names_nodup hearly
  cases h with
  | lacksBenchmarks here | enters _ here | allCreated _ here | allStarted _ here =>
    simp [here, Position.isLaunch, Position.phase] at hl
  | unlimited | limitAhead | supervisorThere => trivial
  | unarmable c here limited failed =>
    refine ⟨hapart (by simp [here, Position.isWatching, Position.phase]), .inl ?_⟩
    exact .unarmed c (htask.hasLimit ▸ limited) (htask.timer ▸ failed)
  | limitReached line here expired =>
    rw [here] at hf
    refine ⟨hapart (by simp [here, Position.isWatching, Position.phase]), .inl ?_⟩
    exact .timedOut (ht.limited (.inr expired))
      ⟨acts, [], r, e, rfl, hrun, here, expired, ht.expired expired, hf⟩
  | supervisorGone here stopped =>
    have hwatching : r.position.isWatching = true := by
      simp [here, Position.isWatching, Position.phase]
    obtain ⟨stop, hstop⟩ := hh.gone hwatching stopped
    exact ⟨hapart hwatching, .inr ⟨stop, hstop.more⟩⟩
  | unarmed outcome here =>
    rw [here] at hf
    exact Holds.move hf hm hmove hearly
  | cleans f line here | allKilled k f here | keeps k f g here | allReleased k f here =>
    rw [here] at hf
    exact hfits hf (by simp [here, Position.isWatching, Position.phase])
  | concludes f here ended =>
    rw [here] at hf
    exact ⟨ended, f, hfits hf (by simp [here, Position.isWatching, Position.phase]), rfl⟩

theorem Consult.fits (hf : r.position.Fits start acts r e) (hrun : run start acts = some (r, e))
    (hm : Manned r) (hh : Heeded start acts r)
    (hnamed : r.supervisor.name = start.supervisor.name) (hl : r.position.isLaunch = false)
    (h : Move r .manage r' (ofSupervisor ve)) (hc : Consult r r'.supervisor ve r'.position) :
    r'.position.Fits start (acts ++ [.manage]) r' (e ++ ofSupervisor ve) := by
  have hsame := stoppedBy_unworked (a := .manage) hrun (by simp)
  have hholds : ∀ {o}, Holds start acts r e o →
      Holds start (acts ++ [.manage]) r' (e ++ ofSupervisor ve) o := by
    intro o ho
    refine ho.move hm h ?_
    simp only [Position.isLaunch, Position.isEarly, decide_eq_false_iff_not] at hl ⊢
    omega
  have hseen : ∀ x ∈ ve, .supervisor x ∈ e ++ ofSupervisor ve :=
    fun x hx => List.mem_append_right _ (List.mem_map_of_mem hx)
  generalize e ++ ofSupervisor ve = seen at hholds hseen ⊢
  generalize hv : r'.supervisor = v at hc
  generalize r'.position = p at hc
  cases hc with
  | setsUp _ here | prepares here | delivers _ _ _ here | deliveryStops _ _ _ _ here
  | prepared _ here | starts _ here | startStops _ _ here =>
    simp [here, Position.isLaunch, Position.phase] at hl
  | joins outcome s res here there =>
    rw [here] at hf
    exact ⟨hholds hf, (hh.joins hnamed there).congr hsame, by rw [hv]⟩
  | joinsPanicked outcome here there =>
    rw [here] at hf
    exact ⟨hholds hf, (hh.joinsPanicked hnamed there).congr hsame, by rw [hv]⟩
  | finalizes outcome joined s here held =>
    rw [here] at hf
    obtain ⟨ho, hjoined, hw⟩ := hf
    have hgone : r'.supervisor.worker = .absent := by rw [hv]; exact hw
    have hreturned := hseen (.returned .finalize (Strategy.finalize s).result) (by simp)
    generalize (Strategy.finalize s).result = finalized at hreturned
    rcases finalized with (c | q) | _
    · exact ⟨hholds ho, hjoined.congr hsame, hgone, hreturned, by simp⟩
    · -- A panic of the last hook drops what was found, and all that is kept is that it panicked.
      exact .inr hreturned
    · exact ⟨hholds ho, hjoined.congr hsame, hgone, hreturned, by simp⟩
  | finalizesNone outcome joined here held =>
    rw [here] at hf
    obtain ⟨ho, hjoined, hw⟩ := hf
    exact ⟨hholds ho, hjoined.congr hsame, by rw [hv]; exact hw,
      hseen (.returned .finalize (.ok ())) (by simp), by simp⟩

omit [Strategy σ] in
theorem Drive.fits {k : Nat} {g : Gated} {c : Call} {res : Option (Result Answer)}
    (h : Drive r g k c res p lines) (hl : r.position.isLaunch = false) :
    ∃ f : Ending, (r.position = .killing k f ∨ r.position = .releasing k f) ∧
      ∃ j, p = .killing j f ∨ p = .releasing j f := by
  cases h with
  | startGoesOn here | started _ here | startStops _ _ here =>
    simp [here, Position.isLaunch, Position.phase] at hl
  | killGoesOn f here | killed f _ _ here => exact ⟨f, .inl here, _, .inl rfl⟩
  | releaseGoesOn f _ _ here | released f _ here => exact ⟨f, .inr here, _, .inr rfl⟩

theorem Position.Fits.move (hf : r.position.Fits start acts r e)
    (hrun : run start acts = some (r, e)) (hm : Manned r) (hs : Stationed r)
    (hw : r.position.isWatching = true → Tracking r acts e) (hh : Heeded start acts r)
    (ht : Timed start acts r) (hnamed : r.supervisor.name = start.supervisor.name)
    (h : Move r a r' e') : r'.position.Fits start (acts ++ [a]) r' (e ++ e') := by
  cases hl : r.position.isLaunch with
  | true =>
    have hun := (fits_launch hl).mp hf
    by_cases harm : r'.position = .arming
    · rw [harm]
      trivial
    · exact (h.leavesLaunch hl).resolve_left harm _ _ _ (hun.move hs h (.inr harm))
  | false =>
    have hmove := h
    cases h with
    | jumps p lines leads => exact leads.fits hf hrun hm hs hw hh ht hl
    | supervises va v ve due took | supervised va v ve res due took =>
      obtain ⟨ve', hc, he⟩ := hs.asked due hmove
      rw [he] at hmove ⊢
      exact hc.fits hf hrun hm hh hnamed hl hmove
    | creates _ _ _ here | createFails _ _ _ here | enlists _ _ _ _ _ _ _ here | enlistFails _ _ here =>
      simp [here, Position.isLaunch, Position.phase] at hl
    | drives k c g g' ge p lines there took leads =>
      have hfits : ∀ {f : Ending}, f.Fits start acts r e → r.position.isWatching = false →
          f.Fits start (acts ++ [.manage]) _ (e ++ (ofChild k ge ++ lines)) :=
        fun hfits hlater => hfits.move hrun hm hs hmove hlater
      obtain ⟨f, here | here, j, rfl | rfl⟩ := leads.fits hl <;>
      · rw [here] at hf
        exact hfits hf (by simp [here, Position.isWatching, Position.phase])
    | arms here => trivial
    | polls w we p lines here took leads =>
      have hwatching : r.position.isWatching = true := by
        simp [here, Position.isWatching, Position.phase]
      have htracking := hw hwatching
      have hapart := htracking.names_nodup (by simp [here, Position.isEarly, Position.phase])
      obtain ⟨rfl, rfl, hnothing⟩ | ⟨k, pid, x, hfirst, hawaited, hends⟩ :=
        htracking.poll hm here took leads
      · -- The limit is looked at next, and then counts only since nothing was published by now.
        exact ⟨acts, [], r, e, rfl, hrun, here, hnothing, by simp⟩
      · have hafter := hawaited.move hm hmove
        have hfirst := published_first hfirst [.manage]
        obtain ⟨b, t, rfl, hb, rfl⟩ | ⟨c, rfl, rfl⟩ := hends
        · have hwhose := (run_sameTask hrun).benchmarks ▸ hb
          exact ⟨hapart, .inl (.completed k b pid t hfirst hwhose hafter)⟩
        · exact ⟨hapart, .inl (.awaitFails k pid c hfirst hafter)⟩
    | disarms outcome al al' ae here =>
      exact hf.stays hrun hm hs hmove hl (by simp [here]) rfl fun _ => rfl
    | disarmed outcome here =>
      rw [here] at hf
      exact Holds.move hf hm hmove (by simp [here, Position.isEarly, Position.phase])
    | ends p lines leads =>
      cases leads with
      | closes outcome here =>
        rw [here] at hf
        exact Holds.move hf hm hmove (by simp [here, Position.isEarly, Position.phase])
      | aborts c line here =>
        rw [here] at hf
        exact Unlaunched.move hf hs hmove (.inl (by simp [here]))
      | dismisses f here =>
        rw [here] at hf
        exact Ending.Fits.move hf hrun hm hs hmove (by simp [here, Position.isWatching, Position.phase])
    | drains f lines here ended =>
      rw [here] at hf
      exact Ending.Fits.move hf hrun hm hs hmove (by simp [here, Position.isWatching, Position.phase])
    | childMoves | publishes | alarmMoves =>
      exact hf.stays hrun hm hs hmove hl (fun _ => by simp) rfl fun _ => rfl
    | works v ve took =>
      refine hf.stays hrun hm hs hmove hl (fun _ => by simp) rfl ?_
      intro hnone
      exact absurd (hnone.symm.trans took) (by simp)

theorem Fresh.fits (hf : Fresh start) (h : run start acts = some (r, e)) :
    r.position.Fits start acts r e := by
  refine hf.run_moves (P := fun u acts e => u.position.Fits start acts u e) ?_ ?_ h
  · rw [hf.position]
    exact List.not_mem_nil
  · intro acts u e a w e' hrun hm hs hfits hmoved
    exact hfits.move hrun hm hs (hf.tracking hrun) (hf.heeded hrun) (hf.timed hrun) (hf.named hrun)
      hmoved

theorem Ending.Fits.verdict (hf : f.Fits start acts r e)
    (hl : .supervisor (.returned .start (.ok ())) ∈ e)
    (hcalm : ∀ q, .supervisor (.returned .finalize (.error (.panicked q))) ∉ e) :
    Verdict start acts r e f.result ∧ r.names.Nodup := by
  cases f with
  | aborted c => exact absurd hl hf
  | unwound q => exact absurd hl (hf.resolve_right (hcalm q))
  | judged outcome joined finalized =>
    obtain ⟨⟨hapart, hfound⟩, hjoined, -, hx, -⟩ := hf
    refine ⟨?_, hapart⟩
    cases joined with
    | error y =>
      obtain ⟨stop, rfl, hstop⟩ := hjoined
      exact .stopped stop hstop
    | ok u =>
      have hunstopped : ∀ stop, ¬ StoppedBy start acts stop := hjoined
      rcases finalized with (c | q) | u
      · exact .finalizeFails c hunstopped hx
      · exact absurd hx (hcalm q)
      · exact .found outcome hunstopped hx
          (hfound.resolve_right fun ⟨stop, hstop⟩ => hunstopped stop hstop)

/-- What the manager says of itself where it cannot go on as it should. -/
inductive InternalError : Failure → Prop where
  | stoppedEarly (name : String) : InternalError (.ofCause (.stoppedEarly name))
  | unknownEnded (pid : Pid) : InternalError (.ofCause (.unknownEnded pid))
  | nothingMonitored : InternalError (.ofCause .nothingMonitored)

theorem InternalError.bare {c : Failure} {context : Context} :
    ¬ InternalError (c.within context) := by
  generalize hd : c.within context = d
  intro h
  cases h <;> simp [Failure.within, Failure.ofCause] at hd

theorem Verdict.internal_from_finalize {c : Failure}
    (h : Verdict start acts r e (.error (.failed c)))
    (hc : InternalError c) : .supervisor (.returned .finalize (.error (.failed c))) ∈ e := by
  generalize hres : (Except.error (Stop.failed c) : Result Outcome) = res at h
  cases h with
  | stopped stop =>
    cases hres
    cases stop with
    | failed d => exact absurd hc InternalError.bare
    | panicked q => cases hc
  | finalizeFails d _ failed =>
    cases hres
    exact failed
  | found outcome _ _ found =>
    cases found with
    | completed | timedOut => cases hres
    | awaitFails | unarmed =>
      cases hres
      exact absurd hc InternalError.bare

end Corun.Run
