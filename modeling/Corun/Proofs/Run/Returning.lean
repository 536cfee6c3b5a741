import Corun.Proofs.Run.Departing
import Corun.Strategy.Script

namespace Corun.Run
open Os Child

variable {σ : Type} [Strategy σ] {start r r' : Run σ} {acts : List Action} {e : List Entry} {k : Nat}
  {g : Gated} {pid : Pid} {task : Watch.Task} {al : Sync.Alarm} {res : Result Outcome} {w : Watch}
  {we : List Watch.Entry}

/-- There is something for the manager to find. -/
def Ready (r : Run σ) : Prop :=
  r.supervisor.hasStopped = true ∨ r.expired = true ∨ r.watch.published ≠ []

theorem Launched.tracked (hl : Launched r) (hw : r.position.isWatching = true) :
    ∃ acts e, Tracking r acts e := by
  obtain ⟨start, acts, e, hf, hrun, -⟩ := hl
  exact ⟨acts, e, hf.tracking hrun hw⟩

theorem step_polling (here : r.position = .polling)
    (took : r.watch.step .waitTimed = some (w, we)) :
    ∃ p lines, step r .manage = some ({ r with watch := w }.goTo p, lines) ∧ Poll r we p lines := by
  simp only [step, manage, here, poll, took, Option.map_some]
  split
  · rename_i f hgot
    exact ⟨_, _, rfl, .fails f hgot⟩
  · rename_i pid t hgot
    split
    · rename_i b hb
      exact ⟨_, _, rfl, .takes pid t b _ hgot hb⟩
    · rename_i hb
      exact ⟨_, _, rfl, .unknown pid t hgot hb⟩
  · rename_i hno hnone
    refine ⟨_, _, rfl, .nothing ?_⟩
    rcases hgot : Watch.returned? we with _ | f | _ | ⟨pid, t⟩
    · exact .inr rfl
    · exact absurd hgot (hno f)
    · exact .inl rfl
    · exact absurd hgot (hnone pid t)

/-- A poll leads to the limit when nothing was published, and else out of the loop. -/
theorem Launched.polls (hl : Launched r) (here : r.position = .polling)
    (hnext : r.watch.published = [] → Launched (r.goTo .checkingLimit) →
      Returns (r.goTo .checkingLimit)) : Returns r := by
  obtain ⟨acts, e, ht⟩ := hl.tracked (by rw [here]; rfl)
  obtain ⟨w, we, took⟩ : ∃ w we, r.watch.step .waitTimed = some (w, we) := by
    cases hpublished : r.watch.published with
    | nil =>
      by_cases hnobody : r.watch.tasks = []
      · exact ⟨r.watch, _, if_pos hnobody⟩
      · refine ⟨r.watch, [.returned (.ok none)], ?_⟩
        simp [Watch.step, Watch.take, hnobody, hpublished]
    | cons pid published =>
      obtain ⟨x, hx⟩ := (ht.sound.ended pid).mp (by simp [hpublished])
      exact ⟨_, _, Watch.step_takes rfl hpublished hx⟩
  obtain ⟨p, lines, hstep, leads⟩ := step_polling here took
  rcases ht.poll hl.manned here took leads with ⟨rfl, rfl, hnothing⟩ | ⟨k, pid, x, -, -, hends⟩
  · exact hl.goesOn hstep rfl fun hu => hnext (ht.queued.trans hnothing) hu
  · refine hl.goesOn hstep rfl fun hu => hu.departs ?_
    rcases hends with ⟨b, t, -, -, rfl⟩ | ⟨f, -, rfl⟩ <;> rfl

theorem Launched.checksSupervisor (hl : Launched r) (here : r.position = .checkingSupervisor)
    (hnext : r.supervisor.hasStopped = false → Launched (r.goTo .polling) →
      Returns (r.goTo .polling)) : Returns r := by
  cases hstopped : r.supervisor.hasStopped with
  | true =>
    have hstep : step r .manage = some
        (r.goTo (.disarming (.error (.ofCause (.stoppedEarly r.supervisor.name)))), []) := by
      simp [step, manage, here, checkSupervisor, hstopped]
    exact hl.goesOn hstep rfl fun hu => hu.departs rfl
  | false =>
    have hstep : step r .manage = some (r.goTo .polling, []) := by
      simp [step, manage, here, checkSupervisor, hstopped]
    exact hl.goesOn hstep rfl (hnext hstopped)

theorem Launched.checksLimit (hl : Launched r) (here : r.position = .checkingLimit)
    (hnext : r.expired = false → Launched (r.goTo .checkingSupervisor) →
      Returns (r.goTo .checkingSupervisor)) : Returns r := by
  cases hexpired : r.expired with
  | true =>
    have hstep : step r .manage =
        some (r.goTo (.disarming (.ok .timedOut)), [info "time limit reached"]) := by
      simp [step, manage, here, checkLimit, hexpired]
    exact hl.goesOn hstep rfl fun hu => hu.departs rfl
  | false =>
    have hstep : step r .manage = some (r.goTo .checkingSupervisor, []) := by
      simp [step, manage, here, checkLimit, hexpired]
    exact hl.goesOn hstep rfl (hnext hexpired)

/-- In one round of its loop the manager finds what there is. -/
theorem Launched.polls_ready (hl : Launched r) (here : r.position = .polling) (hr : Ready r) :
    Returns r := by
  refine hl.polls here fun hsilent hlimit => hlimit.checksLimit rfl fun hahead hsupervisor => ?_
  refine hsupervisor.checksSupervisor rfl fun hthere _ => ?_
  rcases hr with hstopped | hexpired | hpublished
  · cases hthere.symm.trans hstopped
  · cases hahead.symm.trans hexpired
  · exact absurd hsilent hpublished

theorem Launched.arms (hl : Launched r) (here : r.position = .arming) (hr : Ready r) : Returns r := by
  cases hlimited : r.hasLimit with
  | false =>
    have hstep : step r .manage = some (r.goTo .polling, []) := by
      simp [step, manage, here, arm, hlimited]
    exact hl.goesOn hstep rfl fun hu => hu.polls_ready rfl hr
  | true =>
    cases htimer : r.timer with
    | ok u =>
      have hstep : step r .manage = some ({ r with alarm := some .armed }.goTo .polling, []) := by
        simp [step, manage, here, arm, hlimited, htimer]
      exact hl.goesOn hstep rfl fun hu => hu.polls_ready rfl hr
    | error f =>
      have hstep : step r .manage =
          some (r.goTo (.closing (.error (f.within .spawningTimer))), []) := by
        simp [step, manage, here, arm, hlimited, htimer]
      exact hl.goesOn hstep rfl fun hu => hu.departs rfl

theorem Launched.returns_ready (hl : Launched r) (hr : Ready r) : Returns r := by
  cases here : r.position with
  | arming => exact hl.arms here hr
  | polling => exact hl.polls_ready here hr
  | checkingLimit =>
    refine hl.checksLimit here fun _ hsupervisor => ?_
    exact hsupervisor.checksSupervisor rfl fun _ hpolling => hpolling.polls_ready rfl hr
  | checkingSupervisor =>
    exact hl.checksSupervisor here fun _ hpolling => hpolling.polls_ready rfl hr
  | disarming | closing | joining | finalizing | aborting | cleaning | killing | draining | releasing
  | dismissing | returned =>
    exact hl.departs (by rw [here]; rfl)
  | entering | settingUp | creating | enlisting | preparing | starting | launching =>
    have hpast := hl.past.1
    rw [here] at hpast
    cases hpast

/-- A task that does not await its child any more is published. -/
theorem Launched.publishes (hl : Launched r) (hw : r.position.isWatching = true)
    (hfind : PidMap.find? pid r.watch.tasks = some task) (hback : task ≠ .awaiting) : Returns r := by
  obtain ⟨acts, e, ht⟩ := hl.tracked hw
  cases task with
  | awaiting => exact absurd rfl hback
  | publishing x =>
    refine hl.goesOn (step_publishes hfind) rfl fun hu => hu.returns_ready (.inr (.inr ?_))
    simp
  | ended x =>
    refine hl.returns_ready (.inr (.inr ?_))
    exact List.ne_nil_of_mem ((ht.sound.ended pid).mpr ⟨x, hfind⟩)
  | panicked q =>
    obtain ⟨k, hk⟩ := ht.known pid _ hfind
    exact hk.elim

/-- Between its launch and its end the manager is busy with no child, and each has left its gate. -/
theorem Position.watching_calm {p : Position} (hw : p.isWatching = true) (hl : p.isLaunch = false) :
    (∀ c, ¬ p.Calls k c) ∧ p.HasReleased k ∧ ∀ names, p.given names = names := by
  cases p with
  | arming | polling | checkingLimit | checkingSupervisor =>
    exact ⟨fun _ => id, trivial, fun _ => rfl⟩
  | entering | settingUp | creating | enlisting | preparing | starting | launching => cases hl
  | disarming | closing | joining | finalizing | aborting | cleaning | killing | draining | releasing
  | dismissing | returned => cases hw

theorem Launched.ends (hl : Launched r) (hw : r.position.isWatching = true)
    (hk : r.children[k]? = some g) (hdead : g.life.isLive = false) : Returns r := by
  obtain ⟨acts, e, ht⟩ := hl.tracked hw
  obtain ⟨hidle, hreleased, hgiven⟩ := Position.watching_calm (k := k) hw hl.past.1
  have htracked := ht.tracked
  have hapart := ht.apart
  rw [hgiven] at htracked hapart
  obtain ⟨pid, hpid⟩ := (hl.manned.tended k g hk).named
  have hnamed : some pid ∈ r.names := List.mem_map.mpr ⟨g, List.mem_of_getElem? hk, hpid⟩
  obtain ⟨task, hfind⟩ := PidMap.contains_iff.mp (htracked pid hnamed)
  by_cases hawaits : task = .awaiting
  · subst hawaits
    obtain ⟨j, x, hj, hx, hin⟩ := hl.attended pid hfind
    -- With a pid of its own for each child, the child that the task awaits is this one.
    have hsame : r.names[j]? = r.names[k]? := by simp [names, hj, hk, hx, hpid]
    have hlt := (List.getElem?_eq_some_iff.mp hj).1
    have hjk := (List.getElem?_inj (by simpa [names] using hlt) hapart).mp hsame
    subst hjk
    cases hk.symm.trans hj
    have hback := hl.comesBack hk hin hidle hreleased hdead
    refine hl.settles hk hpid hfind hback fun u res hu hthere hwatch => ?_
    have hsettled : PidMap.find? pid u.watch.tasks = some (.settled res) := by
      rw [hwatch, PidMap.find?_insert, if_pos rfl]
    exact hu.publishes (hthere ▸ hw) hsettled (settled_ne_awaiting res)
  · exact hl.publishes hw hfind hawaits

/-- Steps that the thread of an alarm has left to make until it calls back for its limit. -/
def lateStepsLeft : Sync.Alarm.Thread → Nat
  | .starting | .awake false => 4
  | .asleep => 3
  | .awake true => 2
  | .due => 1
  | .calling | .exited => 0

theorem Launched.expires (hl : Launched r) (hw : r.position.isWatching = true)
    (halarm : r.alarm = some al) (hpassed : al.passed = true) : Returns r := by
  induction hn : lateStepsLeft al.thread using Nat.strongRecOn generalizing r al with
  | ind n ih =>
    subst hn
    obtain ⟨aacts, ae, hrun, hcalled, hkept⟩ := hl.alarmReached al halarm
    have hopen : al.canceled = false := by
      rw [← Bool.not_eq_true, (Sync.Alarm.run_owned hrun).1]
      exact not_not_intro (hkept hw)
    have hgoesOn : ∀ {aa al' ae'}, al.step aa = some (al', ae') → isAlarmThread aa = true →
        (Action.alarm aa).isOwn = true → al'.passed = true →
        lateStepsLeft al'.thread < lateStepsLeft al.thread → Returns r := by
      intro aa al' ae' took hbackground hown hpassed' hless
      exact hl.goesOn (step_alarm halarm hbackground took) hown fun hu =>
        ih _ hless hu hw rfl hpassed' rfl
    cases hthread : al.thread with
    | starting =>
      have took : al.step .work = some ({ al with thread := .asleep }, []) := by
        simp [Sync.Alarm.step, Sync.Alarm.work, hthread, Sync.Alarm.check, hopen]
      exact hgoesOn took rfl rfl hpassed (by simp [hthread, lateStepsLeft])
    | asleep =>
      have took : al.step .expire = some ({ al with thread := .awake true }, []) := by
        simp [Sync.Alarm.step, hthread, hpassed]
      exact hgoesOn took rfl rfl hpassed (by simp [hthread, lateStepsLeft])
    | awake expired =>
      cases expired with
      | false =>
        have took : al.step .work = some ({ al with thread := .asleep }, []) := by
          simp [Sync.Alarm.step, Sync.Alarm.work, hthread, Sync.Alarm.check, hopen]
        exact hgoesOn took rfl rfl hpassed (by simp [hthread, lateStepsLeft])
      | true =>
        have took : al.step .work = some ({ al with thread := .due }, []) := by
          simp [Sync.Alarm.step, Sync.Alarm.work, hthread, hopen]
        exact hgoesOn took rfl rfl hpassed (by simp [hthread, lateStepsLeft])
    | due =>
      have took : al.step .work = some ({ al with thread := .calling }, [.called]) := by
        simp [Sync.Alarm.step, Sync.Alarm.work, hthread]
      exact hgoesOn took rfl rfl hpassed (by simp [hthread, lateStepsLeft])
    | calling =>
      have hbalance := (Sync.Alarm.run_calls hrun).2
      have hcount : 0 < ae.count .called := by
        simp only [hthread, Sync.Alarm.Thread.inside, Sync.Alarm.armed] at hbalance
        omega
      exact hl.returns_ready (.inr (.inl (hcalled (List.count_pos_iff.mp hcount))))
    | exited =>
      rcases Sync.Alarm.run_exited hrun hthread with hmem | hcanceled
      · exact hl.returns_ready (.inr (.inl (hcalled hmem)))
      · cases hopen.symm.trans hcanceled

/-- What brings a run to its end: its manager has left the loop, or there is something for it to find,
now or once the news of it has come. -/
inductive Due (r : Run σ) : Prop where
  | leaves (past : r.position.isWatching = false)
  | stopped (gone : r.supervisor.hasStopped = true)
  | ended (k : Nat) (g : Gated) (there : r.children[k]? = some g) (dead : g.life.isLive = false)
  | late (al : Sync.Alarm) (armed : r.alarm = some al) (passed : al.passed = true)

theorem Launched.returns (hl : Launched r) (hdue : Due r) : Returns r := by
  cases hw : r.position.isWatching with
  | false => exact hl.departs hw
  | true =>
    cases hdue with
    | leaves past => cases hw.symm.trans past
    | stopped gone => exact hl.returns_ready (.inl gone)
    | ended k g there dead => exact hl.ends hw there dead
    | late al armed passed => exact hl.expires hw armed passed

/-- What is returned is the verdict on the run, unless giving the strategy up panics. An internal error
is none of the manager, and a pid is that of one child. -/
structure Returned (start : Run σ) (acts : List Action) (r : Run σ) (e : List Entry)
    (res : Result Outcome) : Prop where
  verdict : ∃ verdict, Verdict start acts r e verdict ∧
    (res = r.surrender.1.bind fun _ => verdict) ∧
    ∀ c, InternalError c → verdict = .error (.failed c) →
      .supervisor (.returned .finalize (.error (.failed c))) ∈ e
  apart : ∀ i j fork fork' pid, .child i (.returned manager (.create fork) (.ok (.pid pid))) ∈ e →
    .child j (.returned manager (.create fork') (.ok (.pid pid))) ∈ e → i = j

theorem Fresh.returned (hf : Fresh start) (h : run start acts = some (r, e))
    (hr : r.position = .returned res) (hl : .supervisor (.returned .start (.ok ())) ∈ e)
    (hcalm : ∀ q, .supervisor (.returned .finalize (.error (.panicked q))) ∉ e) :
    Returned start acts r e res := by
  have hfits := hf.fits h
  rw [hr] at hfits
  obtain ⟨-, f, hfits, hres⟩ := hfits
  obtain ⟨hverdict, hapart⟩ := hfits.verdict hl hcalm
  refine ⟨⟨f.result, hverdict, hres, ?_⟩, ?_⟩
  · intro c hc hfailed
    exact (hfailed ▸ hverdict).internal_from_finalize hc
  · intro i j fork fork' pid hi hj
    obtain ⟨g, hg, hgpid⟩ := created_there hf h hi
    obtain ⟨g', hg', hgpid'⟩ := created_there hf h hj
    have hnames : r.names[i]? = r.names[j]? := by simp [names, hg, hg', hgpid, hgpid']
    exact (List.getElem?_inj (by simpa [names] using (List.getElem?_eq_some_iff.mp hg).1) hapart).mp
      hnames

/-- Once the loop of the supervisor, a child or the time has come to its end, a run whose supervisor was
started comes back, with nothing needed but steps of its own threads, and then and ever it returns its
verdict; unless its last hook panics. -/
theorem launched_run_returns_verdict {benchmarks : List Benchmark} {mode : KillMode} {hasLimit : Bool}
    {forks : Nat → Except Failure Pid} {strategy : σ} {spawn : Except Failure Unit}
    {watchers : Nat → Except Failure Unit} {timer : Except Failure Unit}
    (h : run (create benchmarks mode hasLimit forks strategy spawn watchers timer) acts = some (r, e))
    (hl : .supervisor (.returned .start (.ok ())) ∈ e)
    (hcalm : ∀ q, .supervisor (.returned .finalize (.error (.panicked q))) ∉ e) :
    (∀ res, r.position = .returned res →
      Returned (create benchmarks mode hasLimit forks strategy spawn watchers timer) acts r e res) ∧
    (Due r → ∃ later r' e', (∀ a ∈ later, a.isOwn = true) ∧ run r later = some (r', e') ∧
      ((∃ res, r'.position = .returned res ∧
          Returned (create benchmarks mode hasLimit forks strategy spawn watchers timer)
            (acts ++ later) r' (e ++ e') res) ∨
        ∃ q, .supervisor (.returned .finalize (.error (.panicked q))) ∈ e')) := by
  have hf := create_fresh benchmarks mode hasLimit forks strategy spawn watchers timer
  refine ⟨fun res hr => hf.returned h hr hl hcalm, fun hdue => ?_⟩
  have hlaunched : Launched r := ⟨_, acts, e, hf, h, hl, hcalm⟩
  obtain ⟨later, r', e', hown, hrun, hend⟩ := hlaunched.returns hdue
  refine ⟨later, r', e', hown, hrun, ?_⟩
  by_cases hpanics : ∃ q, .supervisor (.returned .finalize (.error (.panicked q))) ∈ e'
  · exact .inr hpanics
  · obtain ⟨res, hr⟩ := hend.resolve_right hpanics
    refine .inl ⟨res, hr, hf.returned (Machine.run_append.mpr ⟨r, e, e', h, hrun, rfl⟩) hr
      (List.mem_append_left _ hl) ?_⟩
    intro q hq
    rcases List.mem_append.mp hq with hq | hq
    · exact hcalm q hq
    · exact hpanics ⟨q, hq⟩

/-- The benchmark that a run has returned as the one that ended. -/
def Position.ended? : Position → Option Pid
  | .returned (.ok (.completed _ pid _)) => some pid
  | _ => none

def Entry.isLaunch : Entry → Bool
  | .supervisor (.returned .start (.ok ())) => true
  | _ => false

/-- The last hook panics. -/
def Entry.isLastPanic : Entry → Bool
  | .supervisor (.returned .finalize (.error (.panicked _))) => true
  | _ => false

theorem Position.ended?_eq_some {position : Position} {pid : Pid} (h : position.ended? = some pid) :
    ∃ b t, position = .returned (.ok (.completed b pid t)) := by
  unfold Position.ended? at h
  split at h
  · cases h
    exact ⟨_, _, rfl⟩
  · cases h

theorem Entry.isLaunch_iff {x : Entry} :
    x.isLaunch = true ↔ x = .supervisor (.returned .start (.ok ())) := by
  unfold Entry.isLaunch
  split <;> simp_all

/-- A child has ended. -/
def hasEnded (r : Run σ) : Bool := r.children.any fun g => !g.life.isLive

omit [Strategy σ] in
theorem Due.of_hasEnded (h : hasEnded r = true) : Due r := by
  obtain ⟨g, hmem, hdead⟩ := List.any_eq_true.mp h
  obtain ⟨k, hk⟩ := List.mem_iff_getElem?.mp hmem
  exact .ended k g hk (by simpa using hdead)

theorem launched_of_entries (h : e.any Entry.isLaunch = true) :
    .supervisor (.returned .start (.ok ())) ∈ e := by
  obtain ⟨y, hy, hstart⟩ := List.any_eq_true.mp h
  exact Entry.isLaunch_iff.mp hstart ▸ hy

theorem calm_of_entries (h : e.any Entry.isLastPanic = false) (q : Panic) :
    .supervisor (.returned .finalize (.error (.panicked q))) ∉ e :=
  fun hq => List.any_eq_false.mp h _ hq rfl

/-- A benchmark ends before its limit is reached. From there the run can come back by itself, and in one
way of doing so it returns how the benchmark has ended. -/
theorem launched_run_returns_completed :
    let start : Run Strategy.Script := create [⟨0, "a", "/bin/a", []⟩] .single true
      (fun _ => .ok 100) { name := "script" }
    let launch : List Action := List.replicate 8 .manage ++ [.child 0 (.child .settle)] ++
      List.replicate 4 .manage ++ [.child 0 (.child .pass), .child 0 (.child (.execute none))] ++
      List.replicate 4 .manage
    let finish : List Action :=
      List.replicate 4 (.child 0 (.advance watcher)) ++ [.publish 100]
    let cleanUp : List Action := List.replicate 3 .manage ++ [.alarm .work] ++
      List.replicate 3 .manage ++ [.work] ++ List.replicate 9 .manage
    let acts := launch ++ [.child 0 (.child (.exit 0))]
    (∃ r e, run start acts = some (r, e) ∧ Due r ∧
      ∃ later r' e', (∀ a ∈ later, a.isOwn = true) ∧ run r later = some (r', e') ∧
        ((∃ res, r'.position = .returned res ∧ Returned start (acts ++ later) r' (e ++ e') res) ∨
          ∃ q, .supervisor (.returned .finalize (.error (.panicked q))) ∈ e')) ∧
      ∃ r e b t, run start (acts ++ finish ++ cleanUp) = some (r, e) ∧
        r.position = .returned (.ok (.completed b 100 t)) ∧
        Returned start (acts ++ finish ++ cleanUp) r e (.ok (.completed b 100 t)) := by
  intro start launch finish cleanUp acts
  refine ⟨?_, ?_⟩
  · have hended : (run start acts).map (fun x =>
        (hasEnded x.1, x.2.any Entry.isLaunch, x.2.any Entry.isLastPanic)) =
        some (true, true, false) := by
      decide +kernel
    obtain ⟨⟨r, e⟩, hrun, hx⟩ := Option.map_eq_some_iff.mp hended
    obtain ⟨hdead, hx⟩ := Prod.mk.inj hx
    obtain ⟨hstarted, hcalm⟩ := Prod.mk.inj hx
    have hdue := Due.of_hasEnded hdead
    exact ⟨r, e, hrun, hdue, (launched_run_returns_verdict hrun (launched_of_entries hstarted)
      (calm_of_entries hcalm)).2 hdue⟩
  · have hend : (run start (acts ++ finish ++ cleanUp)).map (fun x =>
        (x.1.position.ended?, x.2.any Entry.isLaunch, x.2.any Entry.isLastPanic)) =
        some (some 100, true, false) := by
      decide +kernel
    obtain ⟨⟨r, e⟩, hrun, hx⟩ := Option.map_eq_some_iff.mp hend
    obtain ⟨hreturned, hx⟩ := Prod.mk.inj hx
    obtain ⟨hstarted, hcalm⟩ := Prod.mk.inj hx
    obtain ⟨b, t, hr⟩ := Position.ended?_eq_some hreturned
    exact ⟨r, e, b, t, hrun, hr, (launched_run_returns_verdict hrun (launched_of_entries hstarted)
      (calm_of_entries hcalm)).1 _ hr⟩

end Corun.Run
