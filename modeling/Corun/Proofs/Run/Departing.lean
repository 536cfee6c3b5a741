import Corun.Proofs.Run.Participants
import Corun.Proofs.Run.Stranding
import Corun.Proofs.Run.Verdict
import Corun.Proofs.Supervisor.Joining

namespace Corun.Watch
open Os Child

variable {w : Watch} {pid : Pid}

/-- Steps that a task has left to make. -/
def Task.stepsLeft : Task → Nat
  | awaiting => 2
  | publishing _ => 1
  | ended _ | panicked _ => 0

def stepsLeft (w : Watch) : Nat := (w.tasks.map fun t => t.2.stepsLeft).sum

theorem stepsLeft_insert {before after : Task} {published : List Pid} (hw : Sound w)
    (hfind : PidMap.find? pid w.tasks = some before) (hless : after.stepsLeft < before.stepsLeft) :
    stepsLeft ⟨PidMap.insert pid after w.tasks, published⟩ < w.stepsLeft := by
  have hsum := PidMap.sum_insert (a := after) Task.stepsLeft hw.ascending hfind
  simp only [stepsLeft]
  omega

theorem settled_stepsLeft (res : Result Termination) : (Task.settled res).stepsLeft < 2 := by
  rcases res with (f | q) | t <;> simp [Task.settled, Task.stepsLeft]

end Corun.Watch

namespace Corun.Run
open Os Child

/-- What is done by the manager and by those it waits for: the worker, the tasks of the watch and the
thread of the alarm. No child goes on, and no time passes. -/
def Action.isOwn : Action → Bool
  | manage | publish _ | work | alarm .work | alarm .expire => true
  | child _ a => a.isHis watcher
  | _ => false

variable {σ : Type} [Strategy σ] {r r' : Run σ} {a : Action} {e : List Entry} {k : Nat} {c : Call}
  {g g' : Gated} {ge : List Gated.Entry} {pid : Pid} {f : Ending} {p : Position}
  {outcome : Except Failure Outcome} {joined : Result Unit}

/-- The run comes back if those go on, or its last hook panics on the way. -/
def Returns (r : Run σ) : Prop :=
  ∃ later r' e, (∀ a ∈ later, a.isOwn = true) ∧ run r later = some (r', e) ∧
    ((∃ res, r'.position = .returned res) ∨
      ∃ q, .supervisor (.returned .finalize (.error (.panicked q))) ∈ e)

theorem Returns.after (hr : Returns r') (h : step r a = some (r', e)) (ha : a.isOwn = true) :
    Returns r := by
  obtain ⟨later, u, e', hown, hrun, hend⟩ := hr
  refine ⟨a :: later, u, e ++ e', ?_, Machine.run_cons.mpr ⟨r', e, e', h, hrun, rfl⟩, ?_⟩
  · intro b hb
    rcases List.mem_cons.mp hb with rfl | hb
    · exact ha
    · exact hown b hb
  · exact hend.imp_right fun ⟨q, hq⟩ => ⟨q, List.mem_append_right _ hq⟩

/-- The run has started its supervisor, and its last hook has not panicked. -/
def Launched (r : Run σ) : Prop :=
  ∃ (start : Run σ) (acts : List Action) (e : List Entry), Fresh start ∧ run start acts = some (r, e) ∧
    .supervisor (.returned .start (.ok ())) ∈ e ∧
    ∀ q, .supervisor (.returned .finalize (.error (.panicked q))) ∉ e

theorem Launched.goesOn (hl : Launched r) (h : step r a = some (r', e)) (ha : a.isOwn = true)
    (hnext : Launched r' → Returns r') : Returns r := by
  obtain ⟨start, acts, before, hf, hrun, hstarted, hcalm⟩ := hl
  have hstep : run r [a] = some (r', e) :=
    Machine.run_cons.mpr ⟨r', e, [], h, rfl, (List.append_nil e).symm⟩
  by_cases hpanics : ∃ q, .supervisor (.returned .finalize (.error (.panicked q))) ∈ e
  · exact ⟨[a], r', e, by simpa using ha, hstep, .inr hpanics⟩
  · refine (hnext ⟨start, acts ++ [a], before ++ e, hf, ?_, List.mem_append_left _ hstarted, ?_⟩).after
      h ha
    · exact Machine.run_append.mpr ⟨r, before, e, hrun, hstep, rfl⟩
    · intro q hq
      rcases List.mem_append.mp hq with hq | hq
      · exact hcalm q hq
      · exact hpanics ⟨q, hq⟩

theorem Launched.manned (hl : Launched r) : Manned r := by
  obtain ⟨start, acts, e, hf, hrun, -⟩ := hl
  exact hf.manned.run hrun

theorem Launched.stationed (hl : Launched r) : Stationed r := by
  obtain ⟨start, acts, e, hf, hrun, -⟩ := hl
  exact hf.stationed.run hrun

theorem Launched.sound (hl : Launched r) : r.watch.Sound := by
  obtain ⟨start, acts, e, hf, hrun, -⟩ := hl
  exact run_sound hf hrun

theorem Launched.soleWaiter (hl : Launched r) (hk : r.children[k]? = some g) :
    g.SoleWaiter watcher := by
  obtain ⟨start, acts, e, hf, hrun, -⟩ := hl
  exact run_soleWaiter hf hrun hk

theorem Launched.attended (hl : Launched r) : Attended r := by
  obtain ⟨start, acts, e, hf, hrun, -⟩ := hl
  exact run_attended hf hrun

theorem Launched.alarmReached (hl : Launched r) : AlarmReached r := by
  obtain ⟨start, acts, e, hf, hrun, -⟩ := hl
  exact run_alarmReached hf hrun

theorem Launched.hasKilled (hl : Launched r) (hk : r.children[k]? = some g)
    (hs : r.position.HasKilled k) : g.life.isLive = false := by
  obtain ⟨start, acts, e, hf, hrun, -⟩ := hl
  exact run_hasKilled hf hrun hk hs

/-- The launch is past, and was not given up. -/
theorem Launched.past (hl : Launched r) :
    r.position.isLaunch = false ∧ ∀ x, r.position ≠ .aborting x := by
  obtain ⟨start, acts, e, hf, hrun, hstarted, -⟩ := hl
  have hfits := hf.fits hrun
  refine ⟨?_, ?_⟩
  · by_contra hlaunch
    exact (fits_launch (by simpa using hlaunch)).mp hfits hstarted
  · intro x here
    rw [here] at hfits
    exact hfits hstarted

/-- What the run is to give back while it is being wound up. -/
def Position.ending? : Position → Option Ending
  | cleaning f | killing _ f | draining f | releasing _ f | dismissing f => some f
  | _ => none

theorem Launched.judged (hl : Launched r) (hf : r.position.ending? = some f) :
    (∀ q, f ≠ .unwound q) ∧ r.supervisor.worker = .absent := by
  obtain ⟨start, acts, e, hfresh, hrun, hstarted, hcalm⟩ := hl
  have hfits := hfresh.fits hrun
  have hending : f.Fits start acts r e := by
    cases here : r.position with
    | cleaning | killing | draining | releasing | dismissing =>
      rw [here] at hfits hf
      cases hf
      exact hfits
    | _ =>
      rw [here] at hf
      cases hf
  cases f with
  | aborted x => exact absurd hstarted hending
  | judged outcome joined finalized => exact ⟨by simp, hending.2.2.1⟩
  | unwound q => exact absurd hstarted (hending.resolve_right (hcalm q))

/-- No child is at its gate where the manager waits for the tasks of the watch, nor before. -/
theorem Launched.unready (hl : Launched r) (hk : r.children[k]? = some g)
    (hp : r.position.HasReleased k) : g.phase ≠ .ready := by
  have hjudged : ∀ q, r.position ≠ .draining (.unwound q) :=
    fun q here => (hl.judged (f := .unwound q) (by rw [here]; rfl)).1 q rfl
  obtain ⟨start, acts, e, hf, hrun, -⟩ := hl
  refine hf.hasReleased hrun ?_ hk hp
  rintro ⟨before, after, u, e₁, q, rfl, hu, hpanics⟩
  exact hjudged q (hf.stranded hrun hu hpanics).unwinding

theorem Launched.dismisses (hl : Launched r) (here : r.position = .dismissing f) : Returns r := by
  have hw := (hl.judged (f := f) (by rw [here]; rfl)).2
  have hstep : step r .manage = some (r.conclude f) := by simp [step, manage, here, dismiss, hw]
  exact ⟨[.manage], (r.conclude f).1, (r.conclude f).2, by simp [Action.isOwn],
    Machine.run_cons.mpr ⟨_, _, [], hstep, rfl, (List.append_nil _).symm⟩, .inl ⟨_, rfl⟩⟩

/-- Steps that the manager has left to make with a child that it kills, or whose record it gives up. -/
def stepsLeft (g : Gated) : Nat :=
  match g.pending? manager, g.phase with
  | some ⟨_, .notifying⟩, _ => 5
  | some ⟨_, .signaling⟩, _ => 4
  | some ⟨_, .observing⟩, _ => 2
  | some _, _ => 1
  | none, .ready | none, .running => 6
  | none, .killed => 3
  | none, _ => 0

/-- A step of a kill or a wait leaves fewer to make, unless the call comes back. -/
theorem ownerStep_stepsLeft (ht : g.Tended manager) (h : Gated.OwnerStep manager g c g' ge)
    (hc : c ≠ .start) :
    stepsLeft g' < stepsLeft g ∨
      (Gated.returned? manager ge).isSome = true ∧ (c = .wait ∨ releaseCall? g ≠ some .kill) := by
  cases h with
  | refuses | starts | releases | breaks | closes | reads | learns => exact absurd rfl hc
  | kills idle left =>
    rcases left with hp | hp <;> exact .inl (by simp [stepsLeft, idle, hp])
  | spares idle ended =>
    refine .inr ⟨by simp, .inr ?_⟩
    rcases ended with hp | hp <;> simp [releaseCall?, idle, hp]
  | notifies c next l inside leads =>
    obtain ⟨rfl, -⟩ | ⟨-, rfl⟩ := leads
    · exact absurd rfl hc
    · exact .inl (by simp [stepsLeft, inside])
  | signals life inside =>
    have hkilled : ({ g with life }.back manager .kill (.ok .done)).1.phase = .killed :=
      ht.owned _ inside
    exact .inl (by simp [stepsLeft, inside, hkilled])
  | waits idle killed => exact .inl (by simp [stepsLeft, idle, killed])
  | observes status ending inside => exact .inl (by simp [stepsLeft, inside])
  | cannotTell | isLate => exact .inr ⟨by simp, .inl rfl⟩
  | reaps => exact .inr ⟨by simp [Gated.returned?, Gated.Entry.returned?], .inl rfl⟩

theorem begin_taken (hidle : g.pending? manager = none) (hfree : g.holder = none)
    (hc : c = .kill ∨ c = .wait) : ∃ g' ge, g.step (nextAction c g) = some (g', ge) := by
  have hnext : nextAction c g = .call manager c := by simp [nextAction, hidle]
  have hopen : ¬ (g.pending? manager).isSome = true := by simp [hidle]
  rw [hnext]
  change ∃ g' ge, g.begin manager c = some (g', ge)
  unfold Gated.begin
  rw [if_neg hopen]
  rcases hc with rfl | rfl
  · exact ⟨(g.kill manager).1, (g.kill manager).2, if_neg (not_not_intro hfree)⟩
  · exact ⟨(g.wait manager .wait).1, (g.wait manager .wait).2, if_neg (not_not_intro hfree)⟩

/-- The manager can go on with a kill. -/
theorem kill_goesOn (ht : g.Tended manager) (hs : g.Shared)
    (hin : ∀ q, g.pending? manager = some q → q.call = .kill) :
    ∃ g' ge, g.step (nextAction .kill g) = some (g', ge) := by
  cases hp : g.pending? manager with
  | none => exact begin_taken hp (ht.free hs (by simp [hp])) (.inl rfl)
  | some q =>
    obtain ⟨d, s⟩ := q
    have howned := ht.owned _ hp
    obtain rfl : d = .kill := hin _ hp
    cases s with
    | notifying =>
      have hstep : g.step (nextAction .kill g) =
          some ({ g with latch := ⟨true, g.latch.bell.announce⟩ }.place manager .kill .signaling, []) := by
        simp [nextAction, hp, Gated.step, Gated.advance, Sync.Latch.step]
      exact ⟨_, _, hstep⟩
    | signaling =>
      have hstep : g.step (nextAction .kill g) = some (g.signal manager none) := by
        simp [nextAction, hp, Gated.step, Gated.advance]
      exact ⟨_, _, hstep⟩
    | releasing | closing | reading | observing | reaping | checking | approaching | asleep | past
    | asking => exact howned.elim

/-- It can go on with a wait for a child that has ended. -/
theorem wait_goesOn (ht : g.Tended manager) (hl : g.SoleWaiter watcher)
    (hdead : g.life.isLive = false)
    (hin : ∀ q, g.pending? manager = some q → q.call = .wait) :
    ∃ g' ge, g.step (nextAction .wait g) = some (g', ge) := by
  have hs := hl.shared
  have hfree := ht.free hs fun q hq => by rw [hin q hq]; rfl
  cases hp : g.pending? manager with
  | none => exact begin_taken hp hfree (.inr rfl)
  | some q =>
    obtain ⟨d, s⟩ := q
    have howned := ht.owned _ hp
    obtain rfl : d = .wait := hin _ hp
    have hadvances : nextAction .wait g = .advance manager := by
      cases s with
      | reading => exact howned.elim
      | _ => simp [nextAction, hp]
    rw [hadvances]
    cases s with
    | observing =>
      cases hlife : g.life with
      | zombie status =>
        cases hx : Termination.ofStatus? status with
        | some x => exact ⟨_, _, Gated.observing_asks hp hlife hx⟩
        | none =>
          obtain ⟨pid, hstep⟩ := hs.observing_nameless hp hlife hx
          exact ⟨_, _, hstep⟩
      | reaped status =>
        obtain ⟨pid, hstep⟩ := hs.observing_late hp (hl.unseized.terminated hlife)
        exact ⟨_, _, hstep⟩
      | absent => exact absurd hlife ht.alive
      | forked | gated | released | running | refused => simp [hlife, Life.isLive] at hdead
    | reaping =>
      obtain ⟨g', ge, x, hstep, -⟩ := hs.reap_returns hl.unseized hp hfree
      exact ⟨g', ge, hstep⟩
    | notifying | releasing | closing | reading | signaling | checking | approaching | asleep | past
    | asking => exact howned.elim

omit [Strategy σ] in
theorem withChild_taken {ga : Gated.Action} (hk : r.children[k]? = some g)
    (took : g.step ga = some (g', ge)) :
    r.withChild k ga = some ({ r with children := r.children.set k g' }, ge) := by
  simp [withChild, hk, took]

omit [Strategy σ] in
theorem driven (hk : r.children[k]? = some g) (took : g.step (nextAction c g) = some (g', ge)) :
    r.drive k c = some ({ r with children := r.children.set k g' }, ofChild k ge,
      Gated.returned? manager ge) := by
  simp [drive, hk, withChild_taken hk took]

theorem step_releasing (here : r.position = .releasing k f) (hk : r.children[k]? = some g)
    (hdue : releaseCall? g = some c) (took : g.step (nextAction c g) = some (g', ge)) :
    step r .manage = some ({ r with children := r.children.set k g' }.goTo
      (if (Gated.returned? manager ge).isSome && isWait c then .releasing (k + 1) f
        else .releasing k f), ofChild k ge) := by
  simp only [step, manage, here, release, hk, hdue, driven hk took, Option.map_some]
  split <;> rfl

theorem step_killing (here : r.position = .killing k f) (hk : r.children[k]? = some g)
    (took : g.step (nextAction .kill g) = some (g', ge)) :
    ∃ lines, step r .manage = some ({ r with children := r.children.set k g' }.goTo
      (if (Gated.returned? manager ge).isSome then .killing (k + 1) f else .killing k f), lines) := by
  simp only [step, manage, here, killChild, hk, driven hk took, Option.map_some]
  rcases Gated.returned? manager ge with _ | (⟨x⟩ | ⟨q⟩) | answer <;> exact ⟨_, rfl⟩

omit [Strategy σ] in
/-- Giving up a record, the manager kills the child or waits for it. -/
theorem Manned.releases (hm : Manned r) (here : r.position = .releasing k f)
    (hk : r.children[k]? = some g) (hdue : releaseCall? g = some c) : c = .kill ∨ c = .wait := by
  cases hp : g.pending? manager with
  | none =>
    simp only [releaseCall?, hp] at hdue
    split at hdue <;> cases hdue <;> simp
  | some q =>
    have hcalls := hm.inside k g q hk hp
    simp only [releaseCall?, hp] at hdue
    rw [here] at hcalls
    exact Option.some.inj hdue ▸ hcalls.2

/-- The record of a child is given up. -/
theorem Launched.release_one (hl : Launched r) (here : r.position = .releasing k f)
    (hk : r.children[k]? = some g)
    (hnext : ∀ u : Run σ, Launched u → u.position = .releasing (k + 1) f →
      u.children.length = r.children.length → Returns u) : Returns r := by
  induction hn : stepsLeft g using Nat.strongRecOn generalizing r g with
  | ind n ih =>
    subst hn
    have hm := hl.manned
    have ht := hm.tended k g hk
    cases hdue : releaseCall? g with
    | none =>
      have hstep : step r .manage = some (r.goTo (.releasing (k + 1) f), []) := by
        simp [step, manage, here, release, hk, hdue]
      exact hl.goesOn hstep rfl fun hu => hnext _ hu rfl rfl
    | some c =>
      have hdead := hl.hasKilled hk (by rw [here]; exact (hl.judged (f := f) (by rw [here]; rfl)).1)
      have hcall := hm.releases here hk hdue
      have hin : ∀ q, g.pending? manager = some q → q.call = c := by
        intro q hq
        simpa [releaseCall?, hq] using hdue
      obtain ⟨g', ge, took⟩ : ∃ g' ge, g.step (nextAction c g) = some (g', ge) := by
        rcases hcall with rfl | rfl
        · exact kill_goesOn ht (hl.soleWaiter hk).shared hin
        · exact wait_goesOn ht (hl.soleWaiter hk) hdead hin
      have hstep := step_releasing here hk hdue took
      by_cases hback : ((Gated.returned? manager ge).isSome && isWait c) = true
      · rw [if_pos hback] at hstep
        exact hl.goesOn hstep rfl fun hu => hnext _ hu rfl (by simp)
      · rw [if_neg hback] at hstep
        have hopen : isWait c = true → Gated.returned? manager ge = none := by
          intro hwait
          simpa [hwait] using hback
        have howner := hm.ownerStep hk (.releaseGoesOn k f c _ here hdue hopen) took
        have hleft : stepsLeft g' < stepsLeft g := by
          refine (ownerStep_stepsLeft ht howner (by rintro rfl; simp at hcall)).resolve_right ?_
          rintro ⟨hsome, rfl | hno⟩
          · rw [hopen rfl] at hsome
            cases hsome
          · rcases hcall with rfl | rfl
            · exact hno hdue
            · rw [hopen rfl] at hsome
              cases hsome
        have hlt := (List.getElem?_eq_some_iff.mp hk).1
        refine hl.goesOn hstep rfl fun hu => ih _ hleft hu rfl (List.getElem?_set_self hlt) ?_ rfl
        intro v hv hthere hlength
        exact hnext v hv hthere (by simpa using hlength)

theorem Launched.releases (hl : Launched r) (here : r.position = .releasing k f) : Returns r := by
  induction hn : r.children.length - k generalizing r k with
  | zero =>
    have hpast : r.children[k]? = none := List.getElem?_eq_none_iff.mpr (by omega)
    have hstep : step r .manage = some (r.goTo (.dismissing f), []) := by
      simp [step, manage, here, release, hpast]
    exact hl.goesOn hstep rfl fun hu => hu.dismisses rfl
  | succ n ih =>
    have hlt : k < r.children.length := by omega
    refine hl.release_one here (List.getElem?_eq_getElem hlt) ?_
    intro u hu hthere hlength
    exact ih hu hthere (by omega)

theorem Gated.Action.isHis.background {ga : Gated.Action} (h : ga.isHis watcher = true) :
    isBackground ga = true := by
  cases ga with
  | advance u =>
    obtain rfl : u = watcher := of_decide_eq_true h
    rfl
  | bell | resume => rfl
  | call | receive | refuse | child | seize => cases h

/-- A task that awaits a child which has ended comes back with what that has come to. -/
theorem Launched.settles (hl : Launched r) (hk : r.children[k]? = some g) (hpid : g.pid? = some pid)
    (hawaits : PidMap.find? pid r.watch.tasks = some .awaiting) (hback : g.ComesBack watcher)
    (hnext : ∀ (u : Run σ) (res : Result Termination), Launched u → u.position = r.position →
      u.watch = { r.watch with tasks := PidMap.insert pid (.settled res) r.watch.tasks } →
      Returns u) : Returns r := by
  obtain ⟨acts, last, ge, res, hrun, hhis, hres⟩ := hback
  induction acts generalizing r g ge with
  | nil =>
    obtain ⟨-, rfl⟩ := Machine.run_nil.mp hrun
    cases hres
  | cons a acts ih =>
    obtain ⟨g', e₁, e₂, took, hrest, rfl⟩ := Machine.run_cons.mp hrun
    have hlt := (List.getElem?_eq_some_iff.mp hk).1
    have hmine : a.isHis watcher = true := hhis a List.mem_cons_self
    have hbackground := Gated.Action.isHis.background hmine
    have hnamed :=
      (background_backgroundStep (hl.manned.tended k g hk) hbackground took).later.pid.trans hpid
    cases hfirst : Gated.returned? watcher e₁ with
    | some x =>
      have hstep : step r (.child k a) = some ({ r with
          children := r.children.set k g'
          watch := { r.watch with
            tasks := PidMap.insert pid (.settled (awaited x)) r.watch.tasks } }, ofChild k e₁) := by
        have hsettle : r.watch.step (.settle pid (awaited x)) = some ({ r.watch with
            tasks := PidMap.insert pid (.settled (awaited x)) r.watch.tasks }, []) := by
          rcases awaited x with (f | q) | t <;> simp [Watch.step, hawaits, Watch.Task.settled]
        simp [step, hbackground, withChild_taken hk took, settle, hfirst, hlt, hnamed, hsettle]
      exact hl.goesOn hstep hmine fun hu => hnext _ (awaited x) hu rfl rfl
    | none =>
      have hstep : step r (.child k a) =
          some ({ r with children := r.children.set k g' }, ofChild k e₁) := by
        simp [step, hbackground, withChild_taken hk took, settle, hfirst]
      have hlater : Gated.returned? watcher e₂ = some res := by
        unfold Gated.returned? at hres hfirst ⊢
        rwa [List.findSome?_append, hfirst, Option.none_or] at hres
      exact hl.goesOn hstep hmine fun hu => ih hu (List.getElem?_set_self hlt) hnamed hawaits
        hnext e₂ hrest (fun b hb => hhis b (List.mem_cons_of_mem _ hb)) hlater

/-- The task of a child that has ended comes back by itself while the manager is busy with no child. -/
theorem Launched.comesBack (hl : Launched r) (hk : r.children[k]? = some g)
    (hin : (g.pending? watcher).isSome = true) (hidle : ∀ c, ¬ r.position.Calls k c)
    (hreleased : r.position.HasReleased k) (hdead : g.life.isLive = false) :
    g.ComesBack watcher := by
  have ht := hl.manned.tended k g hk
  have hlone := hl.soleWaiter hk
  have hnone := hl.manned.idle hidle hk
  obtain ⟨⟨c, s⟩, hp⟩ := Option.isSome_iff_exists.mp hin
  obtain rfl : c = .await := (ht.awaiting watcher _ (by decide) hp).call_eq
  exact hlone.comesBack (ht.free hlone.shared (by simp [hnone])) hdead
    (Gated.left_iff.mpr ⟨ht.begun, hl.unready hk hreleased⟩) hp

theorem step_publishes {x : Except Failure Termination}
    (hfind : PidMap.find? pid r.watch.tasks = some (.publishing x)) :
    step r (.publish pid) = some ({ r with
      watch := ⟨PidMap.insert pid (.ended x) r.watch.tasks, r.watch.published ++ [pid]⟩ }, []) := by
  simp [step, Watch.step, hfind]

theorem Launched.drains (hl : Launched r) (here : r.position = .draining f) : Returns r := by
  induction hn : r.watch.stepsLeft using Nat.strongRecOn generalizing r with
  | ind n ih =>
    subst hn
    by_cases hall : (r.watch.tasks.all fun t => t.2.isOver) = true
    · obtain ⟨lines, hstep⟩ : ∃ lines, step r .manage =
          some ({ r with watch := .empty }.goTo (.releasing 0 f), lines) := by
        simp [step, manage, here, drain, hall]
      exact hl.goesOn hstep rfl fun hu => hu.releases rfl
    · obtain ⟨⟨pid, task⟩, hmem, hopen⟩ := List.all_eq_false.mp ((Bool.not_eq_true _).mp hall)
      have hfind := PidMap.find?_of_mem hl.sound.ascending hmem
      cases task with
      | awaiting =>
        obtain ⟨k, g, hk, hpid, hin⟩ := hl.attended pid hfind
        have hdead :=
          hl.hasKilled hk (by rw [here]; exact (hl.judged (f := f) (by rw [here]; rfl)).1)
        have hback := hl.comesBack hk hin (by simp [here, Position.Calls]) (by rw [here]; trivial) hdead
        refine hl.settles hk hpid hfind hback fun u res hu hthere hwatch => ?_
        refine ih _ ?_ hu (hthere.trans here) rfl
        rw [hwatch]
        exact Watch.stepsLeft_insert hl.sound hfind (Watch.settled_stepsLeft res)
      | publishing x =>
        refine hl.goesOn (step_publishes hfind) rfl fun hu => ih _ ?_ hu here rfl
        exact Watch.stepsLeft_insert hl.sound hfind (by simp [Watch.Task.stepsLeft])
      | ended | panicked => simp [Watch.Task.isOver] at hopen

/-- A child is killed. -/
theorem Launched.kill_one (hl : Launched r) (here : r.position = .killing k f)
    (hk : r.children[k]? = some g)
    (hnext : ∀ u : Run σ, Launched u → u.position = .killing (k + 1) f →
      u.children.length = r.children.length → Returns u) : Returns r := by
  induction hn : stepsLeft g using Nat.strongRecOn generalizing r g with
  | ind n ih =>
    subst hn
    have hm := hl.manned
    have ht := hm.tended k g hk
    have hin : ∀ q, g.pending? manager = some q → q.call = .kill := by
      intro q hq
      have hcalls := hm.inside k g q hk hq
      rw [here] at hcalls
      exact hcalls.2
    obtain ⟨g', ge, took⟩ := kill_goesOn ht (hl.soleWaiter hk).shared hin
    obtain ⟨lines, hstep⟩ := step_killing here hk took
    cases hback : Gated.returned? manager ge with
    | some res =>
      rw [hback] at hstep
      exact hl.goesOn hstep rfl fun hu => hnext _ hu rfl (by simp)
    | none =>
      rw [hback] at hstep
      have howner := hm.ownerStep hk (.killGoesOn k f here) took
      have hleft := (ownerStep_stepsLeft ht howner (by simp)).resolve_right (by simp [hback])
      have hlt := (List.getElem?_eq_some_iff.mp hk).1
      refine hl.goesOn hstep rfl fun hu => ih _ hleft hu rfl (List.getElem?_set_self hlt) ?_ rfl
      intro v hv hthere hlength
      exact hnext v hv hthere (by simpa using hlength)

theorem Launched.kills (hl : Launched r) (here : r.position = .killing k f) : Returns r := by
  induction hn : r.children.length - k generalizing r k with
  | zero =>
    have hpast : r.children[k]? = none := List.getElem?_eq_none_iff.mpr (by omega)
    have hstep : step r .manage = some (r.goTo (.draining f), []) := by
      simp [step, manage, here, killChild, hpast]
    exact hl.goesOn hstep rfl fun hu => hu.drains rfl
  | succ n ih =>
    have hlt : k < r.children.length := by omega
    refine hl.kill_one here (List.getElem?_eq_getElem hlt) ?_
    intro u hu hthere hlength
    exact ih hu hthere (by omega)

theorem Launched.cleans (hl : Launched r) (here : r.position = .cleaning f) : Returns r := by
  have hstep : step r .manage = some (r.goTo (.killing 0 f), [info "cleaning up"]) := by
    simp [step, manage, here, clean]
  exact hl.goesOn hstep rfl fun hu => hu.kills rfl

theorem callSupervisor_taken {va : Supervisor.Action} {v : Supervisor σ}
    {ve : List Supervisor.Entry} (next : Result Unit → Run σ → Run σ)
    (h : r.supervisor.step va = some (v, ve)) : ∃ r' e, r.callSupervisor va next = some (r', e) := by
  simp only [callSupervisor, supervise, h, Option.map_some]
  split <;> exact ⟨_, _, rfl⟩

theorem Launched.finalizes (hl : Launched r) (here : r.position = .finalizing outcome joined) :
    Returns r := by
  have hs := hl.stationed
  have hstage : r.supervisor.stage = .joined := by
    have hsuits := hs.suits
    rwa [here] at hsuits
  have hdue : r.dueCall? = some (.call .finalize) := by simp [dueCall?, here]
  obtain ⟨v, ve, hv⟩ : ∃ v ve, r.supervisor.step (.call .finalize) = some (v, ve) := by
    cases hheld : r.supervisor.strategy with
    | none =>
      obtain ⟨v, hv⟩ := Supervisor.finalize_passed hs.placed hstage hheld
      exact ⟨v, _, hv⟩
    | some s =>
      obtain ⟨v, hv⟩ := Supervisor.finalize_taken hs.placed hstage hheld
      exact ⟨v, _, hv⟩
  obtain ⟨r', e, hstep⟩ : ∃ r' e, step r .manage = some (r', e) := by
    simp only [step, manage, here, finalize]
    exact callSupervisor_taken _ hv
  refine hl.goesOn hstep rfl fun hu => ?_
  obtain ⟨ve', hc, -⟩ := hs.asked hdue (step_move hstep)
  generalize r'.supervisor = w at hc
  generalize hp : r'.position = p at hc
  cases hc with
  | finalizes outcome joined s =>
    rcases hr : (Strategy.finalize s).result with (x | q) | u
    · exact hu.cleans (by rw [hp, hr]; rfl)
    · exact absurd rfl ((hu.judged (f := .unwound q) (by rw [hp, hr]; rfl)).1 q)
    · exact hu.cleans (by rw [hp, hr]; rfl)
  | finalizesNone outcome joined => exact hu.cleans hp
  | setsUp _ here' | prepares here' | delivers _ _ _ here' | deliveryStops _ _ _ _ here'
  | prepared _ here' | starts _ here' | startStops _ _ here' | joins _ _ _ here'
  | joinsPanicked _ here' => exact absurd (here.symm.trans here') (by simp)

theorem Launched.flagged (hl : Launched r) (here : r.position = .joining outcome) :
    r.supervisor.finished = true := by
  obtain ⟨start, acts, e, hf, hrun, -⟩ := hl
  exact run_flagged hf hrun here

theorem Launched.joins (hl : Launched r) (here : r.position = .joining outcome) : Returns r := by
  induction hn : Supervisor.stepsLeft r.supervisor using Nat.strongRecOn generalizing r with
  | ind n ih =>
    subst hn
    have hs := hl.stationed
    obtain ⟨hstage, hthere⟩ : r.supervisor.stage = .running ∧ r.supervisor.worker ≠ .absent := by
      have hsuits := hs.suits
      rwa [here] at hsuits
    rcases Supervisor.stopped_or_works hthere with hstopped | hworks
    · have hjoin := (Supervisor.join_taken_iff hthere hs.placed).mpr hstopped
      obtain ⟨⟨v, ve⟩, hv⟩ := Option.isSome_iff_exists.mp hjoin
      have hdue : r.dueCall? = some (.call .join) := by simp [dueCall?, here]
      obtain ⟨r', e, hstep⟩ : ∃ r' e, step r .manage = some (r', e) := by
        simp only [step, manage, here, join]
        exact callSupervisor_taken _ hv
      refine hl.goesOn hstep rfl fun hu => ?_
      obtain ⟨ve', hc, -⟩ := hs.asked hdue (step_move hstep)
      generalize r'.supervisor = w at hc
      generalize hp : r'.position = p at hc
      cases hc with
      | joins | joinsPanicked => exact hu.finalizes hp
      | setsUp _ here' | prepares here' | delivers _ _ _ here' | deliveryStops _ _ _ _ here'
      | prepared _ here' | starts _ here' | startStops _ _ here' | finalizes _ _ _ here'
      | finalizesNone _ _ here' => exact absurd (here.symm.trans here') (by simp)
    · obtain ⟨⟨v, ve⟩, hv⟩ := Option.isSome_iff_exists.mp hworks
      have hstep : step r .work = some ({ r with supervisor := v }, ofSupervisor ve) := by
        simp [step, supervise, hv]
      have hless := (Supervisor.move_stepsLeft (hl.flagged here) (by simp [hstage])
        (Supervisor.step_move hs.placed hv)).2
      refine hl.goesOn hstep rfl fun hu => ih _ ?_ hu here rfl
      exact Nat.lt_of_succ_le (by simpa [Supervisor.posted] using hless)

theorem Launched.closes (hl : Launched r) (here : r.position = .closing outcome) : Returns r := by
  have hstep : step r .manage =
      some ({ r with supervisor := { r.supervisor with finished := true } }.goTo (.joining outcome),
        []) := by
    simp [step, manage, here, close, supervise, Supervisor.step, ofSupervisor]
  exact hl.goesOn hstep rfl fun hu => hu.joins rfl

/-- Steps that are left to make until an alarm is given up. -/
def alarmStepsLeft (al : Sync.Alarm) : Nat :=
  match al.owner with
  | .keeping => 5
  | .ringing => 4
  | .joining => al.thread.stepsLeft + 1
  | .gone => 0

theorem step_disarming {al al' : Sync.Alarm} {ae : List Sync.Alarm.Entry}
    (here : r.position = .disarming outcome) (halarm : r.alarm = some al) (hkept : al.owner ≠ .gone)
    (took : al.step (disarmAction al.owner) = some (al', ae)) :
    step r .manage = some ({ r with alarm := some al' }, []) := by
  simp [step, manage, here, disarm, halarm, hkept, took]

theorem step_alarm {al al' : Sync.Alarm} {aa : Sync.Alarm.Action} {ae : List Sync.Alarm.Entry}
    (halarm : r.alarm = some al) (hbackground : isAlarmThread aa = true)
    (took : al.step aa = some (al', ae)) : step r (.alarm aa) =
      some ({ r with alarm := some al', expired := r.expired || ae.contains .called }, []) := by
  simp [step, hbackground, halarm, took]

theorem Launched.disarms_alarm {al : Sync.Alarm} (hl : Launched r)
    (here : r.position = .disarming outcome) (halarm : r.alarm = some al) : Returns r := by
  induction hn : alarmStepsLeft al using Nat.strongRecOn generalizing r al with
  | ind n ih =>
    subst hn
    obtain ⟨acts, ae, hrun, -⟩ := hl.alarmReached al halarm
    cases howner : al.owner with
    | keeping =>
      have took : al.step (disarmAction al.owner) =
          some ({ al with canceled := true, owner := .ringing }, []) := by
        simp [howner, disarmAction, Sync.Alarm.step]
      refine hl.goesOn (step_disarming here halarm (by simp [howner]) took) rfl fun hu =>
        ih _ ?_ hu here rfl rfl
      simp [alarmStepsLeft, howner]
    | ringing =>
      obtain ⟨al', took, hjoining⟩ : ∃ al', al.step (disarmAction al.owner) = some (al', []) ∧
          al'.owner = .joining := by
        simp [howner, disarmAction, Sync.Alarm.step]
      refine hl.goesOn (step_disarming here halarm (by simp [howner]) took) rfl fun hu =>
        ih _ ?_ hu here rfl rfl
      have hfew : al'.thread.stepsLeft ≤ 2 := by
        unfold Sync.Alarm.Thread.stepsLeft
        split <;> omega
      simp only [alarmStepsLeft, howner, hjoining]
      omega
    | joining =>
      have hrung := Sync.Alarm.run_rung hrun howner
      rcases hrung.goesOn howner with hworks | hjoins
      · obtain ⟨⟨al', ae'⟩, took⟩ := Option.isSome_iff_exists.mp hworks
        refine hl.goesOn (step_alarm halarm rfl took) rfl fun hu => ih _ ?_ hu here rfl rfl
        have hmove := Sync.Alarm.step_move took
        have hless := (hrung.move hmove).2
        have hsame : al'.owner = .joining := by
          cases hmove <;> exact howner
        simp only [alarmStepsLeft, howner, hsame]
        simp only [List.count_singleton_self] at hless
        omega
      · obtain ⟨⟨al', ae'⟩, took⟩ := Option.isSome_iff_exists.mp hjoins
        have hgone : al'.owner = .gone := by
          cases Sync.Alarm.step_move took
          rfl
        have hdue : al.step (disarmAction al.owner) = some (al', ae') := by
          rw [howner]
          exact took
        refine hl.goesOn (step_disarming here halarm (by simp [howner]) hdue) rfl fun hu =>
          ih _ ?_ hu here rfl rfl
        simp [alarmStepsLeft, howner, hgone]
    | gone =>
      have hstep : step r .manage = some ({ r with alarm := none }.goTo (.closing outcome), []) := by
        simp [step, manage, here, disarm, halarm, howner]
      exact hl.goesOn hstep rfl fun hu => hu.closes rfl

theorem Launched.disarms (hl : Launched r) (here : r.position = .disarming outcome) : Returns r := by
  cases halarm : r.alarm with
  | none =>
    have hstep : step r .manage = some (r.goTo (.closing outcome), []) := by
      simp [step, manage, here, disarm, halarm]
    exact hl.goesOn hstep rfl fun hu => hu.closes rfl
  | some al => exact hl.disarms_alarm here halarm

/-- A run that has left its polling comes back. -/
theorem Launched.departs (hl : Launched r) (hp : r.position.isWatching = false) : Returns r := by
  cases here : r.position with
  | disarming => exact hl.disarms here
  | closing => exact hl.closes here
  | joining => exact hl.joins here
  | finalizing => exact hl.finalizes here
  | aborting x => exact absurd here (hl.past.2 x)
  | cleaning => exact hl.cleans here
  | killing => exact hl.kills here
  | draining => exact hl.drains here
  | releasing => exact hl.releases here
  | dismissing => exact hl.dismisses here
  | returned res => exact ⟨[], r, [], by simp, rfl, .inl ⟨res, here⟩⟩
  | entering | settingUp | creating | enlisting | preparing | starting | launching | arming | polling
  | checkingLimit | checkingSupervisor => simp [here, Position.isWatching, Position.phase] at hp

end Corun.Run
