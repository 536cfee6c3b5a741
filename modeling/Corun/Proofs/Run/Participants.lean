import Corun.Proofs.Child.Gating
import Corun.Proofs.Run.Cleanup
import Corun.Proofs.Run.Stopping
import Corun.Proofs.Sync.Cancellation
import Corun.Proofs.Watch.Moves

namespace Corun.Child.Gated
open Os Sync

variable {g g' : Gated} {t owner : Nat} {c : Call} {s : Stage} {a : Action} {e : List Entry}

/-- A thread does not leave a call but by coming back. -/
theorem Change.stays_or_returns (h : Change g a g' e) (hin : (g.pending? t).isSome = true) :
    (g'.pending? t).isSome = true ∨ ∃ r, returned? t e = some r := by
  have hback : ∀ {u r}, g'.pending? t = (if t = u then none else g.pending? t) →
      returned? t e = (if u = t then some r else none) →
      (g'.pending? t).isSome = true ∨ ∃ r, returned? t e = some r := by
    intro u r hg' he
    by_cases htu : t = u
    · exact .inr ⟨r, by rw [he, if_pos htu.symm]⟩
    · rw [hg', if_neg htu]
      exact .inl hin
  have hplace : ∀ {u c s}, g'.pending? t = (if t = u then some ⟨c, s⟩ else g.pending? t) →
      (g'.pending? t).isSome = true ∨ ∃ r, returned? t e = some r := by
    intro u c s hg'
    rw [hg']
    split
    · exact .inl rfl
    · exact .inl hin
  cases h with
  | stages | starts | kills => exact hplace (pending?_place ..)
  | answers | creates | endsStart => exact hback (pending?_back ..) (returned?_returned ..)
  | signals u life sent r => exact hback (pending?_back ..) (returned?_returned u t .kill r)
  | reaps u c status x => exact hback (pending?_back ..) (returned?_returned u t c (.ok (.ended x)))
  | lives | rings | seizes => exact .inl hin

theorem Later.dead (h : Later g g') (hborn : g.life ≠ .absent) (hdead : g.life.isLive = false) :
    g'.life.isLive = false := by
  cases hlife : g.life with
  | absent => exact absurd hlife hborn
  | zombie status => rcases h.zombie status hlife with hz | hz <;> simp [hz, Life.isLive]
  | reaped status => simp [h.reaped status hlife, Life.isLive]
  | forked | gated | released | running | refused => simp [hlife, Life.isLive] at hdead

/-- A child that was killed has ended, unless its owner is still about to send the signal. -/
def DeadOnceKilled (owner : Nat) (g : Gated) : Prop :=
  g.phase = .killed → (∃ s, g.pending? owner = some ⟨.kill, s⟩) ∨ g.life.isLive = false

theorem DeadOnceKilled.stays (hs : g.DeadOnceKilled owner) (hphase : g'.phase = g.phase)
    (hlife : g'.life = g.life)
    (hin : ∀ s, g.pending? owner = some ⟨.kill, s⟩ → ∃ s', g'.pending? owner = some ⟨.kill, s'⟩) :
    g'.DeadOnceKilled owner := by
  intro hkilled
  rw [hlife]
  rcases hs (hphase ▸ hkilled) with ⟨s, hs⟩ | hdead
  · exact .inl (hin s hs)
  · exact .inr hdead

theorem OwnerStep.deadOnceKilled (h : OwnerStep owner g c g' e) (hs : g.DeadOnceKilled owner) :
    g'.DeadOnceKilled owner := by
  cases h with
  | starts => exact fun hp => nomatch hp
  | kills => exact fun _ => .inl ⟨.notifying, by simp⟩
  | refuses _ _ _ idle | spares idle | waits idle =>
    exact hs.stays rfl rfl fun s hs => absurd (idle.symm.trans hs) (by simp)
  | notifies c next l inside =>
    refine hs.stays rfl rfl fun s hs => ⟨next, ?_⟩
    cases inside.symm.trans hs
    simp
  | releases _ inside | breaks _ inside | closes inside | reads _ _ _ inside | learns _ _ _ inside
  | observes _ _ inside | cannotTell _ _ inside =>
    exact hs.stays rfl rfl fun s hs => absurd (inside.symm.trans hs) (by simp)
  | signals life inside hit =>
    refine fun _ => .inr ?_
    rcases hit with ⟨-, status, rfl⟩ | ⟨-, rfl⟩ <;> rfl
  | isLate r inside reaped => exact fun hp => absurd (reaped.symm.trans hp) (by simp)
  | reaps => exact fun hp => nomatch hp

theorem BackgroundStep.deadOnceKilled (ht : Tended owner g) (h : BackgroundStep owner g g' e)
    (hs : g.DeadOnceKilled owner) :
    g'.DeadOnceKilled owner := by
  intro hkilled
  rcases h.phase with hphase | ⟨-, -, hphase⟩
  · rcases hs (hphase ▸ hkilled) with ⟨s, hs⟩ | hdead
    · exact .inl ⟨s, h.owned.trans hs⟩
    · exact .inr (h.later.dead ht.alive hdead)
  · cases hphase.symm.trans hkilled

/-- A kill that has come back has ended the child, or has found it ended. -/
theorem OwnerStep.kill_dead (ht : Tended owner g) (h : OwnerStep owner g .kill g' e)
    (hs : g.DeadOnceKilled owner)
    (hr : (returned? owner e).isSome = true) : g'.life.isLive = false := by
  cases h with
  | spares idle ended =>
    rcases ended with hp | hp
    · rcases hs hp with ⟨s, hs⟩ | hdead
      · exact absurd (idle.symm.trans hs) (by simp)
      · exact hdead
    · obtain ⟨status, hlife⟩ := ht.reaped.mp hp
      change g.life.isLive = false
      rw [hlife]
      rfl
  | signals life inside hit => rcases hit with ⟨-, status, rfl⟩ | ⟨-, rfl⟩ <;> rfl
  | kills | notifies => cases hr

/-- Only its owner has the lock, and only while it starts or kills the child. -/
theorem Tended.free (ht : Tended owner g) (hs : Shared g)
    (h : ∀ p, g.pending? owner = some p → p.call.holds = false) : g.holder = none := by
  cases hheld : g.holder with
  | none => rfl
  | some t =>
    obtain ⟨p, hp, hholds⟩ := hs.holder t hheld
    have hopen : p.call.holds = false := by
      by_cases hto : t = owner
      · exact h p (hto ▸ hp)
      · rw [(ht.awaiting t p hto hp).call_eq]
        rfl
    cases hholds.symm.trans hopen

end Corun.Child.Gated

namespace Corun.Run
open Os Child

variable {σ : Type} [Strategy σ] {r r' : Run σ} {a : Action} {e lines : List Entry} {k i : Nat}
  {c : Call} {g g' : Gated} {p : Position} {acts : List Action} {v : Supervisor σ}
  {ve : List Supervisor.Entry} {ge : List Gated.Entry}

theorem ChildStep.soleWaiter (h : ChildStep g g' ge) (hl : g.SoleWaiter watcher) :
    g'.SoleWaiter watcher := by
  cases h with
  | rests => exact hl
  | ownerStep _ _ _ _ ga spares took | backgroundStep _ _ _ ga spares took =>
    exact hl.step took spares

theorem born_soleWaiter (b : Benchmark) (mode : KillMode) (pid : Pid) :
    (born b mode pid).SoleWaiter watcher := by
  have hborn : (Gated.ofCommand b.path b.operands mode).step (.call manager (.create (.ok pid))) =
      some (born b mode pid, [.returned manager (.create (.ok pid)) (.ok (.pid pid))]) := rfl
  refine (Gated.ofCommand_soleWaiter b.path b.operands mode watcher).step hborn ⟨nofun, ?_⟩
  intro u hu
  cases hu

theorem run_soleWaiter (hf : Fresh r) (h : run r acts = some (r', e))
    (hk : r'.children[k]? = some g) :
    g.SoleWaiter watcher :=
  children_run (P := fun g _ => g.SoleWaiter watcher) hf
    (fun b pid => born_soleWaiter b r.killMode pid)
    (fun _ _ _ _ _ hl hchild => hchild.soleWaiter hl) h k g hk

/-- Each task that still awaits its child has a thread inside of that call. -/
def Attended (r : Run σ) : Prop :=
  ∀ pid, PidMap.find? pid r.watch.tasks = some .awaiting → ∃ (k : Nat) (g : Gated),
    r.children[k]? = some g ∧ g.pid? = some pid ∧ (g.pending? watcher).isSome = true

theorem Move.sound (h : Move r a r' e) (hs : r.watch.Sound) : r'.watch.Sound := by
  cases h with
  | enlists _ _ _ _ _ _ _ _ _ _ took | polls _ _ _ _ _ took | publishes _ _ _ took => exact hs.step took
  | childMoves _ _ _ _ _ _ _ _ _ hears =>
    cases hears with
    | nothing => exact hs
    | settles _ _ _ _ _ _ took => exact hs.step took
  | drains => exact Watch.empty_sound
  | jumps | supervises | supervised | creates | createFails | enlistFails | drives | arms | disarms
  | disarmed | ends | works | alarmMoves => exact hs

theorem run_sound (hf : Fresh r) (h : run r acts = some (r', e)) : r'.watch.Sound :=
  run_moves (P := fun u _ _ => u.watch.Sound) hf.manned (hf.watch ▸ Watch.empty_sound)
    (fun _ _ _ _ _ _ _ _ hs hmoved => hmoved.sound hs) h

omit [Strategy σ] in
/-- The children are as before, and no task has begun to await one. -/
theorem Attended.keeps {u : Run σ} (ha : Attended r) (hchildren : u.children = r.children)
    (htasks : ∀ pid, PidMap.find? pid u.watch.tasks = some .awaiting →
      PidMap.find? pid r.watch.tasks = some .awaiting) : Attended u := by
  intro pid hpid
  rw [hchildren]
  exact ha pid (htasks pid hpid)

omit [Strategy σ] in
/-- One child has changed, and so has perhaps whom its task awaits. -/
theorem Attended.sets {u : Run σ} (ha : Attended r) (hk : r.children[k]? = some g)
    (hchildren : u.children = r.children.set k g') (hpid : g'.pid? = g.pid?)
    (htasks : ∀ pid, PidMap.find? pid u.watch.tasks = some .awaiting →
      PidMap.find? pid r.watch.tasks = some .awaiting ∨
        g'.pid? = some pid ∧ (g'.pending? watcher).isSome = true)
    (hstays : ∀ pid, PidMap.find? pid u.watch.tasks = some .awaiting → g'.pid? = some pid →
      (g.pending? watcher).isSome = true → (g'.pending? watcher).isSome = true) : Attended u := by
  have hself : u.children[k]? = some g' := by
    rw [hchildren]
    exact List.getElem?_set_self (List.getElem?_eq_some_iff.mp hk).1
  intro pid hawaits
  rcases htasks pid hawaits with hbefore | ⟨hnamed, hin⟩
  · obtain ⟨j, x, hj, hx, hin⟩ := ha pid hbefore
    by_cases hjk : k = j
    · subst hjk
      cases hk.symm.trans hj
      have hnamed : g'.pid? = some pid := hpid.trans hx
      exact ⟨k, g', hself, hnamed, hstays pid hawaits hnamed hin⟩
    · refine ⟨j, x, ?_, hx, hin⟩
      rw [hchildren]
      exact (List.getElem?_set_ne hjk).trans hj
  · exact ⟨k, g', hself, hnamed, hin⟩

theorem settled_ne_awaiting (res : Result Termination) : Watch.Task.settled res ≠ .awaiting := by
  rcases res with (f | q) | t <;> simp [Watch.Task.settled]

omit [Strategy σ] in
theorem Attended.hears {w : Watch} (ha : Attended r) (hw : r.watch.Sound) (hk : r.children[k]? = some g)
    (hpid : g'.pid? = g.pid?)
    (hstays : (g.pending? watcher).isSome = true →
      (g'.pending? watcher).isSome = true ∨ ∃ res, Gated.returned? watcher ge = some res)
    (hears : Hears r.watch g' ge w) :
    Attended { r with children := r.children.set k g', watch := w } := by
  have hbefore : ∀ pid, PidMap.find? pid w.tasks = some .awaiting →
      PidMap.find? pid r.watch.tasks = some .awaiting := by
    intro pid hawaits
    cases hears with
    | nothing => exact hawaits
    | settles res q _ we back named took =>
      cases Watch.step_move hw took with
      | settles =>
        rw [PidMap.find?_insert] at hawaits
        split at hawaits
        · exact absurd (Option.some.inj hawaits) (settled_ne_awaiting _)
        · exact hawaits
      | findsNobody _ waits | takes _ _ _ _ waits => cases waits
  refine ha.sets hk rfl hpid (fun pid hawaits => .inl (hbefore pid hawaits)) ?_
  intro pid hawaits hnamed hin
  rcases hstays hin with hsame | ⟨res, hback⟩
  · exact hsame
  · -- What came back was heard of, so the task would not await the child any more.
    cases hears with
    | nothing deaf =>
      have hdeaf := deaf res pid hback hnamed
      simp [Watch.step, hbefore pid hawaits] at hdeaf
    | settles res' q _ we back named took =>
      cases hnamed.symm.trans named
      cases Watch.step_move hw took with
      | settles =>
        rw [PidMap.find?_insert, if_pos rfl] at hawaits
        exact absurd (Option.some.inj hawaits) (settled_ne_awaiting _)
      | findsNobody _ waits | takes _ _ _ _ waits => cases waits

theorem Move.attended (hm : Manned r) (hw : r.watch.Sound)
    (hlone : ∀ (k : Nat) (g : Gated), r.children[k]? = some g → g.SoleWaiter watcher)
    (ha : Attended r) (h : Move r a r' e) : Attended r' := by
  cases h with
  | creates k b pid =>
    intro pid hpid
    obtain ⟨j, x, hj, hx, hin⟩ := ha pid hpid
    have hlt := (List.getElem?_eq_some_iff.mp hj).1
    exact ⟨j, x, by simp [List.getElem?_append_left hlt, hj], hx, hin⟩
  | enlists k g g' pid w we ge here there named took accepted awaits =>
    have hpid := (Gated.await_backgroundStep (hm.tended k g there) (by decide) awaits).later.pid
    have hinside := Gated.await_inside awaits
    generalize r.watchers k = thread at took
    refine ha.sets there rfl hpid ?_ fun _ _ _ _ => hinside
    intro q hq
    cases Watch.step_move hw took with
    | refuses | lacksThread => cases accepted
    | findsNobody _ waits | takes _ _ _ _ waits => cases waits
    | adds =>
      rw [goTo_watch, PidMap.find?_insert] at hq
      split at hq
      · rename_i hqp
        exact .inr ⟨hqp ▸ hpid.trans named, hinside⟩
      · exact .inl hq
  | drives k c g g' ge p lines there took leads =>
    have howner := hm.ownerStep there leads took
    refine ha.sets there rfl howner.later.pid (fun _ hq => .inl hq) fun _ _ _ hin => ?_
    rw [(howner.callProgress.others watcher (by decide)).1]
    exact hin
  | polls w we p lines here took leads =>
    refine ha.keeps rfl fun q hq => ?_
    cases Watch.step_move hw took with
    | findsNobody | givesUp => exact hq
    | takes _ pid =>
      rw [goTo_watch, PidMap.find?_erase] at hq
      split at hq
      · cases hq
      · exact hq
  | drains => exact fun q hq => nomatch hq
  | childMoves k ga g g' ge w background there took hears =>
    have hpid := (background_backgroundStep (hm.tended k g there) background took).later.pid
    have hchange := Gated.step_change (hlone k g there).shared took
    exact ha.hears hw there hpid hchange.stays_or_returns hears
  | publishes pid w we took =>
    refine ha.keeps rfl fun q hq => ?_
    cases Watch.step_move hw took with
    | findsNobody _ waits | takes _ _ _ _ waits => cases waits
    | publishes =>
      rw [PidMap.find?_insert] at hq
      split at hq
      · cases hq
      · exact hq
  | jumps | supervises | supervised | createFails | enlistFails | arms | disarms | disarmed | ends
  | works | alarmMoves => exact ha.keeps rfl fun _ hq => hq

theorem run_attended (hf : Fresh r) (h : run r acts = some (r', e)) : Attended r' := by
  refine run_moves (P := fun u _ _ => Attended u) hf.manned ?_ ?_ h
  · intro pid hpid
    rw [hf.watch] at hpid
    cases hpid
  · intro acts u e a w e' hrun hm ha hmoved
    exact hmoved.attended hm (run_sound hf hrun) (fun _ _ hk => run_soleWaiter hf hrun hk) ha

theorem run_deadOnceKilled (hf : Fresh r) (h : run r acts = some (r', e))
    (hk : r'.children[k]? = some g) :
    g.DeadOnceKilled manager := by
  refine children_run (P := fun g _ => g.DeadOnceKilled manager) hf ?_ ?_ h k g hk
  · intro b pid hkilled
    cases hkilled
  · intro g g' seen ge ht hs hchild
    cases hchild with
    | rests => exact hs
    | ownerStep _ _ _ step => exact step.deadOnceKilled hs
    | backgroundStep _ _ step => exact step.deadOnceKilled ht hs

theorem ChildStep.dead (h : ChildStep g g' ge) (ht : g.Tended manager)
    (hdead : g.life.isLive = false) :
    g'.life.isLive = false := h.later.dead ht.alive hdead

/-- Whether the manager has killed a child. If it is unwound it kills nobody. -/
def Position.HasKilled (i : Nat) : Position → Prop
  | killing k _ => i < k
  | draining f | releasing _ f => ∀ q, f ≠ .unwound q
  | _ => False

theorem afterStop_not_hasKilled (stop : Stop) : ¬ (Position.afterStop stop).HasKilled i := by
  cases stop with
  | failed f => exact id
  | panicked q => exact fun h => h q rfl

theorem Jump.hasKilled (h : Jump r p lines) (hi : i < r.children.length) (hs : p.HasKilled i) :
    r.position.HasKilled i := by
  cases h with
  | cleans => exact absurd hs (Nat.not_lt_zero i)
  | allKilled k f here past =>
    have hle := List.getElem?_eq_none_iff.mp past
    rw [here]
    change i < k
    omega
  | keeps k f g here =>
    rw [here]
    exact hs
  | lacksBenchmarks | enters | allCreated | allStarted | limitReached | limitAhead | supervisorGone
  | supervisorThere | unarmed | unlimited | unarmable | allReleased | concludes => exact hs.elim

omit [Strategy σ] in
theorem Drive.hasKilled {res : Option (Result Answer)} (hm : Manned r)
    (hk : r.children[k]? = some g)
    (h : Drive r g k c res p lines) (ht : Gated.OwnerStep manager g c g' ge)
    (hres : res = Gated.returned? manager ge) (hdeadOnce : g.DeadOnceKilled manager)
    (hs : p.HasKilled i) :
    r.position.HasKilled i ∨ i = k ∧ g'.life.isLive = false := by
  cases h with
  | startStops stop stop' => exact absurd hs (afterStop_not_hasKilled stop')
  | startGoesOn | started => exact hs.elim
  | killGoesOn f here =>
    rw [here]
    exact .inl hs
  | killed f res lines here =>
    change i < k + 1 at hs
    by_cases hik : i = k
    · exact .inr ⟨hik, ht.kill_dead (hm.tended k g hk) hdeadOnce (by simp [← hres])⟩
    · rw [here]
      exact .inl (by change i < k; omega)
  | releaseGoesOn f _ _ here | released f _ here =>
    rw [here]
    exact .inl hs

omit [Strategy σ] in
theorem after_not_hasKilled {va : Supervisor.Action} (hdue : r.dueCall? = some va)
    (res : Result Unit) :
    ¬ (r.position.after res).HasKilled i := by
  rcases dueCall?_cases hdue with here | here | here | ⟨outcome, here⟩ | ⟨outcome, joined, here⟩ <;>
  · rw [here]
    rcases res with (f | q) | _
    · exact id
    · first
      | exact id
      | exact fun h => h q rfl
    · exact id

theorem Manned.hasKilled (hm : Manned r)
    (hdeadOnce : ∀ (k : Nat) (g : Gated), r.children[k]? = some g → g.DeadOnceKilled manager)
    (h : Move r a r' e) (hi : r'.children[i]? = some g') (hs : r'.position.HasKilled i) :
    r.position.HasKilled i ∨ g'.life.isLive = false := by
  have hlt := (List.getElem?_eq_some_iff.mp hi).1
  cases h with
  | jumps p lines leads => exact .inl (leads.hasKilled hlt hs)
  | supervised v w ve res due => exact absurd hs (after_not_hasKilled due res)
  | drives k c h h' ge p lines there took leads =>
    have howner := hm.ownerStep there leads took
    refine (leads.hasKilled hm there howner rfl (hdeadOnce k h there) hs).imp_right ?_
    rintro ⟨rfl, hdead⟩
    have hlt := (List.getElem?_eq_some_iff.mp there).1
    rw [goTo_children, List.getElem?_set_self hlt] at hi
    cases hi
    exact hdead
  | ends p lines leads =>
    cases leads with
    | closes | aborts | dismisses => exact hs.elim
  | drains f lines here =>
    rw [here]
    exact .inl hs
  | polls w we p lines here took leads => cases leads <;> exact hs.elim
  | creates | createFails | enlists | enlistFails | arms | disarmed => exact hs.elim
  | supervises | disarms | childMoves | publishes | works | alarmMoves => exact .inl hs

theorem run_hasKilled (hf : Fresh r) (h : run r acts = some (r', e)) (hi : r'.children[i]? = some g)
    (hs : r'.position.HasKilled i) : g.life.isLive = false :=
  run_marks (D := fun i p => p.HasKilled i) hf (fun _ _ => id)
    (fun _ _ _ ht hdead hchild => hchild.dead ht hdead)
    (fun _ _ _ _ _ _ _ _ hrun hu hm hi hs =>
      hu.hasKilled (fun _ _ hk => run_deadOnceKilled hf hrun hk) hm hi hs) h hi hs

theorem Consult.finished (h : Consult r v ve p) : v.finished = r.supervisor.finished := by
  cases h <;> rfl

theorem work_finished {w : Supervisor σ} (h : Supervisor.Move v .work w ve) :
    w.finished = v.finished := by
  cases h <;> rfl

theorem run_flagged {outcome : Except Failure Outcome} (hf : Fresh r) (h : run r acts = some (r', e))
    (here : r'.position = .joining outcome) : r'.supervisor.finished = true := by
  refine hf.run_moves (P := fun u _ _ => ∀ outcome, u.position = .joining outcome →
    u.supervisor.finished = true) ?_ ?_ h outcome here
  · simp [hf.position]
  · intro acts u e a w e' _ _ hs hsofar hmoved outcome hp
    cases hmoved with
    | supervises va v ve due took open_ =>
      exact (hs.consult due took).finished.trans (hsofar outcome hp)
    | supervised va v ve res due took back =>
      rcases dueCall?_cases due with here | here | here | ⟨_, here⟩ | ⟨_, _, here⟩ <;>
      · rw [goTo_position, here] at hp
        rcases res with (f | q) | _ <;> cases hp
    | works v ve took => exact (work_finished (Supervisor.step_move hs.placed took)).trans (hsofar outcome hp)
    | ends p lines leads => rfl
    | jumps p lines leads => cases leads <;> cases hp
    | drives k c g g' ge p lines there took leads =>
      rw [goTo_position] at hp
      generalize Gated.returned? manager ge = res at leads
      cases leads with
      | startStops stop stop' => cases stop' <;> cases hp
      | startGoesOn | started | killGoesOn | killed | releaseGoesOn | released => cases hp
    | polls w we p lines here took leads => cases leads <;> cases hp
    | creates | createFails | enlists | enlistFails | arms | disarmed | drains => cases hp
    | disarms | childMoves | publishes | alarmMoves => exact hsofar outcome hp

/-- The alarm has come where it is by itself and by what the manager did to it, which is nothing before
it is given up. -/
def AlarmReached (r : Run σ) : Prop :=
  ∀ al, r.alarm = some al → ∃ acts e, Sync.Alarm.run .armed acts = some (al, e) ∧
    (.called ∈ e → r.expired = true) ∧ (r.position.isWatching = true → al.owner = .keeping)

theorem AlarmReached.keeps (hw : AlarmReached r) (h : Move r a r' e) (halarm : r'.alarm = r.alarm)
    (hexpired : r'.expired = r.expired) : AlarmReached r' := by
  intro al hal
  obtain ⟨acts, ae, hrun, hcalled, hkept⟩ := hw al (halarm ▸ hal)
  exact ⟨acts, ae, hrun, by rw [hexpired]; exact hcalled, fun hl => hkept (h.watching hl)⟩

theorem AlarmReached.move (hw : AlarmReached r) (h : Move r a r' e) : AlarmReached r' := by
  have hmove := h
  have hextend : ∀ {acts ae al aa al' ae'}, Sync.Alarm.run .armed acts = some (al, ae) →
      al.step aa = some (al', ae') → Sync.Alarm.run .armed (acts ++ [aa]) = some (al', ae ++ ae') := by
    intro acts ae al aa al' ae' hrun hstep
    exact Machine.run_append.mpr ⟨al, ae, ae', hrun,
      Machine.run_cons.mpr ⟨al', ae', [], hstep, rfl, (List.append_nil ae').symm⟩, rfl⟩
  cases h with
  | arms =>
    intro al hal
    cases hal
    exact ⟨[], [], rfl, by simp, fun _ => rfl⟩
  | disarms outcome al al' ae here armed took =>
    intro x hx
    cases hx
    obtain ⟨acts, ae₀, hrun, hcalled, -⟩ := hw al armed
    refine ⟨_, _, hextend hrun took, ?_, by simp [here, Position.isWatching, Position.phase]⟩
    intro hmem
    rcases List.mem_append.mp hmem with hmem | hmem
    · exact hcalled hmem
    · have hmove := Sync.Alarm.step_move took
      cases ho : al.owner <;> rw [ho, disarmAction] at hmove <;> cases hmove <;> simp at hmem
  | disarmed =>
    intro al hal
    cases hal
  | alarmMoves aa al al' ae background armed took =>
    intro x hx
    cases hx
    obtain ⟨acts, ae₀, hrun, hcalled, hkept⟩ := hw al armed
    refine ⟨_, _, hextend hrun took, ?_, ?_⟩
    · intro hmem
      rcases List.mem_append.mp hmem with hmem | hmem
      · simp [hcalled hmem]
      · simp [hmem]
    · intro hl
      have howner : al'.owner = al.owner := by
        cases Sync.Alarm.step_move took with
        | cancels | wakes | rings | joins => cases background
        | sleeps | observes | desists | calls | finishes | passes | expires | stirs => rfl
      exact howner.trans (hkept hl)
  | jumps | supervises | supervised | creates | createFails | enlists | enlistFails | drives | polls
  | ends | drains | childMoves | publishes | works => exact hw.keeps hmove rfl rfl

theorem run_alarmReached (hf : Fresh r) (h : run r acts = some (r', e)) : AlarmReached r' := by
  refine run_moves (P := fun u _ _ => AlarmReached u) hf.manned ?_ ?_ h
  · intro al hal
    cases hf.alarm.symm.trans hal
  · intro acts u e a w e' _ _ hw hmoved
    exact hw.move hmoved

end Corun.Run
