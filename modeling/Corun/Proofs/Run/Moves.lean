import Corun.Proofs.Machine
import Corun.Run.State

namespace Corun.Run
open Os Child

variable {σ : Type} {r r' : Run σ} {a : Action} {e : List Entry} {k : Nat} {c : Call}

@[simp] theorem goTo_position (p : Position) (r : Run σ) : (r.goTo p).position = p := rfl

@[simp] theorem goTo_children (p : Position) (r : Run σ) : (r.goTo p).children = r.children := rfl

@[simp] theorem goTo_supervisor (p : Position) (r : Run σ) :
    (r.goTo p).supervisor = r.supervisor := rfl

@[simp] theorem goTo_watch (p : Position) (r : Run σ) : (r.goTo p).watch = r.watch := rfl

/-- Going nowhere. -/
theorem goTo_self {p : Position} (h : r.position = p) : r.goTo p = r := by
  subst h
  rfl

/-- The child of a benchmark that was just created. -/
def born (b : Benchmark) (mode : KillMode) (pid : Pid) : Gated :=
  ((Gated.ofCommand b.path b.operands mode).create manager (.ok pid)).1

/-- What the supervisor is asked to do next. -/
def dueCall? (r : Run σ) : Option Supervisor.Action :=
  match r.position with
  | .settingUp => some (.call .setUp)
  | .preparing => some (if r.supervisor.preparing then .deliver else .call .prepare)
  | .launching => some (.call .start)
  | .joining _ => some (.call .join)
  | .finalizing .. => some (.call .finalize)
  | _ => none

/-- Where the manager waits for the supervisor. -/
theorem dueCall?_cases {va : Supervisor.Action} (h : r.dueCall? = some va) :
    r.position = .settingUp ∨ r.position = .preparing ∨ r.position = .launching ∨
      (∃ outcome, r.position = .joining outcome) ∨
        ∃ outcome joined, r.position = .finalizing outcome joined := by
  cases hp : r.position with
  | settingUp | preparing | launching | joining | finalizing => simp
  | _ => simp [dueCall?, hp] at h

/-- How far the manager has come: to creating the children, to letting the supervisor prepare, to
starting, to watching, to ending the supervision, and to winding the run up. -/
def Position.phase : Position → Nat
  | entering | settingUp | creating _ | enlisting _ => 0
  | preparing => 1
  | starting _ | launching => 2
  | arming | polling | checkingLimit | checkingSupervisor => 3
  | disarming _ | closing _ | joining _ | finalizing .. => 4
  | aborting _ | cleaning _ | killing .. | draining _ | releasing .. | dismissing _ | returned _ => 5

/-- More children may come. -/
def Position.isEarly (p : Position) : Bool := p.phase = 0

/-- No child was started. -/
def Position.isShut (p : Position) : Bool := p.phase ≤ 1

/-- The supervisor was not started yet. -/
def Position.isLaunch (p : Position) : Bool := p.phase ≤ 2

/-- Nothing was taken from the watch, and something still may be. -/
def Position.isWatching (p : Position) : Bool := p.phase ≤ 3

/-- The run is being wound up. -/
def Position.isOver (p : Position) : Bool := p.phase = 5

/-- Where a failure or a panic leads while the children are being launched. -/
def Position.afterStop : Stop → Position
  | .failed f => aborting f
  | .panicked p => draining (.unwound p)

theorem giveUp_eq (stop : Stop) (r : Run σ) : r.giveUp stop = r.goTo (.afterStop stop) := by
  cases stop <;> rfl

/-- Where the manager goes when the supervisor has come back to it. -/
def Position.after : Position → Result Unit → Position
  | settingUp, .ok () => creating 0
  | settingUp, .error (.failed f) => dismissing (.aborted f)
  | settingUp, .error (.panicked p) => dismissing (.unwound p)
  | preparing, .ok () => starting 0
  | launching, .ok () => arming
  | joining outcome, joined => finalizing outcome joined
  | finalizing _ _, .error (.panicked p) => draining (.unwound p)
  | finalizing outcome joined, finalized => cleaning (.judged outcome joined finalized)
  | _, .error stop => afterStop stop
  | p, .ok () => p

variable [Strategy σ]

/-- What giving the strategy up comes to. -/
def surrender (r : Run σ) : Result Unit × List Note :=
  (r.supervisor.heldStrategy?.map Strategy.discard).getD (.ok (), [])

/-- Steps of the manager that touch nothing but its position. -/
inductive Jump (r : Run σ) : Position → List Entry → Prop where
  | lacksBenchmarks (here : r.position = .entering) (nobody : r.benchmarks = []) :
    Jump r (.dismissing (.aborted (.ofCause .noBenchmarks))) []
  | enters (line : LogLine) (here : r.position = .entering) (somebody : r.benchmarks ≠ []) :
    Jump r .settingUp [.log line]
  | allCreated (k : Nat) (here : r.position = .creating k) (past : r.benchmarks[k]? = none) :
    Jump r .preparing []
  | allStarted (k : Nat) (here : r.position = .starting k)
      (past : r.children[k]? = none ∨ r.benchmarks[k]? = none) : Jump r .launching []
  | unlimited (here : r.position = .arming) (endless : r.hasLimit = false) : Jump r .polling []
  | unarmable (f : Failure) (here : r.position = .arming) (limited : r.hasLimit = true)
      (failed : r.timer = .error f) : Jump r (.closing (.error (f.within .spawningTimer))) []
  | limitReached (line : LogLine) (here : r.position = .checkingLimit) (expired : r.expired = true) :
    Jump r (.disarming (.ok .timedOut)) [.log line]
  | limitAhead (here : r.position = .checkingLimit) : Jump r .checkingSupervisor []
  | supervisorGone (here : r.position = .checkingSupervisor)
      (stopped : r.supervisor.hasStopped = true) :
    Jump r (.disarming (.error (.ofCause (.stoppedEarly r.supervisor.name)))) []
  | supervisorThere (here : r.position = .checkingSupervisor) : Jump r .polling []
  | unarmed (outcome : Except Failure Outcome) (here : r.position = .disarming outcome)
      (none_ : r.alarm = none) : Jump r (.closing outcome) []
  | cleans (f : Ending) (line : LogLine) (here : r.position = .cleaning f) :
    Jump r (.killing 0 f) [.log line]
  | allKilled (k : Nat) (f : Ending) (here : r.position = .killing k f)
      (past : r.children[k]? = none) : Jump r (.draining f) []
  | keeps (k : Nat) (f : Ending) (g : Gated) (here : r.position = .releasing k f)
      (there : r.children[k]? = some g) (done : releaseCall? g = none) :
    Jump r (.releasing (k + 1) f) []
  | allReleased (k : Nat) (f : Ending) (here : r.position = .releasing k f)
      (past : r.children[k]? = none) : Jump r (.dismissing f) []
  | concludes (f : Ending) (here : r.position = .dismissing f)
      (ended : r.supervisor.step .work = none) :
    Jump r (.returned (r.surrender.1.bind fun _ => f.result))
      (ofSupervisor (r.surrender.2.map Supervisor.Entry.note) ++
        [.returned (r.surrender.1.bind fun _ => f.result)])

/-- Where the manager goes when it has made a step of a call of a child, by what came back. -/
inductive Drive (r : Run σ) (g : Gated) :
    Nat → Call → Option (Result Answer) → Position → List Entry → Prop where
  | startGoesOn (k : Nat) (here : r.position = .starting k) :
    Drive r g k .start none (.starting k) []
  | started (k : Nat) (answer : Answer) (here : r.position = .starting k) :
    Drive r g k .start (some (.ok answer)) (.starting (k + 1)) [startedLine g]
  | startStops (k : Nat) (stop stop' : Stop) (here : r.position = .starting k) :
    Drive r g k .start (some (.error stop)) (.afterStop stop') []
  | killGoesOn (k : Nat) (f : Ending) (here : r.position = .killing k f) :
    Drive r g k .kill none (.killing k f) []
  | killed (k : Nat) (f : Ending) (result : Result Answer) (lines : List LogLine)
      (here : r.position = .killing k f) :
    Drive r g k .kill (some result) (.killing (k + 1) f) (lines.map Entry.log)
  | releaseGoesOn (k : Nat) (f : Ending) (c : Call) (result : Option (Result Answer))
      (here : r.position = .releasing k f) (due : releaseCall? g = some c)
      (open_ : isWait c = true → result = none) : Drive r g k c result (.releasing k f) []
  | released (k : Nat) (f : Ending) (result : Result Answer) (here : r.position = .releasing k f)
      (due : releaseCall? g = some .wait) :
    Drive r g k .wait (some result) (.releasing (k + 1) f) []

/-- Where the manager goes by what a poll came to. -/
inductive Poll (r : Run σ) (we : List Watch.Entry) : Position → List Entry → Prop where
  | fails (f : Failure) (got : Watch.returned? we = some (.error f)) :
    Poll r we (.disarming (.error f)) []
  | takes (pid : Pid) (t : Termination) (b : Benchmark) (line : LogLine)
      (got : Watch.returned? we = some (.ok (some (pid, t)))) (known : r.benchmarkOf? pid = some b) :
    Poll r we (.disarming (.ok (.completed b pid t))) [.log line]
  | unknown (pid : Pid) (t : Termination) (got : Watch.returned? we = some (.ok (some (pid, t))))
      (stranger : r.benchmarkOf? pid = none) :
    Poll r we (.disarming (.error (.ofCause (.unknownEnded pid)))) []
  | nothing (got : Watch.returned? we = some (.ok none) ∨ Watch.returned? we = none) :
    Poll r we .checkingLimit []

/-- Where the manager goes when it has raised the flag. -/
inductive Ends (r : Run σ) : Position → List Entry → Prop where
  | closes (outcome : Except Failure Outcome) (here : r.position = .closing outcome) :
    Ends r (.joining outcome) []
  | aborts (f : Failure) (line : LogLine) (here : r.position = .aborting f) :
    Ends r (.cleaning (.aborted f)) [.log line]
  | dismisses (f : Ending) (here : r.position = .dismissing f) : Ends r (.dismissing f) []

/-- The watch after the task of a child may have come back, which it hears of if it still awaits it. -/
inductive Hears (w : Watch) (g : Gated) (ge : List Gated.Entry) : Watch → Prop where
  | nothing (deaf : ∀ res pid, Gated.returned? watcher ge = some res → g.pid? = some pid →
      w.step (.settle pid (awaited res)) = none) : Hears w g ge w
  | settles (res : Result Answer) (pid : Pid) (w' : Watch) (we : List Watch.Entry)
      (back : Gated.returned? watcher ge = some res) (named : g.pid? = some pid)
      (took : w.step (.settle pid (awaited res)) = some (w', we)) : Hears w g ge w'

inductive Move (r : Run σ) : Action → Run σ → List Entry → Prop where
  | jumps (p : Position) (lines : List Entry) (leads : Jump r p lines) :
    Move r .manage (r.goTo p) lines
  | supervises (a : Supervisor.Action) (v : Supervisor σ) (ve : List Supervisor.Entry)
      (due : r.dueCall? = some a) (took : r.supervisor.step a = some (v, ve))
      (open_ : supervised? ve = none) : Move r .manage { r with supervisor := v } (ofSupervisor ve)
  | supervised (a : Supervisor.Action) (v : Supervisor σ) (ve : List Supervisor.Entry)
      (res : Result Unit) (due : r.dueCall? = some a) (took : r.supervisor.step a = some (v, ve))
      (back : supervised? ve = some res) :
    Move r .manage ({ r with supervisor := v }.goTo (r.position.after res)) (ofSupervisor ve)
  | creates (k : Nat) (b : Benchmark) (pid : Pid) (here : r.position = .creating k)
      (next : r.benchmarks[k]? = some b) (forked : r.forks k = .ok pid) :
    Move r .manage ({ r with children := r.children ++ [born b r.killMode pid] }.goTo (.enlisting k))
      [.child k (.returned manager (.create (.ok pid)) (.ok (.pid pid)))]
  | createFails (k : Nat) (b : Benchmark) (f : Failure) (here : r.position = .creating k)
      (next : r.benchmarks[k]? = some b) (forked : r.forks k = .error f) :
    Move r .manage (r.goTo (.aborting (f.within (.creating b.label))))
      [.child k (.returned manager (.create (.error f)) (.error (.failed f)))]
  | enlists (k : Nat) (g g' : Gated) (pid : Pid) (w : Watch) (we : List Watch.Entry)
      (ge : List Gated.Entry) (here : r.position = .enlisting k) (there : r.children[k]? = some g)
      (named : g.pid? = some pid) (took : r.watch.step (.add pid (r.watchers k)) = some (w, we))
      (accepted : refusal? we = none) (awaits : g.step (.call watcher .await) = some (g', ge)) :
    Move r .manage
      ({ r with
        watch := w
        children := r.children.set k g'
        supervisor := { r.supervisor with
          inbox := r.supervisor.inbox ++ [Announcement.created pid] } }.goTo (.creating (k + 1)))
      (ofChild k ge)
  | enlistFails (k : Nat) (f : Failure) (here : r.position = .enlisting k) :
    Move r .manage (r.goTo (.aborting f)) []
  | drives (k : Nat) (c : Call) (g g' : Gated) (ge : List Gated.Entry) (p : Position)
      (lines : List Entry) (there : r.children[k]? = some g)
      (took : g.step (nextAction c g) = some (g', ge))
      (leads : Drive r g k c (Gated.returned? manager ge) p lines) :
    Move r .manage ({ r with children := r.children.set k g' }.goTo p) (ofChild k ge ++ lines)
  | arms (here : r.position = .arming) (limited : r.hasLimit = true) :
    Move r .manage ({ r with alarm := some .armed }.goTo .polling) []
  | polls (w : Watch) (we : List Watch.Entry) (p : Position) (lines : List Entry)
      (here : r.position = .polling) (took : r.watch.step .waitTimed = some (w, we))
      (leads : Poll r we p lines) : Move r .manage ({ r with watch := w }.goTo p) lines
  | disarms (outcome : Except Failure Outcome) (al al' : Sync.Alarm) (ae : List Sync.Alarm.Entry)
      (here : r.position = .disarming outcome) (armed : r.alarm = some al)
      (took : al.step (disarmAction al.owner) = some (al', ae)) :
    Move r .manage { r with alarm := some al' } []
  | disarmed (outcome : Except Failure Outcome) (here : r.position = .disarming outcome) :
    Move r .manage ({ r with alarm := none }.goTo (.closing outcome)) []
  | ends (p : Position) (lines : List Entry) (leads : Ends r p lines) :
    Move r .manage ({ r with supervisor := { r.supervisor with finished := true } }.goTo p) lines
  | drains (f : Ending) (lines : List LogLine) (here : r.position = .draining f)
      (ended : (r.watch.tasks.all fun t => t.2.isOver) = true) :
    Move r .manage ({ r with watch := .empty }.goTo (.releasing 0 f)) (lines.map Entry.log)
  | childMoves (k : Nat) (a : Gated.Action) (g g' : Gated) (ge : List Gated.Entry) (w : Watch)
      (background : isBackground a = true) (there : r.children[k]? = some g)
      (took : g.step a = some (g', ge)) (hears : Hears r.watch g' ge w) :
    Move r (.child k a) { r with children := r.children.set k g', watch := w } (ofChild k ge)
  | publishes (pid : Pid) (w : Watch) (we : List Watch.Entry)
      (took : r.watch.step (.publish pid) = some (w, we)) :
    Move r (.publish pid) { r with watch := w } []
  | works (v : Supervisor σ) (ve : List Supervisor.Entry)
      (took : r.supervisor.step .work = some (v, ve)) :
    Move r .work { r with supervisor := v } (ofSupervisor ve)
  | alarmMoves (a : Sync.Alarm.Action) (al al' : Sync.Alarm) (ae : List Sync.Alarm.Entry)
      (background : isAlarmThread a = true) (armed : r.alarm = some al)
      (took : al.step a = some (al', ae)) :
    Move r (.alarm a) { r with alarm := some al', expired := r.expired || ae.contains .called } []

theorem callSupervisor_move {a : Supervisor.Action} {next : Result Unit → Run σ → Run σ}
    (hdue : r.dueCall? = some a) (hnext : ∀ res u, next res u = u.goTo (r.position.after res))
    (h : r.callSupervisor a next = some (r', e)) : Move r .manage r' e := by
  obtain ⟨⟨u, ve⟩, hu, he⟩ := Option.map_eq_some_iff.mp h
  obtain ⟨⟨v, _⟩, hv, hve⟩ := Option.map_eq_some_iff.mp hu
  cases hve
  simp only at he
  split at he
  · rename_i hopen
    cases he
    exact .supervises a v ve hdue hv hopen
  · rename_i res hback
    cases he
    rw [hnext]
    exact .supervised a v ve res hdue hv hback

omit [Strategy σ] in
theorem withChild_eq {u : Run σ} {ga : Gated.Action} {ge : List Gated.Entry}
    (h : r.withChild k ga = some (u, ge)) :
    ∃ g g', r.children[k]? = some g ∧ g.step ga = some (g', ge) ∧
      u = { r with children := r.children.set k g' } := by
  simp only [withChild, Option.bind_eq_bind, Option.bind_eq_some_iff, Option.pure_def,
    Option.some.injEq, Prod.mk.injEq] at h
  obtain ⟨g, hg, ⟨g', ge'⟩, hstep, rfl, rfl⟩ := h
  exact ⟨g, g', hg, hstep, rfl⟩

omit [Strategy σ] in
theorem drive_eq {u : Run σ} {res : Option (Result Answer)} (h : r.drive k c = some (u, e, res)) :
    ∃ g g' ge, r.children[k]? = some g ∧ g.step (nextAction c g) = some (g', ge) ∧
      u = { r with children := r.children.set k g' } ∧ e = ofChild k ge ∧
      res = Gated.returned? manager ge := by
  simp only [drive, Option.bind_eq_bind, Option.bind_eq_some_iff, Option.pure_def,
    Option.some.injEq, Prod.mk.injEq] at h
  obtain ⟨g, hg, ⟨u', ge⟩, hwith, rfl, rfl, rfl⟩ := h
  obtain ⟨g₁, g', hg₁, hstep, rfl⟩ := withChild_eq hwith
  cases hg.symm.trans hg₁
  exact ⟨g, g', ge, hg, hstep, rfl, rfl, rfl⟩

theorem enter_move (hp : r.position = .entering) (h : r.enter = some (r', e)) :
    Move r .manage r' e := by
  unfold enter at h
  split at h
  · rename_i hnobody
    cases h
    exact .jumps _ _ (.lacksBenchmarks hp hnobody)
  · rename_i hsome
    cases h
    exact .jumps _ _ (.enters _ hp hsome)

theorem createChild_move (hp : r.position = .creating k) (h : r.createChild k = some (r', e)) :
    Move r .manage r' e := by
  unfold createChild at h
  split at h
  · rename_i hpast
    cases h
    exact .jumps _ _ (.allCreated k hp hpast)
  · rename_i b hb
    cases hf : r.forks k with
    | ok pid =>
      rw [hf] at h
      cases h
      exact .creates k b pid hp hb hf
    | error f =>
      rw [hf] at h
      cases h
      exact .createFails k b f hp hb hf

theorem enlist_move (hp : r.position = .enlisting k) (h : r.enlist k = some (r', e)) :
    Move r .manage r' e := by
  simp only [enlist, Option.bind_eq_bind, Option.bind_eq_some_iff] at h
  obtain ⟨g, hg, pid, hpid, ⟨w, we⟩, hw, h⟩ := h
  simp only at h
  split at h
  · cases h
    exact .enlistFails k _ hp
  · rename_i haccepted
    simp only [Option.bind_eq_some_iff] at h
    obtain ⟨⟨u, ge⟩, hwith, ⟨v, ve⟩, hpost, h⟩ := h
    obtain ⟨g₁, g', hg₁, hstep, rfl⟩ := withChild_eq hwith
    cases hg.symm.trans hg₁
    cases hpost
    cases h
    rw [ofSupervisor, List.map_nil, List.append_nil]
    exact .enlists k g g' pid w we ge hp hg hpid hw haccepted hstep

theorem startChild_move (hp : r.position = .starting k) (h : r.startChild k = some (r', e)) :
    Move r .manage r' e := by
  unfold startChild at h
  split at h
  · rename_i g b hg hb
    obtain ⟨⟨u, ue, res⟩, hdrive, he⟩ := Option.map_eq_some_iff.mp h
    obtain ⟨g₁, g', ge, hg₁, hstep, rfl, rfl, hres⟩ := drive_eq hdrive
    cases hg.symm.trans hg₁
    have hmove : ∀ p lines, Drive r g k .start res p lines →
        Move r .manage ({ r with children := r.children.set k g' }.goTo p) (ofChild k ge ++ lines) :=
      fun p lines hd => .drives k .start g g' ge p lines hg hstep (hres ▸ hd)
    rcases res with _ | (⟨f⟩ | ⟨p⟩) | answer
    · cases he
      have hm := hmove _ _ (.startGoesOn k hp)
      rwa [List.append_nil, goTo_self (r := { r with children := r.children.set k g' }) hp] at hm
    · cases he
      have hm := hmove _ _ (.startStops k (.failed f) (.failed (f.within (.starting b.label))) hp)
      rwa [List.append_nil] at hm
    · cases he
      have hm := hmove _ _ (.startStops k (.panicked p) (.panicked p) hp)
      rwa [List.append_nil] at hm
    · cases he
      exact hmove _ _ (.started k answer hp)
  · rename_i hpast
    cases h
    refine .jumps _ _ (.allStarted k hp ?_)
    cases hg : r.children[k]? with
    | none => exact .inl rfl
    | some g =>
      cases hb : r.benchmarks[k]? with
      | none => exact .inr rfl
      | some b => exact absurd hb (hpast g b hg)

theorem arm_move (hp : r.position = .arming) (h : r.arm = some (r', e)) : Move r .manage r' e := by
  unfold arm at h
  split at h
  · rename_i hlimited
    split at h
    · cases h
      exact .arms hp hlimited
    · rename_i f hfailed
      cases h
      exact .jumps _ _ (.unarmable f hp hlimited hfailed)
  · rename_i hendless
    cases h
    exact .jumps _ _ (.unlimited hp (by simpa using hendless))

theorem poll_move (hp : r.position = .polling) (h : r.poll = some (r', e)) :
    Move r .manage r' e := by
  obtain ⟨⟨w, we⟩, hw, he⟩ := Option.map_eq_some_iff.mp h
  simp only at he
  split at he
  · rename_i f hgot
    cases he
    exact .polls w we _ _ hp hw (.fails f hgot)
  · rename_i pid t hgot
    split at he
    · rename_i b hb
      cases he
      exact .polls w we _ _ hp hw (.takes pid t b _ hgot hb)
    · rename_i hb
      cases he
      exact .polls w we _ _ hp hw (.unknown pid t hgot hb)
  · rename_i hno hnone
    cases he
    refine .polls w we _ _ hp hw (.nothing ?_)
    rcases hgot : Watch.returned? we with _ | f | _ | ⟨pid, t⟩
    · exact .inr rfl
    · exact absurd hgot (hno f)
    · exact .inl rfl
    · exact absurd hgot (hnone pid t)

theorem disarm_move {outcome : Except Failure Outcome} (hp : r.position = .disarming outcome)
    (h : r.disarm outcome = some (r', e)) : Move r .manage r' e := by
  unfold disarm at h
  split at h
  · rename_i hnone
    cases h
    exact .jumps _ _ (.unarmed outcome hp hnone)
  · rename_i al hal
    split at h
    · cases h
      exact .disarmed outcome hp
    · obtain ⟨⟨al', ae⟩, hstep, he⟩ := Option.map_eq_some_iff.mp h
      cases he
      exact .disarms outcome al al' ae hp hal hstep

theorem killChild_move {f : Ending} (hp : r.position = .killing k f)
    (h : r.killChild k f = some (r', e)) : Move r .manage r' e := by
  unfold killChild at h
  split at h
  · rename_i hpast
    cases h
    exact .jumps _ _ (.allKilled k f hp hpast)
  · rename_i g hg
    obtain ⟨⟨u, ue, res⟩, hdrive, he⟩ := Option.map_eq_some_iff.mp h
    obtain ⟨g₁, g', ge, hg₁, hstep, rfl, rfl, hres⟩ := drive_eq hdrive
    cases hg.symm.trans hg₁
    have hmove : ∀ p lines, Drive r g k .kill res p lines →
        Move r .manage ({ r with children := r.children.set k g' }.goTo p) (ofChild k ge ++ lines) :=
      fun p lines hd => .drives k .kill g g' ge p lines hg hstep (hres ▸ hd)
    rcases res with _ | (⟨c⟩ | ⟨p⟩) | answer
    · cases he
      have hm := hmove _ _ (.killGoesOn k f hp)
      rwa [List.append_nil, goTo_self (r := { r with children := r.children.set k g' }) hp] at hm
    · cases he
      exact hmove _ _ (.killed k f _ [_] hp)
    · cases he
      simpa using hmove _ _ (.killed k f _ [] hp)
    · cases he
      simpa using hmove _ _ (.killed k f _ [] hp)

theorem release_move {f : Ending} (hp : r.position = .releasing k f)
    (h : r.release k f = some (r', e)) : Move r .manage r' e := by
  unfold release at h
  split at h
  · rename_i hpast
    cases h
    exact .jumps _ _ (.allReleased k f hp hpast)
  · rename_i g hg
    split at h
    · rename_i hdone
      cases h
      exact .jumps _ _ (.keeps k f g hp hg hdone)
    · rename_i c hdue
      obtain ⟨⟨u, ue, res⟩, hdrive, he⟩ := Option.map_eq_some_iff.mp h
      obtain ⟨g₁, g', ge, hg₁, hstep, rfl, rfl, hres⟩ := drive_eq hdrive
      cases hg.symm.trans hg₁
      have hmove : ∀ p lines, Drive r g k c res p lines → Move r .manage
          ({ r with children := r.children.set k g' }.goTo p) (ofChild k ge ++ lines) :=
        fun p lines hd => .drives k c g g' ge p lines hg hstep (hres ▸ hd)
      simp only at he
      split at he
      · rename_i hback
        cases he
        obtain ⟨hsome, hwait⟩ := Bool.and_eq_true_iff.mp hback
        obtain ⟨answer, rfl⟩ := Option.isSome_iff_exists.mp hsome
        cases c with
        | wait => simpa using hmove _ _ (.released k f answer hp hdue)
        | create | start | await | kill | pid | status => cases hwait
      · rename_i hopen
        cases he
        have hm := hmove _ _ (.releaseGoesOn k f c res hp hdue fun hwait => by simpa [hwait] using hopen)
        rwa [List.append_nil, goTo_self (r := { r with children := r.children.set k g' }) hp] at hm

theorem close_move {outcome : Except Failure Outcome} (hp : r.position = .closing outcome)
    (h : r.close outcome = some (r', e)) : Move r .manage r' e := by
  cases h
  exact .ends _ _ (.closes outcome hp)

theorem abort_move {f : Failure} (hp : r.position = .aborting f) (h : r.abort f = some (r', e)) :
    Move r .manage r' e := by
  cases h
  exact .ends _ _ (.aborts f _ hp)

theorem drain_move {f : Ending} (hp : r.position = .draining f) (h : r.drain f = some (r', e)) :
    Move r .manage r' e := by
  unfold drain at h
  split at h
  · rename_i hover
    have hm : ∀ lines : List LogLine, Move r .manage ({ r with watch := .empty }.goTo (.releasing 0 f))
        (lines.map Entry.log) := fun lines => .drains f lines hp hover
    cases h
    split
    · exact hm [_]
    · exact hm []
  · cases h

theorem dismiss_move {f : Ending} (hp : r.position = .dismissing f)
    (h : r.dismiss f = some (r', e)) : Move r .manage r' e := by
  have hconclude : r.supervisor.step .work = none → some (r.conclude f) = some (r', e) →
      Move r .manage r' e := by
    intro hover he
    cases he
    exact .jumps _ _ (.concludes f hp hover)
  unfold dismiss at h
  split at h
  · rename_i hw
    exact hconclude (by simp [Supervisor.step, Supervisor.work, hw]) h
  · rename_i hw
    exact hconclude (by simp [Supervisor.step, Supervisor.work, hw]) h
  · rename_i hw
    exact hconclude (by simp [Supervisor.step, Supervisor.work, hw]) h
  · split at h
    · cases h
    · cases h
      have hm := Move.ends _ _ (Ends.dismisses f hp)
      rwa [goTo_self (r := { r with supervisor := { r.supervisor with finished := true } }) hp] at hm

theorem manage_move (h : r.manage = some (r', e)) : Move r .manage r' e := by
  unfold manage at h
  split at h
  · rename_i hp
    exact enter_move hp h
  · rename_i hp
    refine callSupervisor_move (by simp [dueCall?, hp]) ?_ h
    rintro ((f | p) | _) u <;> simp [hp, Position.after]
  · rename_i k hp
    exact createChild_move hp h
  · rename_i k hp
    exact enlist_move hp h
  · rename_i hp
    refine callSupervisor_move (by simp [dueCall?, hp]) ?_ h
    rintro (stop | _) u <;> simp [hp, Position.after, giveUp_eq]
  · rename_i k hp
    exact startChild_move hp h
  · rename_i hp
    refine callSupervisor_move (by simp [dueCall?, hp]) ?_ h
    rintro (stop | _) u <;> simp [hp, Position.after, giveUp_eq]
  · rename_i hp
    exact arm_move hp h
  · rename_i hp
    exact poll_move hp h
  · rename_i hp
    unfold checkLimit at h
    split at h
    · rename_i hexpired
      cases h
      exact .jumps _ _ (.limitReached _ hp hexpired)
    · cases h
      exact .jumps _ _ (.limitAhead hp)
  · rename_i hp
    unfold checkSupervisor at h
    split at h
    · rename_i hstopped
      cases h
      exact .jumps _ _ (.supervisorGone hp hstopped)
    · cases h
      exact .jumps _ _ (.supervisorThere hp)
  · rename_i outcome hp
    exact disarm_move hp h
  · rename_i outcome hp
    exact close_move hp h
  · rename_i outcome hp
    refine callSupervisor_move (by simp [dueCall?, hp]) ?_ h
    intro joined u
    simp [hp, Position.after]
  · rename_i outcome joined hp
    refine callSupervisor_move (by simp [dueCall?, hp]) ?_ h
    rintro ((f | p) | _) u <;> simp [hp, Position.after]
  · rename_i f hp
    exact abort_move hp h
  · rename_i f hp
    cases h
    exact .jumps _ _ (.cleans f _ hp)
  · rename_i k f hp
    exact killChild_move hp h
  · rename_i f hp
    exact drain_move hp h
  · rename_i k f hp
    exact release_move hp h
  · rename_i f hp
    exact dismiss_move hp h
  · cases h

omit [Strategy σ] in
theorem settle_hears {u : Run σ} {g : Gated} (ge : List Gated.Entry) (hg : u.children[k]? = some g) :
    ∃ w, settle k ge u = { u with watch := w } ∧ Hears u.watch g ge w := by
  unfold settle
  split
  · rename_i res pid hback hnamed
    rw [hg] at hnamed
    split
    · rename_i w we hw
      exact ⟨w, rfl, .settles res pid w we hback hnamed hw⟩
    · rename_i hnone
      refine ⟨u.watch, rfl, .nothing ?_⟩
      intro res' pid' hback' hnamed'
      cases hback.symm.trans hback'
      cases hnamed.symm.trans hnamed'
      exact hnone
  · rename_i hsilent
    refine ⟨u.watch, rfl, .nothing ?_⟩
    intro res pid hback hnamed
    exact absurd (by simpa [hg] using hnamed) (hsilent res pid hback)

theorem step_move (h : step r a = some (r', e)) : Move r a r' e := by
  cases a with
  | manage => exact manage_move h
  | child k a =>
    simp only [step] at h
    split at h
    · rename_i ha
      obtain ⟨⟨u, ge⟩, hwith, he⟩ := Option.map_eq_some_iff.mp h
      obtain ⟨g, g', hg, hstep, rfl⟩ := withChild_eq hwith
      have hk : k < r.children.length := (List.getElem?_eq_some_iff.mp hg).1
      obtain ⟨w, hw, hhears⟩ := settle_hears (u := { r with children := r.children.set k g' })
        (k := k) (g := g') ge (by simp [hk])
      cases he
      rw [hw]
      exact .childMoves k a g g' ge w ha hg hstep hhears
    · cases h
  | publish pid =>
    obtain ⟨⟨w, we⟩, hw, he⟩ := Option.map_eq_some_iff.mp h
    cases he
    exact .publishes pid w we hw
  | work =>
    obtain ⟨⟨u, ve⟩, hu, he⟩ := Option.map_eq_some_iff.mp h
    obtain ⟨⟨v, _⟩, hv, hve⟩ := Option.map_eq_some_iff.mp hu
    cases hve
    cases he
    exact .works v ve hv
  | alarm a =>
    simp only [step, Option.bind_eq_bind, Option.pure_def] at h
    split at h
    · rename_i ha
      simp only [Option.bind_eq_some_iff, Option.some.injEq, Prod.mk.injEq] at h
      obtain ⟨al, hal, ⟨al', ae⟩, hstep, rfl, rfl⟩ := h
      exact .alarmMoves a al al' ae ha hal hstep
    · cases h

theorem afterStop_phase (stop : Stop) : (Position.afterStop stop).phase = 5 := by
  cases stop <;> rfl

theorem Jump.onward {p : Position} {lines : List Entry} (h : Jump r p lines) :
    r.position.phase ≤ p.phase := by
  cases h <;> simp [Position.phase, *]

omit [Strategy σ] in
theorem Drive.onward {g : Gated} {res : Option (Result Answer)} {p : Position} {lines : List Entry}
    (h : Drive r g k c res p lines) : r.position.phase ≤ p.phase := by
  cases h with
  | startStops stop stop' here => cases stop' <;> simp [here, Position.afterStop, Position.phase]
  | startGoesOn here | started _ here | killGoesOn _ here | killed _ _ _ here
  | releaseGoesOn _ _ _ here | released _ _ here => simp [here, Position.phase]

omit [Strategy σ] in
theorem after_nextWait {va : Supervisor.Action} (hdue : r.dueCall? = some va) (res : Result Unit) :
    r.position.phase ≤ (r.position.after res).phase := by
  rcases dueCall?_cases hdue with here | here | here | ⟨outcome, here⟩ | ⟨outcome, joined, here⟩ <;>
  · rw [here]
    rcases res with (f | q) | _ <;> simp [Position.after, Position.afterStop, Position.phase]

theorem Move.onward (h : Move r a r' e) : r.position.phase ≤ r'.position.phase := by
  cases h with
  | jumps p lines leads => exact leads.onward
  | supervised va v ve res due => exact after_nextWait due res
  | drives k c g g' ge p lines there took leads => exact leads.onward
  | polls w we p lines here took leads => cases leads <;> simp [here, Position.phase]
  | ends p lines leads => cases leads <;> simp [Position.phase, *]
  | creates _ _ _ here | createFails _ _ _ here | enlists _ _ _ _ _ _ _ here | enlistFails _ _ here
  | arms here | disarmed _ here | drains _ _ here => simp [here, Position.phase]
  | supervises | disarms | childMoves | publishes | works | alarmMoves => exact Nat.le_refl _

theorem Move.early (h : Move r a r' e) (hl : r'.position.isEarly = true) :
    r.position.isEarly = true := by
  have honward := h.onward
  simp only [Position.isEarly, decide_eq_true_iff] at hl ⊢
  omega

theorem Move.shut (h : Move r a r' e) (hl : r'.position.isShut = true) :
    r.position.isShut = true := by
  have honward := h.onward
  simp only [Position.isShut, decide_eq_true_iff] at hl ⊢
  omega

theorem Move.launch (h : Move r a r' e) (hl : r'.position.isLaunch = true) :
    r.position.isLaunch = true := by
  have honward := h.onward
  simp only [Position.isLaunch, decide_eq_true_iff] at hl ⊢
  omega

theorem Move.watching (h : Move r a r' e) (hl : r'.position.isWatching = true) :
    r.position.isWatching = true := by
  have honward := h.onward
  simp only [Position.isWatching, decide_eq_true_iff] at hl ⊢
  omega

theorem Position.phase_le (p : Position) : p.phase ≤ 5 := by
  cases p <;> simp [phase]

theorem Move.over (h : Move r a r' e) (hl : r.position.isOver = true) :
    r'.position.isOver = true := by
  have honward := h.onward
  have hle := r'.position.phase_le
  simp only [Position.isOver, decide_eq_true_iff] at hl ⊢
  omega

end Corun.Run
