import Corun.Proofs.Child.Tended

namespace Corun.Child

/-- The child was released or killed at some time. -/
def Phase.Left (phase : Phase) : Prop := phase = .running ∨ phase = .killed ∨ phase = .terminated

/-- The phases in which a call does what it is there for. -/
def Call.Due (phase : Phase) : Call → Prop
  | create _ => phase = .notStarted
  | start => phase = .ready
  | wait => phase = .running ∨ phase = .killed
  | await | kill => phase ≠ .notStarted
  | pid => phase = .ready ∨ phase = .running ∨ phase = .killed
  | status => phase = .terminated

/-- A thread is inside of calls that do not come back at once, and the phase is one that the stage allows.
Start and kill hold the lock, so for them it is the one they have put the child in. -/
def Pending.Fits (phase : Phase) (p : Pending) : Prop :=
  match p.call, p.stage with
  | .start, .notifying | .start, .releasing | .start, .closing | .start, .reading _ => phase = .running
  | .kill, .notifying | .kill, .signaling => phase = .killed
  | .wait, .observing | .wait, .reaping => phase.Left
  | .await, .checking => True
  | .await, .approaching | .await, .asleep => phase ≠ .notStarted
  | .await, .past | .await, .observing | .await, .reaping => phase.Left
  | .await, .asking => phase = .terminated
  | _, _ => False

theorem Phase.Left.begun {phase : Phase} (h : phase.Left) : phase ≠ .notStarted := by
  rcases h with rfl | rfl | rfl <;> simp

/-- The calls that go through a stage. -/
def Stage.Of (c : Call) : Stage → Prop
  | notifying => c = .start ∨ c = .kill
  | releasing | closing | reading _ => c = .start
  | signaling => c = .kill
  | observing | reaping => c = .wait ∨ c = .await
  | checking | approaching | asleep | past | asking => c = .await

/-- The stages of a thread that holds the lock. -/
def Stage.holds : Stage → Bool
  | notifying | releasing | closing | reading _ | signaling => true
  | _ => false

theorem Pending.Fits.call {phase : Phase} {p : Pending} (h : p.Fits phase) : p.stage.Of p.call := by
  obtain ⟨c, s⟩ := p
  cases c <;> cases s <;> simp_all [Fits, Stage.Of]

theorem Pending.Fits.holds {phase : Phase} {p : Pending} (h : p.Fits phase) :
    p.call.holds = p.stage.holds := by
  obtain ⟨c, s⟩ := p
  cases c <;> cases s <;> simp_all [Fits, Call.holds, Stage.holds]

/-- Only waiting calls come to where the child is waited for. -/
theorem Pending.Fits.waits {phase : Phase} {c : Call} {s : Stage} (h : Pending.Fits phase ⟨c, s⟩)
    (hs : s = .observing ∨ s = .reaping) : (c = .wait ∨ c = .await) ∧ phase.Left := by
  rcases hs with rfl | rfl <;> cases c <;> simp_all [Fits]

/-- Whoever does not hold the lock is not disturbed by a child that leaves its gate or is reaped. -/
theorem Pending.Fits.later {phase later : Phase} {p : Pending} (hp : p.Fits phase)
    (hfree : p.call.holds = false) (hl : later.Left) (hstays : phase = .terminated → later = phase) :
    p.Fits later := by
  have hbegun := hl.begun
  obtain ⟨c, s⟩ := p
  cases c <;> cases s <;> simp_all [Fits, Call.holds]

namespace Gated
open Os Sync

variable {g g' : Gated} {t u : Nat} {c : Call} {s : Stage} {r : Result Answer} {a : Action}
  {e : List Entry}

/-- What holds at every point of a child that any threads share. -/
structure Shared (g : Gated) : Prop where
  named : g.pid? = none ↔ g.phase = .notStarted
  absent : g.life = .absent ↔ g.phase = .notStarted
  /-- At the gate the record has what it takes to release the child. -/
  gated : g.phase = .ready → g.hasGate = true ∧ g.hasReport = true
  told : (∃ x, g.termination? = some x) ↔ g.phase = .terminated
  reaped : g.phase = .terminated →
    ∃ status, g.life = .reaped status ∧ Termination.ofStatus? status = g.termination?
  inside : ∀ t p, g.pending? t = some p → p.Fits g.phase
  held : ∀ t p, g.pending? t = some p → p.call.holds = true → g.holder = some t
  holder : ∀ t, g.holder = some t → ∃ p, g.pending? t = some p ∧ p.call.holds = true
  /-- Whoever is about to reap has seen an end that can be told. -/
  reaping : ∀ t c, g.pending? t = some ⟨c, .reaping⟩ → ∃ status x,
    (g.life = .zombie status ∨ g.life = .reaped status) ∧ Termination.ofStatus? status = some x
  sleeping : ∀ t ∈ g.latch.bell.threads, g.pending? t = some ⟨.await, .asleep⟩
  once : g.latch.bell.threads.Nodup
/-- What calls come back with that leave the record as it is. -/
inductive Answers (g : Gated) (t : Nat) : Call → Result Answer → Prop where
  | refuses (c : Call) (verb : String)
      (here : g.pending? t = none ∨ g.pending? t = some ⟨c, .checking⟩) (undue : ¬ c.Due g.phase) :
    Answers g t c (Result.fail (.invalidState verb g.phase))
  | cannotFork (f : Failure) (idle : g.pending? t = none) (unborn : g.phase = .notStarted) :
    Answers g t (.create (.error f)) (.error (.failed f))
  | spares (idle : g.pending? t = none) (left : g.phase = .killed ∨ g.phase = .terminated) :
    Answers g t .kill (.ok .done)
  | names (pid : Pid) (idle : g.pending? t = none) (due : Call.Due g.phase .pid)
      (known : g.pid? = some pid) : Answers g t .pid (.ok (.pid pid))
  | tells (c : Call) (x : Termination)
      (here : g.pending? t = none ∧ c = .status ∨ g.pending? t = some ⟨c, .asking⟩ ∨
        g.pending? t = some ⟨c, .reaping⟩)
      (ended : g.phase = .terminated) (known : g.termination? = some x) :
    Answers g t c (.ok (.ended x))
  | overtaken (inside : g.pending? t = some ⟨.await, .past⟩) (ended : g.phase = .terminated) :
    Answers g t .await (Result.fail (.invalidState "wait for" g.phase))
  | isLate (c : Call) (pid : Pid) (status : WaitStatus)
      (inside : g.pending? t = some ⟨c, .observing⟩) (reaped : g.life = .reaped status)
      (known : g.pid? = some pid) : Answers g t c (Result.fail (.waitFailed pid .noChild))
  | cannotTell (c : Call) (pid : Pid) (status : WaitStatus)
      (inside : g.pending? t = some ⟨c, .observing⟩) (ended : g.life = .zombie status)
      (unnamed : Termination.ofStatus? status = none) (known : g.pid? = some pid) :
    Answers g t c (Result.fail (.waitFailed pid .invalidArgument))
  | isRobbed (c : Call) (pid : Pid) (status : WaitStatus)
      (inside : g.pending? t = some ⟨c, .reaping⟩) (reaped : g.life = .reaped status)
      (unrecorded : g.phase ≠ .terminated) (known : g.pid? = some pid) :
    Answers g t c (Result.fail (.waitFailed pid .noChild))
/-- How a thread begins to wait or goes on waiting, with nothing changed but where it is. -/
inductive WaitStep (g : Gated) (t : Nat) : Call → Stage → Prop where
  | awaits (idle : g.pending? t = none) : WaitStep g t .await .checking
  | waits (idle : g.pending? t = none) (due : g.phase = .running ∨ g.phase = .killed) :
    WaitStep g t .wait .observing
  | observes (c : Call) (status : WaitStatus) (x : Termination)
      (inside : g.pending? t = some ⟨c, .observing⟩) (ended : g.life = .zombie status)
      (known : Termination.ofStatus? status = some x) : WaitStep g t c .reaping
  | holdsBack (inside : g.pending? t = some ⟨.await, .checking⟩) (gated : g.phase = .ready) :
    WaitStep g t .await .approaching
  | passes (inside : g.pending? t = some ⟨.await, .checking⟩)
      (due : g.phase = .running ∨ g.phase = .killed) : WaitStep g t .await .past
  | finds (inside : g.pending? t = some ⟨.await, .checking⟩) (ended : g.phase = .terminated) :
    WaitStep g t .await .asking
  | looks (inside : g.pending? t = some ⟨.await, .past⟩)
      (due : g.phase = .running ∨ g.phase = .killed) : WaitStep g t .await .observing

/-- What happens at the latch. -/
inductive LatchStep (g : Gated) : Gated → Prop where
  | notifies (t : Nat) (c : Call) (s : Stage) (inside : g.pending? t = some ⟨c, .notifying⟩)
      (leads : c = .start ∧ s = .releasing ∨ c = .kill ∧ s = .signaling) :
    LatchStep g ({ g with latch := ⟨true, g.latch.bell.announce⟩ }.place t c s)
  | slips (t : Nat) (inside : g.pending? t = some ⟨.await, .approaching⟩)
      (open_ : g.latch.isSet = true) :
    LatchStep g ({ g with latch := ⟨false, g.latch.bell⟩ }.place t .await .checking)
  | sleeps (t : Nat) (inside : g.pending? t = some ⟨.await, .approaching⟩)
      (closed : g.latch.isSet = false) :
    LatchStep g ({ g with latch := g.latch.sleep t false }.place t .await .asleep)
  | rings (b : Bell.Action) (bell : Bell) (rung : g.latch.bell.step b = some bell) :
    LatchStep g { g with latch := ⟨g.latch.isSet, bell⟩ }
  | wakes (k : Nat) (riser : Riser) (bell : Bell) (risen : g.latch.bell.rise k = some (riser, bell))
      (open_ : g.latch.isSet = true) :
    LatchStep g ({ g with latch := ⟨false, bell⟩ }.place riser.thread .await .checking)
  | turns (k : Nat) (riser : Riser) (bell : Bell) (risen : g.latch.bell.rise k = some (riser, bell))
      (closed : g.latch.isSet = false) (noTimeouts : riser.expired = false) :
    LatchStep g { g with latch := ⟨g.latch.isSet, bell.sleep riser.thread riser.timed⟩ }
  | leaves (k : Nat) (riser : Riser) (bell : Bell) (risen : g.latch.bell.rise k = some (riser, bell))
      (closed : g.latch.isSet = false) (late : riser.expired = true) :
    LatchStep g { g with latch := ⟨g.latch.isSet, bell⟩ }

/-- What start comes back with when nobody is at the gate. -/
def unheard (g : Gated) : Result Answer :=
  Result.within (.releasing (g.pid?.getD 0)) (Result.within .writingPipe
    (Result.fail (.system .brokenPipe)))

/-- How a thread goes on that has begun to start the child. -/
inductive StartStep (g : Gated) (t : Nat) : Gated → List Entry → Prop where
  | opens (inside : g.pending? t = some ⟨.start, .releasing⟩) (heard : g.life.gateReaders ≠ 0) :
    StartStep g t ({ g with gateBytes := g.gateBytes ++ [1] }.place t .start .closing) [.released]
  | findsNobody (inside : g.pending? t = some ⟨.start, .releasing⟩) (deserted : g.life.gateReaders = 0) :
    StartStep g t (g.endStart t g.unheard).1 [.returned t .start g.unheard]
  | closes (inside : g.pending? t = some ⟨.start, .closing⟩) :
    StartStep g t ({ g with gateOpen := false }.place t .start (.reading [])) []
  | reads (bytes chunk rest : List UInt8) (inside : g.pending? t = some ⟨.start, .reading bytes⟩)
      (sent : g.reportBytes = chunk ++ rest) (some : chunk ≠ [])
      (fits : chunk.length ≤ reportSize - bytes.length)
      (short : (bytes ++ chunk).length ≠ reportSize) :
    StartStep g t ({ g with reportBytes := rest }.place t .start (.reading (bytes ++ chunk))) []
  | isTold (bytes chunk rest : List UInt8) (inside : g.pending? t = some ⟨.start, .reading bytes⟩)
      (sent : g.reportBytes = chunk ++ rest) (full : (bytes ++ chunk).length = reportSize) :
    StartStep g t
      (Gated.endStart t (Result.fail (.execFailed g.path (.ofBytes (bytes ++ chunk))))
        { g with reportBytes := rest }).1
      [.returned t .start (Result.fail (.execFailed g.path (.ofBytes (bytes ++ chunk))))]
  | hearsEnd (bytes : List UInt8) (inside : g.pending? t = some ⟨.start, .reading bytes⟩)
      (flows : g.report.blocks = false) (silent : bytes.length < reportSize → g.reportBytes = []) :
    StartStep g t (g.endStart t (.ok .done)).1 [.returned t .start (.ok .done)]

/-- What the child does, or what is done to it. -/
inductive MoveEffect (g : Gated) : Child.Move → Gated → List Entry → Prop where
  | settles (here : g.life = .forked) : MoveEffect g .settle { g with life := .gated } []
  | passes (byte : UInt8) (rest : List UInt8) (here : g.life = .gated)
      (sent : g.gateBytes = byte :: rest) :
    MoveEffect g .pass { g with gateBytes := rest, life := .released } []
  | findsGateShut (here : g.life = .gated) (silent : g.gateBytes = []) (shut : g.gateOpen = false) :
    MoveEffect g .pass { g with life := .zombie (.exited Life.gateClosed) } []
  | executes (here : g.life = .released) :
    MoveEffect g (.execute none) { g with life := .running } [.executed none]
  | isRefused (errno : Errno) (here : g.life = .released) :
    MoveEffect g (.execute (some errno)) { g with life := .refused errno.recognized.toBytes }
      [.executed (some errno)]
  | reports (unsent : List UInt8) (here : g.life = .refused unsent) (some : unsent ≠ [])
      (heard : g.reportOpen = true) :
    MoveEffect g .report { g with reportBytes := g.reportBytes ++ unsent, life := .refused [] } []
  | reportsToNobody (unsent : List UInt8) (here : g.life = .refused unsent) (some : unsent ≠ [])
      (deserted : g.reportOpen = false) : MoveEffect g .report { g with life := .refused [] } []
  | givesUp (here : g.life = .refused []) :
    MoveEffect g .giveUp { g with life := .zombie (.exited Life.notExecuted) } []
  | exits (status : Nat) (here : g.life = .running) :
    MoveEffect g (.exit status) { g with life := .zombie (.exited status) } []
  | dies (signal : Nat) (live : g.life.isLive = true) :
    MoveEffect g (.die signal) { g with life := .zombie (.killed signal) } []
  | follows (others : Bool) (born : g.life ≠ .absent) :
    MoveEffect g (.follow others) { g with hasFollowers := others } []

/-- All that one step does to a child that any threads share. -/
inductive StepEffect (g : Gated) (a : Action) : Gated → List Entry → Prop where
  | waitsOn (t : Nat) (c : Call) (s : Stage) (leads : WaitStep g t c s)
      (begins : g.pending? t = none → a = .call t c) : StepEffect g a (g.place t c s) []
  | answers (t : Nat) (c : Call) (r : Result Answer) (gives : Answers g t c r) :
    StepEffect g a (g.back t c r).1 [.returned t c r]
  | latches (g' : Gated) (rung : LatchStep g g') : StepEffect g a g' []
  | creates (t : Nat) (pid : Pid) (idle : g.pending? t = none) (free : g.holder = none)
      (unborn : g.phase = .notStarted) :
    StepEffect g a
      ({ g with
        phase := .ready, pid? := some pid, hasGate := true, hasReport := true
        gateBytes := [], gateOpen := true, reportBytes := [], reportOpen := true
        life := .forked }.back t (.create (.ok pid)) (.ok (.pid pid))).1
      [.returned t (.create (.ok pid)) (.ok (.pid pid))]
  | starts (t : Nat) (idle : g.pending? t = none) (free : g.holder = none) (gated : g.phase = .ready) :
    StepEffect g a
      ({ g with phase := .running, hasGate := false, hasReport := false, holder := some t }.place
        t .start .notifying) []
  | releases (t : Nat) (g' : Gated) (e : List Entry) (goesOn : StartStep g t g' e) :
    StepEffect g a g' e
  | kills (t : Nat) (idle : g.pending? t = none) (free : g.holder = none)
      (alive : g.phase = .ready ∨ g.phase = .running) :
    StepEffect g a ({ g with phase := .killed, holder := some t }.place t .kill .notifying) []
  | signals (t : Nat) (life : Life) (sent : Except Errno Unit) (r : Result Answer)
      (inside : g.pending? t = some ⟨.kill, .signaling⟩)
      (hit : g.life = life ∨ g.life.isLive = true ∧ life = .zombie (.killed Signal.kill.number))
      (sends : sent = .ok () ∨ (∃ status, g.life = .reaped status) ∨
        ∃ errno, a = .refuse t errno ∧ sent = .error errno)
      (gives : r = .ok .done ∨ ∃ f errno, r = .error (.failed f) ∧ f.cause = .system errno) :
    StepEffect g a ({ g with life }.back t .kill r).1
      [.signaled g.killMode sent, .returned t .kill r]
  | reaps (t : Nat) (c : Call) (status : WaitStatus) (x : Termination)
      (inside : g.pending? t = some ⟨c, .reaping⟩) (free : g.holder = none)
      (ended : g.life = .zombie status) (known : Termination.ofStatus? status = some x) :
    StepEffect g a
      (Gated.back t c (.ok (.ended x))
        { g with life := .reaped status, termination? := some x, phase := .terminated }).1
      [.reaped status, .returned t c (.ok (.ended x))]
  | moves (m : Child.Move) (g' : Gated) (e : List Entry) (does : a = .child m)
      (goesOn : MoveEffect g m g' e) : StepEffect g a g' e
  | seizes (status : WaitStatus) (behind : a = .seize) (ended : g.life = .zombie status) :
    StepEffect g a { g with life := .reaped status } [.reaped status]

@[simp] theorem pending?_endStart (g : Gated) (t u : Nat) (r : Result Answer) :
    (g.endStart t r).1.pending? u = if u = t then none else g.pending? u := pending?_back ..

theorem Shared.known (hs : Shared g) (h : g.phase ≠ .notStarted) : g.pid? ≠ none :=
  fun hunknown => h (hs.named.mp hunknown)

theorem Shared.pid (hs : Shared g) (h : g.phase ≠ .notStarted) : ∃ pid, g.pid? = some pid :=
  Option.ne_none_iff_exists'.mp (hs.known h)

/-- There is a record of whatever child there is. -/
theorem Shared.begun (hs : Shared g) (h : g.life ≠ .absent) : g.phase ≠ .notStarted :=
  fun hp => h (hs.absent.mpr hp)

theorem create_effect {fork : Except Failure Pid} (hidle : g.pending? t = none)
    (hfree : g.holder = none) (h : g.create t fork = (g', e)) : StepEffect g a g' e := by
  unfold create at h
  split at h
  · rename_i hphase
    cases h
    exact .answers t _ _ (.refuses _ _ (.inl hidle) hphase)
  · rename_i hphase
    have hunborn : g.phase = .notStarted := by simpa using hphase
    split at h
    · rename_i f
      cases h
      exact .answers t _ _ (.cannotFork f hidle hunborn)
    · rename_i pid
      cases h
      exact .creates t pid hidle hfree hunborn

theorem start_effect (hs : Shared g) (hidle : g.pending? t = none) (hfree : g.holder = none)
    (h : g.start t = (g', e)) : StepEffect g a g' e := by
  unfold start at h
  split at h
  · rename_i hphase
    cases h
    exact .answers t _ _ (.refuses _ _ (.inl hidle) hphase)
  · rename_i hphase
    have hready : g.phase = .ready := by simpa using hphase
    have hnamed := hs.known (by simp [hready])
    obtain ⟨hgate, hreport⟩ := hs.gated hready
    rw [if_neg hnamed, if_neg (by simp [hgate]), if_neg (by simp [hreport])] at h
    cases h
    exact .starts t hidle hfree hready

theorem kill_effect (hs : Shared g) (hidle : g.pending? t = none) (hfree : g.holder = none)
    (h : g.kill t = (g', e)) : StepEffect g a g' e := by
  unfold kill at h
  split at h
  · rename_i hphase
    rw [if_neg (hs.known (by simp [hphase]))] at h
    cases h
    exact .kills t hidle hfree (.inl hphase)
  · rename_i hphase
    rw [if_neg (hs.known (by simp [hphase]))] at h
    cases h
    exact .kills t hidle hfree (.inr hphase)
  · rename_i hphase
    cases h
    exact .answers t _ _ (.spares hidle (.inl hphase))
  · rename_i hphase
    cases h
    exact .answers t _ _ (.spares hidle (.inr hphase))
  · rename_i hphase
    cases h
    exact .answers t _ _ (.refuses _ _ (.inl hidle) (absurd hphase))

/-- Waiting is due or not, whether the call is a wait or has awaited the release first. -/
theorem wait_cases (hs : Shared g) (t : Nat) (c : Call) :
    (g.phase = .running ∨ g.phase = .killed) ∧ g.wait t c = (g.place t c .observing, []) ∨
    ¬ (g.phase = .running ∨ g.phase = .killed) ∧ g.wait t c = g.invalid t c "wait for" := by
  unfold wait
  split
  · rename_i hphase
    rw [if_neg (hs.known (by simp [hphase]))]
    exact .inl ⟨.inl hphase, rfl⟩
  · rename_i hphase
    rw [if_neg (hs.known (by simp [hphase]))]
    exact .inl ⟨.inr hphase, rfl⟩
  · rename_i hrunning hkilled
    exact .inr ⟨fun hdue => hdue.elim hrunning hkilled, rfl⟩

theorem wait_effect (hs : Shared g) (hidle : g.pending? t = none)
    (h : g.wait t .wait = (g', e)) : StepEffect g (.call t .wait) g' e := by
  rcases wait_cases hs t .wait with ⟨hdue, hwaits⟩ | ⟨hundue, hinvalid⟩
  · cases hwaits.symm.trans h
    exact .waitsOn t _ _ (.waits hidle hdue) fun _ => rfl
  · cases hinvalid.symm.trans h
    exact .answers t _ _ (.refuses _ _ (.inl hidle) hundue)

/-- The pid is told as long as it is that of the child. -/
theorem pid_cases (hs : Shared g) (t : Nat) :
    (∃ pid, Call.Due g.phase .pid ∧ g.pid? = some pid ∧ g.pid t = g.back t .pid (.ok (.pid pid))) ∨
    ¬ Call.Due g.phase .pid ∧ g.pid t = g.invalid t .pid "query the pid of" := by
  by_cases hdue : Call.Due g.phase .pid
  · have hbegun : g.phase ≠ .notStarted := by rcases hdue with hp | hp | hp <;> simp [hp]
    obtain ⟨pid, hpid⟩ := hs.pid hbegun
    refine .inl ⟨pid, hdue, hpid, ?_⟩
    rcases hdue with hp | hp | hp <;> simp [Gated.pid, hp, hpid]
  · refine .inr ⟨hdue, ?_⟩
    cases hp : g.phase with
    | ready | running | killed => simp [Call.Due, hp] at hdue
    | notStarted | terminated => simp [Gated.pid, hp]

theorem pid_effect (hs : Shared g) (hidle : g.pending? t = none) (h : g.pid t = (g', e)) :
    StepEffect g a g' e := by
  rcases pid_cases hs t with ⟨pid, hdue, hpid, hnamed⟩ | ⟨hundue, hinvalid⟩
  · cases hnamed.symm.trans h
    exact .answers t _ _ (.names pid hidle hdue hpid)
  · cases hinvalid.symm.trans h
    exact .answers t _ _ (.refuses _ _ (.inl hidle) hundue)

/-- How the child ended is told once that is recorded. -/
theorem status_cases (hs : Shared g) (t : Nat) (c : Call) :
    (∃ x, g.phase = .terminated ∧ g.termination? = some x ∧
      g.status t c = g.back t c (.ok (.ended x))) ∨
    g.phase ≠ .terminated ∧ g.status t c = g.invalid t c "query the termination status of" := by
  unfold status
  split
  · rename_i x hphase hx
    exact .inl ⟨x, hphase, hx, rfl⟩
  · rename_i hnot
    refine .inr ⟨?_, rfl⟩
    intro hphase
    obtain ⟨x, hx⟩ := hs.told.mpr hphase
    exact hnot x hphase hx

theorem status_effect (hs : Shared g) (hidle : g.pending? t = none)
    (h : g.status t .status = (g', e)) : StepEffect g a g' e := by
  rcases status_cases hs t .status with ⟨x, hphase, hx, htold⟩ | ⟨hundue, hinvalid⟩
  · cases htold.symm.trans h
    exact .answers t _ _ (.tells _ x (.inl ⟨hidle, rfl⟩) hphase hx)
  · cases hinvalid.symm.trans h
    exact .answers t _ _ (.refuses _ _ (.inl hidle) hundue)
/-- A section is entered when the lock is free. -/
theorem locked {x : Gated × List Entry}
    (h : (if g.holder ≠ none then none else some x) = some (g', e)) :
    g.holder = none ∧ x = (g', e) := by
  split at h
  · cases h
  · rename_i hheld
    exact ⟨by simpa using hheld, Option.some.inj h⟩

theorem begin_effect (hs : Shared g) (h : g.begin t c = some (g', e)) :
    StepEffect g (.call t c) g' e := by
  unfold begin at h
  split at h
  · cases h
  · rename_i hidle
    have hidle : g.pending? t = none := by simpa using hidle
    cases c with
    | await =>
      cases h
      exact .waitsOn t _ _ (.awaits hidle) fun _ => rfl
    | create fork =>
      obtain ⟨hfree, h⟩ := locked h
      exact create_effect hidle hfree h
    | start =>
      obtain ⟨hfree, h⟩ := locked h
      exact start_effect hs hidle hfree h
    | wait =>
      obtain ⟨-, h⟩ := locked h
      exact wait_effect hs hidle h
    | kill =>
      obtain ⟨hfree, h⟩ := locked h
      exact kill_effect hs hidle hfree h
    | pid =>
      obtain ⟨-, h⟩ := locked h
      exact pid_effect hs hidle h
    | status =>
      obtain ⟨-, h⟩ := locked h
      exact status_effect hs hidle h

theorem check_effect (hin : g.pending? t = some ⟨.await, .checking⟩)
    (h : g.check t = (g', e)) : StepEffect g a g' e := by
  unfold check at h
  split at h
  · rename_i hphase
    cases h
    exact .waitsOn t _ _ (.holdsBack hin hphase) (by simp [hin])
  · rename_i hphase
    cases h
    exact .waitsOn t _ _ (.passes hin (.inl hphase)) (by simp [hin])
  · rename_i hphase
    cases h
    exact .waitsOn t _ _ (.passes hin (.inr hphase)) (by simp [hin])
  · rename_i hphase
    cases h
    exact .waitsOn t _ _ (.finds hin hphase) (by simp [hin])
  · rename_i hphase
    cases h
    exact .answers t _ _ (.refuses _ _ (.inr hin) (absurd hphase))

theorem look_effect (hs : Shared g) (hin : g.pending? t = some ⟨.await, .past⟩)
    (h : g.wait t .await = (g', e)) : StepEffect g a g' e := by
  rcases wait_cases hs t .await with ⟨hdue, hwaits⟩ | ⟨hundue, hinvalid⟩
  · cases hwaits.symm.trans h
    exact .waitsOn t _ _ (.looks hin hdue) (by simp [hin])
  · cases hinvalid.symm.trans h
    -- Whoever has found the child released finds it released again, or reaped since.
    have hleft : g.phase.Left := hs.inside t _ hin
    have hended : g.phase = .terminated := by
      rcases hleft with hp | hp | hp
      · exact absurd (.inl hp) hundue
      · exact absurd (.inr hp) hundue
      · exact hp
    exact .answers t _ _ (.overtaken hin hended)

theorem ask_effect (hs : Shared g) (hin : g.pending? t = some ⟨.await, .asking⟩)
    (h : g.status t .await = (g', e)) : StepEffect g a g' e := by
  rcases status_cases hs t .await with ⟨x, hphase, hx, htold⟩ | ⟨hundue, -⟩
  · cases htold.symm.trans h
    exact .answers t _ _ (.tells _ x (.inr (.inl hin)) hphase hx)
  · exact absurd (hs.inside t _ hin) hundue

theorem reap_effect (hs : Shared g) (hin : g.pending? t = some ⟨c, .reaping⟩)
    (hfree : g.holder = none) (h : g.reap t c = some (g', e)) : StepEffect g a g' e := by
  obtain ⟨known, x, hlife, hx⟩ := hs.reaping t c hin
  unfold reap at h
  split at h
  · rename_i x hphase hx
    cases h
    exact .answers t _ _ (.tells _ x (.inr (.inr hin)) hphase hx)
  · rename_i hnot
    have hunrecorded : g.phase ≠ .terminated := by
      intro hphase
      obtain ⟨x, hx⟩ := hs.told.mpr hphase
      exact hnot x hphase hx
    split at h
    · rename_i status pid hz _
      obtain rfl : known = status := by
        rcases hlife with hl | hl
        · exact Life.zombie.inj (hl.symm.trans hz)
        · rw [hz] at hl
          cases hl
      rw [hx] at h
      cases h
      exact .reaps t c known x hin hfree hz hx
    · rename_i status pid hreaped hpid
      cases h
      exact .answers t _ _ (.isRobbed c pid status hin hreaped hunrecorded hpid)
    · cases h

theorem observe_effect (hs : Shared g) (hin : g.pending? t = some ⟨c, .observing⟩)
    (h : g.observe t c = some (g', e)) : StepEffect g a g' e := by
  unfold observe at h
  split at h
  · rename_i status hz
    have hbegun : g.phase ≠ .notStarted := hs.begun (by simp [hz])
    split at h
    · rename_i x hx
      cases h
      exact .waitsOn t _ _ (.observes c status x hin hz hx) (by simp [hin])
    · rename_i hunnamed
      obtain ⟨pid, hpid⟩ := hs.pid hbegun
      rw [hpid] at h
      cases h
      exact .answers t _ _ (.cannotTell c pid status hin hz hunnamed hpid)
  · rename_i status pid hreaped hpid
    cases h
    exact .answers t _ _ (.isLate c pid status hin hreaped hpid)
  · cases h

theorem openGate_effect (hin : g.pending? t = some ⟨.start, .releasing⟩)
    (h : g.openGate t = (g', e)) : StepEffect g a g' e := by
  have hreaders : g.gate.readers = g.life.gateReaders := rfl
  by_cases hdeserted : g.life.gateReaders = 0
  · have hwrite : g.gate.write [1] = .error .brokenPipe := by
      simp [Channel.write, hreaders, hdeserted]
    simp only [openGate, hwrite] at h
    cases h
    exact .releases t _ _ (.findsNobody hin hdeserted)
  · have hwrite : g.gate.write [1] = .ok (1, { g.gate with bytes := g.gateBytes ++ [1] }) := by
      simp [Channel.write, hdeserted, gate]
    simp only [openGate, hwrite] at h
    cases h
    exact .releases t _ _ (.opens hin hdeserted)

/-- A signal that reaches the child ends it, and it reaches the child unless that is reaped or the system
refuses the signal. -/
theorem send_cases (refusal : Option Errno) (hborn : g.life ≠ .absent) :
    ∃ life sent, g.send refusal = ({ g with life }, sent) ∧
      (g.life = life ∨ g.life.isLive = true ∧ life = .zombie (.killed Signal.kill.number)) ∧
      (sent = .ok () ∨ (∃ status, g.life = .reaped status) ∨
        ∃ errno, refusal = some errno ∧ sent = .error errno) := by
  cases refusal with
  | some errno => exact ⟨g.life, _, rfl, .inl rfl, .inr (.inr ⟨errno, rfl, rfl⟩)⟩
  | none =>
    simp only [send]
    cases hl : g.life with
    | absent => exact absurd hl hborn
    | zombie status => exact ⟨g.life, _, rfl, .inl hl.symm, .inl rfl⟩
    | reaped status => exact ⟨g.life, _, rfl, .inl hl.symm, .inr (.inl ⟨status, rfl⟩)⟩
    | forked | gated | released | running | refused =>
      exact ⟨_, _, rfl, .inr ⟨rfl, rfl⟩, .inl rfl⟩

/-- Whoever is about to send a signal has found the child. -/
theorem Shared.signaled_born (hs : Shared g) (hin : g.pending? t = some ⟨.kill, .signaling⟩) :
    g.life ≠ .absent := by
  have hkilled : g.phase = .killed := hs.inside t _ hin
  intro hl
  simp [hs.absent.mp hl] at hkilled

theorem signal_effect {refusal : Option Errno} (hs : Shared g)
    (hin : g.pending? t = some ⟨.kill, .signaling⟩)
    (ha : ∀ errno, refusal = some errno → a = .refuse t errno)
    (h : g.signal t refusal = (g', e)) : StepEffect g a g' e := by
  obtain ⟨life, sent, hsend, hhit, hsent⟩ := send_cases refusal (hs.signaled_born hin)
  have hsends : sent = .ok () ∨ (∃ status, g.life = .reaped status) ∨
      ∃ errno, a = .refuse t errno ∧ sent = .error errno :=
    hsent.imp_right (.imp_right fun ⟨errno, hr, he⟩ => ⟨errno, ha errno hr, he⟩)
  simp only [signal, hsend] at h
  cases sent with
  | ok u =>
    cases h
    exact .signals t life (.ok ()) _ hin hhit hsends (.inl rfl)
  | error errno =>
    cases h
    exact .signals t life (.error errno) _ hin hhit hsends (.inr ⟨_, errno, rfl, rfl⟩)

theorem refuse_effect {errno : Errno} (hs : Shared g)
    (h : g.step (.refuse t errno) = some (g', e)) :
    StepEffect g (.refuse t errno) g' e := by
  simp only [step, refuse] at h
  split at h
  · rename_i c hin
    obtain rfl : c = .kill := (hs.inside t _ hin).call
    refine signal_effect hs hin ?_ (Option.some.inj h)
    rintro _ ⟨⟩
    rfl
  · cases h

theorem receive_effect {count : Nat} (hs : Shared g) (h : g.receive t count = some (g', e)) :
    StepEffect g a g' e := by
  unfold receive at h
  split at h
  · rename_i c bytes hp
    obtain rfl : c = .start := (hs.inside t _ hp).call
    split at h
    · cases h
    · rename_i hflows
      simp only [not_or, Bool.not_eq_true] at hflows
      obtain ⟨hflows, hcount⟩ := hflows
      generalize hsize : min count (reportSize - bytes.length) = size at h
      have hsent : g.reportBytes = g.reportBytes.take size ++ g.reportBytes.drop size :=
        (List.take_append_drop _ _).symm
      have hread : g.report.read size =
          (g.reportBytes.take size, { g.report with bytes := g.reportBytes.drop size }) := rfl
      rw [hread] at h
      generalize hchunk : g.reportBytes.take size = chunk at h hsent
      simp only at h
      split at h
      · rename_i hfull
        cases h
        exact .releases t _ _ (.isTold bytes _ _ hp hsent hfull)
      · rename_i hshort
        split at h
        · rename_i hnone
          subst hnone
          rw [List.nil_append] at hsent
          rw [← hsent] at h
          cases h
          refine .releases t _ _ (.hearsEnd bytes hp hflows ?_)
          intro hmore
          rcases List.take_eq_nil_iff.mp hchunk with hzero | hempty
          · omega
          · exact hempty
        · rename_i hsome
          cases h
          refine .releases t _ _ (.reads bytes _ _ hp hsent hsome ?_ hshort)
          rw [← hchunk, List.length_take]
          omega
  · cases h

/-- A thread that finds the latch unset falls asleep by its bell. -/
theorem approach_effect {l : Latch} {le : List Latch.Entry}
    (hin : g.pending? t = some ⟨.await, .approaching⟩)
    (h : g.latch.step (.wait t false) = some (l, le)) :
    StepEffect g a ({ g with latch := l }.afterLatch le t) [] := by
  simp only [Latch.step, Latch.pass, Option.some.injEq] at h
  split at h
  · rename_i hset
    cases h
    exact .latches _ (.slips t hin hset)
  · rename_i hunset
    cases h
    exact .latches _ (.sleeps t hin (by simpa using hunset))

theorem advance_effect (hs : Shared g) (h : g.advance t = some (g', e)) : StepEffect g a g' e := by
  unfold advance at h
  split at h
  · cases h
  · rename_i c s hin
    have hcall := (hs.inside t _ hin).call
    cases s with
    | notifying =>
      obtain ⟨⟨l, le⟩, hl, he⟩ := Option.map_eq_some_iff.mp h
      cases he
      cases hl
      rcases hcall with rfl | rfl
      · exact .latches _ (.notifies t _ _ hin (.inl ⟨rfl, rfl⟩))
      · exact .latches _ (.notifies t _ _ hin (.inr ⟨rfl, rfl⟩))
    | releasing =>
      obtain rfl : c = .start := hcall
      exact openGate_effect hin (Option.some.inj h)
    | closing =>
      obtain rfl : c = .start := hcall
      cases h
      exact .releases t _ _ (.closes hin)
    | reading bytes => cases h
    | signaling =>
      obtain rfl : c = .kill := hcall
      exact signal_effect hs hin (by simp) (Option.some.inj h)
    | observing => exact observe_effect hs hin h
    | reaping =>
      simp only at h
      split at h
      · rename_i hfree
        exact reap_effect hs hin hfree h
      · cases h
    | checking =>
      obtain rfl : c = .await := hcall
      simp only at h
      split at h
      · exact check_effect hin (Option.some.inj h)
      · cases h
    | approaching =>
      obtain rfl : c = .await := hcall
      obtain ⟨⟨l, le⟩, hl, he⟩ := Option.map_eq_some_iff.mp h
      cases he
      exact approach_effect hin hl
    | asleep => cases h
    | past =>
      obtain rfl : c = .await := hcall
      simp only at h
      split at h
      · exact look_effect hs hin (Option.some.inj h)
      · cases h
    | asking =>
      obtain rfl : c = .await := hcall
      simp only at h
      split at h
      · exact ask_effect hs hin (Option.some.inj h)
      · cases h

theorem bell_effect {b : Bell.Action} (h : g.step (.bell b) = some (g', e)) :
    StepEffect g a g' e := by
  obtain ⟨⟨l, le⟩, hl, he⟩ := Option.map_eq_some_iff.mp h
  cases he
  obtain ⟨bell, hb, he⟩ := Option.map_eq_some_iff.mp hl
  cases he
  exact .latches _ (.rings b bell hb)

/-- A thread that runs again passes the latch or goes back to sleep. -/
theorem resume_effect {k : Nat} (h : g.step (.resume k) = some (g', e)) : StepEffect g a g' e := by
  obtain ⟨⟨l, le⟩, hl, he⟩ := Option.map_eq_some_iff.mp h
  cases he
  obtain ⟨⟨r, bell⟩, hr, he⟩ := Option.map_eq_some_iff.mp hl
  simp only [Latch.pass] at he
  split at he
  · rename_i hset
    cases he
    exact .latches _ (.wakes k r bell hr hset)
  · rename_i hunset
    have hclosed : g.latch.isSet = false := by simpa using hunset
    split at he
    · rename_i hlate
      cases he
      exact .latches _ (.leaves k r bell hr hclosed hlate)
    · rename_i hnoTimeouts
      cases he
      exact .latches _ (.turns k r bell hr hclosed (by simpa using hnoTimeouts))

theorem move_moveEffect {m : Child.Move} (h : g.move m = some (g', e)) : MoveEffect g m g' e := by
  unfold move at h
  split at h
  · rename_i hlife
    cases h
    exact .settles hlife
  · rename_i hlife
    split at h
    · cases h
    · rename_i hflows
      cases hbytes : g.gateBytes with
      | nil =>
        have hread : g.gate.read 1 = ([], g.gate) := by simp [Channel.read, gate, hbytes]
        have hshut : g.gateOpen = false := by
          simpa [gate, Channel.blocks, hbytes, hlife, Life.gateWriters] using hflows
        simp only [hread] at h
        cases h
        exact .findsGateShut hlife hbytes hshut
      | cons byte rest =>
        have hread : g.gate.read 1 = ([byte], { g.gate with bytes := rest }) := by
          simp [Channel.read, gate, hbytes]
        simp only [hread] at h
        cases h
        exact .passes byte rest hlife hbytes
  · rename_i hlife
    cases h
    exact .executes hlife
  · rename_i errno hlife
    cases h
    exact .isRefused errno hlife
  · rename_i unsent hlife
    split at h
    · cases h
    · rename_i hsome
      cases hheard : g.reportOpen with
      | true =>
        have hwrite : g.report.write unsent =
            .ok (unsent.length, { g.report with bytes := g.reportBytes ++ unsent }) := by
          simp [Channel.write, hsome, report, hheard]
        simp only [hwrite] at h
        cases h
        exact .reports unsent hlife hsome hheard
      | false =>
        have hwrite : g.report.write unsent = .error .brokenPipe := by
          simp [Channel.write, hsome, report, hheard, hlife, Life.reportReaders]
        simp only [hwrite] at h
        cases h
        exact .reportsToNobody unsent hlife hsome hheard
  · rename_i hlife
    cases h
    exact .givesUp hlife
  · rename_i status hlife
    cases h
    exact .exits status hlife
  · split at h
    · rename_i signal hlive
      cases h
      exact .dies signal hlive
    · cases h
  · split at h
    · cases h
    · rename_i hborn
      cases h
      exact .follows _ hborn
  · cases h

theorem step_effect (hs : Shared g) (h : g.step a = some (g', e)) : StepEffect g a g' e := by
  cases a with
  | call t c => exact begin_effect hs h
  | advance t => exact advance_effect hs h
  | receive t count => exact receive_effect hs h
  | refuse t errno => exact refuse_effect hs h
  | bell b => exact bell_effect h
  | resume k => exact resume_effect h
  | child m => exact .moves m g' e rfl (move_moveEffect h)
  | seize =>
    simp only [step] at h
    split at h
    · rename_i status hlife
      cases h
      exact .seizes status rfl hlife
    · cases h

end Gated

end Corun.Child
