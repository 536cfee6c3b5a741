import Corun.Proofs.Child.Tended

namespace Corun.Child.Gated
open Os Sync

variable {g g' : Gated} {t owner : Nat} {c : Call} {s : Stage} {e : List Entry}

/-- All that one step of such a call can do. -/
inductive OwnerStep (owner : Nat) (g : Gated) : Call → Gated → List Entry → Prop where
  | refuses (hasGate gateOpen : Bool) (f : Failure) (idle : g.pending? owner = none) :
    OwnerStep owner g .start ({ g with hasGate, gateOpen }.back owner .start (.error (.failed f))).1
      [.returned owner .start (.error (.failed f))]
  | starts (idle : g.pending? owner = none) (gated : g.phase = .ready) :
    OwnerStep owner g .start
      ({ g with phase := .running, hasGate := false, hasReport := false, holder := some owner }.place
        owner .start .notifying) []
  | kills (idle : g.pending? owner = none) (left : g.phase = .ready ∨ g.phase = .running) :
    OwnerStep owner g .kill
      ({ g with phase := .killed, holder := some owner }.place owner .kill .notifying)
      []
  | spares (idle : g.pending? owner = none) (ended : g.phase = .killed ∨ g.phase = .terminated) :
    OwnerStep owner g .kill (g.back owner .kill (.ok .done)).1 [.returned owner .kill (.ok .done)]
  | notifies (c : Call) (next : Stage) (l : Latch) (inside : g.pending? owner = some ⟨c, .notifying⟩)
      (leads : c = .start ∧ next = .releasing ∨ c = .kill ∧ next = .signaling)
      (same : l.bell.threads = g.latch.bell.threads) :
    OwnerStep owner g c ({ g with latch := l }.place owner c next) []
  | releases (gateBytes : List UInt8) (inside : g.pending? owner = some ⟨.start, .releasing⟩) :
    OwnerStep owner g .start ({ g with gateBytes }.place owner .start .closing) [.released]
  | breaks (f : Failure) (inside : g.pending? owner = some ⟨.start, .releasing⟩) :
    OwnerStep owner g .start (g.endStart owner (.error (.failed f))).1
      [.returned owner .start (.error (.failed f))]
  | closes (inside : g.pending? owner = some ⟨.start, .closing⟩) :
    OwnerStep owner g .start ({ g with gateOpen := false }.place owner .start (.reading [])) []
  | reads (bytes more reportBytes : List UInt8)
      (inside : g.pending? owner = some ⟨.start, .reading bytes⟩) :
    OwnerStep owner g .start ({ g with reportBytes }.place owner .start (.reading more)) []
  | learns (bytes reportBytes : List UInt8) (r : Result Answer)
      (inside : g.pending? owner = some ⟨.start, .reading bytes⟩)
      (heard : r = .ok .done ∨ ∃ f, r = .error (.failed f)) :
    OwnerStep owner g .start (Gated.endStart owner r { g with reportBytes }).1
      [.returned owner .start r]
  | signals (life : Life) (inside : g.pending? owner = some ⟨.kill, .signaling⟩)
      (hit : g.life = life ∧ (∃ status, life = .zombie status) ∨
        g.life.isLive = true ∧ life = .zombie (.killed Signal.kill.number)) :
    OwnerStep owner g .kill ({ g with life }.back owner .kill (.ok .done)).1
      [.signaled g.killMode (.ok ()), .returned owner .kill (.ok .done)]
  | waits (idle : g.pending? owner = none) (killed : g.phase = .killed) :
    OwnerStep owner g .wait (g.place owner .wait .observing) []
  | observes (status : WaitStatus) (ending : Termination)
      (inside : g.pending? owner = some ⟨.wait, .observing⟩) (ended : g.life = .zombie status)
      (named : Termination.ofStatus? status = some ending) :
    OwnerStep owner g .wait (g.place owner .wait .reaping) []
  | cannotTell (status : WaitStatus) (f : Failure)
      (inside : g.pending? owner = some ⟨.wait, .observing⟩) (ended : g.life = .zombie status)
      (unnamed : Termination.ofStatus? status = none) :
    OwnerStep owner g .wait (g.back owner .wait (.error (.failed f))).1
      [.returned owner .wait (.error (.failed f))]
  | isLate (r : Result Answer) (inside : ∃ s, g.pending? owner = some ⟨.wait, s⟩)
      (reaped : g.phase = .terminated) :
    OwnerStep owner g .wait (g.back owner .wait r).1 [.returned owner .wait r]
  | reaps (status : WaitStatus) (ending : Termination)
      (inside : g.pending? owner = some ⟨.wait, .reaping⟩) (free : g.holder = none)
      (ended : g.life = .zombie status) (named : Termination.ofStatus? status = some ending) :
    OwnerStep owner g .wait
      (Gated.back owner .wait (.ok (.ended ending))
        { g with life := .reaped status, termination? := some ending, phase := .terminated }).1
      [.reaped status, .returned owner .wait (.ok (.ended ending))]

theorem start_ownerStep (ht : Tended owner g) (hidle : g.pending? owner = none)
    (h : g.start owner = (g', e)) : OwnerStep owner g .start g' e := by
  have hnamed : g.pid? ≠ none := by
    obtain ⟨pid, hpid⟩ := ht.named
    simp [hpid]
  unfold start at h
  split at h
  · cases h
    exact .refuses g.hasGate g.gateOpen _ hidle
  · rename_i hphase
    split at h
    · cases h
      exact .refuses g.hasGate g.gateOpen _ hidle
    · split at h
      · cases h
        exact .refuses false false _ hidle
      · cases h
        exact .starts hidle (by simpa using hphase)

theorem kill_ownerStep (ht : Tended owner g) (hidle : g.pending? owner = none)
    (h : g.kill owner = (g', e)) : OwnerStep owner g .kill g' e := by
  have hnamed : g.pid? ≠ none := by
    obtain ⟨pid, hpid⟩ := ht.named
    simp [hpid]
  unfold kill at h
  split at h
  · rename_i hphase
    rw [if_neg hnamed] at h
    cases h
    exact .kills hidle (.inl hphase)
  · rename_i hphase
    rw [if_neg hnamed] at h
    cases h
    exact .kills hidle (.inr hphase)
  · rename_i hphase
    cases h
    exact .spares hidle (.inl hphase)
  · rename_i hphase
    cases h
    exact .spares hidle (.inr hphase)
  · rename_i hphase
    exact absurd hphase ht.begun

theorem wait_ownerStep (ht : Tended owner g) (hidle : g.pending? owner = none)
    (hkilled : g.phase = .killed)
    (h : g.wait owner .wait = (g', e)) : OwnerStep owner g .wait g' e := by
  obtain ⟨pid, hpid⟩ := ht.named
  simp only [wait, hkilled, hpid, reduceCtorEq, if_false] at h
  cases h
  exact .waits hidle hkilled

theorem begin_ownerStep (ht : Tended owner g) (hc : c.holds = true ∨ c = .wait ∧ g.phase = .killed)
    (h : g.begin owner c = some (g', e)) : OwnerStep owner g c g' e := by
  unfold begin at h
  split at h
  · cases h
  · rename_i hidle
    have hidle : g.pending? owner = none := by simpa using hidle
    cases c with
    | start | kill | wait =>
      simp only at h
      split at h
      · cases h
      · first
        | exact start_ownerStep ht hidle (Option.some.inj h)
        | exact kill_ownerStep ht hidle (Option.some.inj h)
        | exact wait_ownerStep ht hidle (by simpa [Call.holds] using hc) (Option.some.inj h)
    | create | await | pid | status => simp [Call.holds] at hc

theorem openGate_ownerStep (hp : g.pending? owner = some ⟨.start, .releasing⟩)
    (h : g.openGate owner = (g', e)) : OwnerStep owner g .start g' e := by
  unfold openGate at h
  split at h
  · cases h
    exact .releases _ hp
  · cases h
    exact .breaks _ hp

/-- The signal reaches the child, which is not reaped while its owner holds the lock. -/
theorem signal_ownerStep (ht : Tended owner g) (hp : g.pending? owner = some ⟨.kill, .signaling⟩)
    (h : g.signal owner none = (g', e)) : OwnerStep owner g .kill g' e := by
  have hkilled : g.phase = .killed := ht.owned _ hp
  cases hlife : g.life with
  | absent => exact absurd hlife ht.alive
  | reaped status =>
    have hterminated := ht.reaped.mpr ⟨status, hlife⟩
    rw [hkilled] at hterminated
    cases hterminated
  | zombie status =>
    simp only [signal, send, hlife] at h
    cases h
    exact .signals _ hp (.inl ⟨rfl, status, hlife⟩)
  | forked | gated | released | running | refused unsent =>
    simp only [signal, send, hlife] at h
    cases h
    exact .signals _ hp (.inr ⟨by rw [hlife]; rfl, rfl⟩)

theorem observe_ownerStep (ht : Tended owner g) (hp : g.pending? owner = some ⟨.wait, .observing⟩)
    (h : g.observe owner .wait = some (g', e)) : OwnerStep owner g .wait g' e := by
  obtain ⟨status, ending, hlife, hending, rfl, rfl⟩ | ⟨status, f, hlife, hending, rfl, rfl⟩ |
    ⟨f, hterminated, rfl, rfl⟩ := ht.observe_cases h
  · exact .observes status ending hp hlife hending
  · exact .cannotTell status f hp hlife hending
  · exact .isLate _ ⟨_, hp⟩ hterminated

theorem reap_ownerStep (ht : Tended owner g) (hp : g.pending? owner = some ⟨.wait, .reaping⟩)
    (hfree : g.holder = none) (h : g.reap owner .wait = some (g', e)) :
    OwnerStep owner g .wait g' e := by
  obtain ⟨ending, hterminated, -, rfl, rfl⟩ | ⟨status, ending, hlife, hending, rfl, rfl⟩ :=
    ht.reap_cases hp h
  · exact .isLate _ ⟨_, hp⟩ hterminated
  · exact .reaps status ending hp hfree hlife hending

theorem advance_ownerStep (ht : Tended owner g) (hp : g.pending? owner = some ⟨c, s⟩)
    (h : g.advance owner = some (g', e)) : OwnerStep owner g c g' e := by
  have howned := ht.owned _ hp
  simp only [advance, hp] at h
  cases s with
  | notifying =>
    obtain ⟨⟨l, le⟩, hl, he⟩ := Option.map_eq_some_iff.mp h
    cases hl
    cases he
    cases c with
    | start => exact .notifies .start _ _ hp (.inl ⟨rfl, rfl⟩) rfl
    | kill => exact .notifies .kill _ _ hp (.inr ⟨rfl, rfl⟩) rfl
    | create | wait | await | pid | status => exact howned.elim
  | releasing =>
    cases c with
    | start => exact openGate_ownerStep hp (Option.some.inj h)
    | create | kill | wait | await | pid | status => exact howned.elim
  | closing =>
    cases c with
    | start =>
      cases h
      exact .closes hp
    | create | kill | wait | await | pid | status => exact howned.elim
  | reading bytes => cases h
  | signaling =>
    cases c with
    | kill => exact signal_ownerStep ht hp (Option.some.inj h)
    | create | start | wait | await | pid | status => exact howned.elim
  | observing =>
    cases c with
    | wait => exact observe_ownerStep ht hp h
    | create | start | kill | await | pid | status => exact howned.elim
  | reaping =>
    cases c with
    | wait =>
      simp only at h
      split at h
      · rename_i hfree
        exact reap_ownerStep ht hp hfree h
      · cases h
    | create | start | kill | await | pid | status => exact howned.elim
  | checking | approaching | asleep | past | asking => cases c <;> exact howned.elim

theorem receive_ownerStep {count : Nat} {bytes : List UInt8} (ht : Tended owner g)
    (hp : g.pending? owner = some ⟨c, .reading bytes⟩)
    (h : g.receive owner count = some (g', e)) : OwnerStep owner g c g' e := by
  have howned := ht.owned _ hp
  cases c with
  | create | kill | wait | await | pid | status => exact howned.elim
  | start =>
    simp only [receive, hp] at h
    split at h
    · cases h
    · split at h
      · cases h
        exact .learns bytes _ _ hp (.inr ⟨_, rfl⟩)
      · split at h
        · cases h
          exact .learns bytes _ _ hp (.inl rfl)
        · cases h
          exact .reads bytes _ _ hp

theorem Tended.endStart (ht : Tended owner g) (r : Result Answer) :
    Tended owner (g.endStart owner r).1 :=
  (ht.channels g.hasGate g.hasReport false false g.gateBytes g.reportBytes).back owner .start r

theorem OwnerStep.tended (ht : Tended owner g) (h : OwnerStep owner g c g' e) :
    Tended owner g' := by
  cases h with
  | refuses hasGate gateOpen f idle =>
    exact (ht.channels hasGate g.hasReport gateOpen g.reportOpen g.gateBytes g.reportBytes).back ..
  | starts idle gated =>
    have hleft : Tended owner { g with phase := .running, holder := some owner } :=
      ht.left idle (by simp [gated]) (.inl rfl)
    exact (hleft.channels false false g.gateOpen g.reportOpen g.gateBytes g.reportBytes).place
      (absurd rfl) (fun _ => ⟨trivial, fun _ => rfl⟩) (by simp)
  | kills idle left =>
    have hleft : Tended owner { g with phase := .killed, holder := some owner } :=
      ht.left idle (by rcases left with h | h <;> simp [h]) (.inr rfl)
    exact hleft.place (absurd rfl) (fun _ => ⟨rfl, fun _ => rfl⟩) (by simp)
  | spares idle ended => exact ht.back ..
  | notifies _ next l inside leads same =>
    have hl : Tended owner { g with latch := l } :=
      ht.latched fun u hu => ht.sleeping u (same ▸ hu)
    have hheld := ht.held _ inside
    have howned := ht.owned _ inside
    obtain ⟨rfl, rfl⟩ | ⟨rfl, rfl⟩ := leads
    · exact hl.place (absurd rfl) (fun _ => ⟨trivial, hheld⟩) (by simp)
    · exact hl.place (absurd rfl) (fun _ => ⟨howned, hheld⟩) (by simp)
  | releases gateBytes inside =>
    exact (ht.channels g.hasGate g.hasReport g.gateOpen g.reportOpen gateBytes g.reportBytes).place
      (absurd rfl) (fun _ => ⟨trivial, ht.held _ inside⟩) (by simp)
  | breaks f inside => exact ht.endStart _
  | closes inside =>
    exact (ht.channels g.hasGate g.hasReport false g.reportOpen g.gateBytes g.reportBytes).place
      (absurd rfl) (fun _ => ⟨trivial, ht.held _ inside⟩) (by simp)
  | reads bytes more reportBytes inside =>
    exact (ht.channels g.hasGate g.hasReport g.gateOpen g.reportOpen g.gateBytes reportBytes).place
      (absurd rfl) (fun _ => ⟨trivial, ht.held _ inside⟩) (by simp)
  | learns bytes reportBytes r inside heard =>
    exact (ht.channels g.hasGate g.hasReport g.gateOpen g.reportOpen g.gateBytes
      reportBytes).endStart r
  | signals life inside hit =>
    obtain ⟨rfl, -⟩ | ⟨hlive, rfl⟩ := hit
    · exact ht.back ..
    · have hdead : Tended owner { g with life := .zombie (.killed Signal.kill.number) } :=
        ht.live hlive (.inr ⟨_, rfl⟩)
      exact hdead.back ..
  | waits idle killed =>
    exact ht.place (absurd rfl) (fun _ => ⟨.inl killed, by simp [Call.holds]⟩) (by simp)
  | observes status ending inside ended named =>
    have howned : g.phase = .killed ∨ g.phase = .terminated := ht.owned _ inside
    exact ht.place (absurd rfl) (fun _ => ⟨howned, by simp [Call.holds]⟩)
      fun _ => ⟨status, ending, .inl ended, named⟩
  | cannotTell status f inside ended unnamed => exact ht.back ..
  | isLate r inside reaped => exact ht.back ..
  | reaps status ending inside free ended named => exact (ht.reap named free).back ..

theorem OwnerStep.later (h : OwnerStep owner g c g' e) : Later g g' := by
  cases h with
  | signals life inside hit =>
    obtain ⟨rfl, -⟩ | ⟨hlive, rfl⟩ := hit
    · exact .ofLife rfl rfl rfl
    · exact .live rfl rfl hlive
  | reaps status ending inside free ended named => exact .reap rfl rfl ended rfl
  | refuses | starts | kills | spares | notifies | releases | breaks | closes | reads | learns
  | waits | observes | cannotTell | isLate => exact .ofLife rfl rfl rfl

/-- A call goes on or comes back, and nobody else's does. -/
structure CallProgress (owner : Nat) (c : Call) (g g' : Gated) (e : List Entry) : Prop where
  own : (∃ s, g'.pending? owner = some ⟨c, s⟩) ∧ returned? owner e = none ∨
    g'.pending? owner = none ∧ ∃ r, returned? owner e = some r
  others : ∀ t, t ≠ owner → g'.pending? t = g.pending? t ∧ returned? t e = none

theorem CallProgress.place (hc : g'.calls = g.calls) (he : ∀ t, returned? t e = none) :
    CallProgress owner c g (g'.place owner c s) e := by
  refine ⟨.inl ⟨⟨s, by simp⟩, he owner⟩, ?_⟩
  intro t ht
  refine ⟨?_, he t⟩
  rw [pending?_place, if_neg ht, pending?, pending?, hc]

theorem CallProgress.back {r : Result Answer} (hc : g'.calls = g.calls)
    (he : ∀ t, returned? t e = if owner = t then some r else none) :
    CallProgress owner c g (g'.back owner c r).1 e := by
  refine ⟨.inr ⟨by simp, r, by simp [he]⟩, ?_⟩
  intro t ht
  refine ⟨?_, by simp [he, Ne.symm ht]⟩
  rw [pending?_back, if_neg ht, pending?, pending?, hc]

theorem OwnerStep.callProgress (h : OwnerStep owner g c g' e) : CallProgress owner c g g' e := by
  cases h with
  | starts | kills | notifies | closes | reads | waits | observes => exact .place rfl fun _ => rfl
  | releases => exact .place rfl fun _ => rfl
  | refuses | spares | breaks | learns | cannotTell | isLate =>
    exact .back rfl fun t => returned?_returned owner t _ _
  | signals | reaps =>
    refine .back rfl fun t => ?_
    rw [returned?_cons, returned?_returned]
    rfl

/-- The child is reaped, or was killed and has died of a signal that has no name. -/
structure Disposed (g : Gated) : Prop where
  left : g.phase = .killed ∨ g.phase = .terminated
  ended : (∃ status, g.life = .reaped status) ∨
    ∃ n, g.life = .zombie (.killed n) ∧ Signal.ofNumber? n = none

theorem Disposed.later (hg : g.Disposed) (ht : Tended owner g') (hl : Later g g')
    (hp : g'.phase = .killed ∨ g'.phase = .terminated) : g'.Disposed := by
  refine ⟨hp, ?_⟩
  obtain ⟨status, hlife⟩ | ⟨n, hlife, hn⟩ := hg.ended
  · exact .inl ⟨status, hl.reaped status hlife⟩
  · rcases hl.zombie _ hlife with h | h
    · exact .inr ⟨n, h, hn⟩
    · obtain ⟨ending, he, -⟩ := ht.told _ h
      simp [Termination.ofStatus?, hn] at he

theorem Tended.disposed (ht : Tended owner g) (h : g.phase = .terminated) : g.Disposed :=
  ⟨.inr h, .inl (ht.reaped.mp h)⟩

/-- Nobody starts a child that was killed. -/
theorem OwnerStep.left (h : OwnerStep owner g c g' e)
    (hp : g.phase = .killed ∨ g.phase = .terminated) :
    g'.phase = .killed ∨ g'.phase = .terminated := by
  cases h with
  | starts _ gated => simp [gated] at hp
  | kills => exact .inl rfl
  | reaps => exact .inr rfl
  | refuses | spares | notifies | releases | breaks | closes | reads | learns | signals | waits
  | observes | cannotTell | isLate => exact hp

theorem OwnerStep.stays_disposed (ht : Tended owner g) (h : OwnerStep owner g c g' e)
    (hg : g.Disposed) : g'.Disposed :=
  hg.later (h.tended ht) h.later (h.left hg.left)

theorem BackgroundStep.stays_disposed (h : BackgroundStep owner g g' e) (hg : g.Disposed) :
    g'.Disposed := by
  refine hg.later h.tended h.later ?_
  rcases h.phase with hphase | ⟨-, -, hphase⟩
  · exact hphase ▸ hg.left
  · exact .inr hphase

theorem unnamed_iff {status : WaitStatus} (h : Termination.ofStatus? status = none) :
    ∃ n, status = .killed n ∧ Signal.ofNumber? n = none := by
  cases status with
  | exited code => cases h
  | killed n => exact ⟨n, rfl, by simpa [Termination.ofStatus?] using h⟩

/-- Nobody waits for a killed child in vain. -/
theorem OwnerStep.disposed (ht : Tended owner g) (h : OwnerStep owner g .wait g' e)
    (hr : (returned? owner e).isSome) : g'.Disposed := by
  have hlate := h.tended ht
  cases h with
  | waits | observes => cases hr
  | cannotTell status f inside ended unnamed =>
    obtain ⟨n, rfl, hn⟩ := unnamed_iff unnamed
    exact ⟨ht.owned _ inside, .inr ⟨n, ended, hn⟩⟩
  | isLate r inside reaped => exact hlate.disposed reaped
  | reaps status ending => exact hlate.disposed rfl
  | notifies _ _ _ _ leads => simp at leads

/-- A child that left its gate was started or killed by its owner, and told so. -/
def DepartureTold (owner : Nat) (seen : List Entry) (g : Gated) : Prop :=
  match g.phase with
  | .notStarted | .ready => True
  | .running => (∃ r, .returned owner .start r ∈ seen) ∨ ∃ s, g.pending? owner = some ⟨.start, s⟩
  | .killed => .signaled g.killMode (.ok ()) ∈ seen ∨ ∃ s, g.pending? owner = some ⟨.kill, s⟩
  | .terminated => .signaled g.killMode (.ok ()) ∈ seen ∨ ∃ r, .returned owner .start r ∈ seen

variable {seen : List Entry}

/-- In the same phase only a start or a kill that comes back has to be seen. -/
theorem DepartureTold.stays (hs : g.DepartureTold owner seen) (hphase : g'.phase = g.phase)
    (hmode : g'.killMode = g.killMode)
    (hstart : ∀ s, g.pending? owner = some ⟨.start, s⟩ →
      (∃ s, g'.pending? owner = some ⟨.start, s⟩) ∨ ∃ r, .returned owner .start r ∈ e)
    (hkill : ∀ s, g.pending? owner = some ⟨.kill, s⟩ →
      (∃ s, g'.pending? owner = some ⟨.kill, s⟩) ∨ .signaled g.killMode (.ok ()) ∈ e) :
    g'.DepartureTold owner (seen ++ e) := by
  unfold DepartureTold at hs ⊢
  rw [hphase, hmode]
  cases hp : g.phase with
  | notStarted | ready => trivial
  | running =>
    simp only [hp] at hs ⊢
    obtain ⟨r, hr⟩ | ⟨s, hs⟩ := hs
    · exact .inl ⟨r, List.mem_append_left _ hr⟩
    · exact (hstart s hs).symm.imp_left fun ⟨r, hr⟩ => ⟨r, List.mem_append_right _ hr⟩
  | killed =>
    simp only [hp] at hs ⊢
    obtain hsent | ⟨s, hs⟩ := hs
    · exact .inl (List.mem_append_left _ hsent)
    · exact (hkill s hs).symm.imp_left (List.mem_append_right _)
  | terminated =>
    simp only [hp] at hs ⊢
    exact hs.imp (List.mem_append_left _) fun ⟨r, hr⟩ => ⟨r, List.mem_append_left _ hr⟩

theorem OwnerStep.departureTold (ht : Tended owner g) (h : OwnerStep owner g c g' e)
    (hs : g.DepartureTold owner seen) :
    g'.DepartureTold owner (seen ++ e) := by
  cases h with
  | starts idle gated => exact .inr ⟨.notifying, by simp⟩
  | kills idle left => exact .inr ⟨.notifying, by simp⟩
  | refuses _ _ _ idle | spares idle | waits idle =>
    exact hs.stays rfl rfl (fun s hp => by simp [idle] at hp) fun s hp => by simp [idle] at hp
  | notifies _ next l inside leads same =>
    refine hs.stays rfl rfl ?_ ?_ <;>
    · intro s hp
      cases inside.symm.trans hp
      exact .inl ⟨next, by simp⟩
  | releases _ inside | closes inside | reads _ _ _ inside =>
    exact hs.stays rfl rfl (fun s hp => .inl (by simp)) fun s hp => by simp [inside] at hp
  | breaks _ inside | learns _ _ _ inside =>
    exact hs.stays rfl rfl (fun s hp => .inr ⟨_, List.mem_singleton_self _⟩)
      fun s hp => by simp [inside] at hp
  | signals life inside hit =>
    exact hs.stays rfl rfl (fun s hp => by simp [inside] at hp) fun s hp => .inr (by simp)
  | observes _ _ inside | cannotTell _ _ inside =>
    exact hs.stays rfl rfl (fun s hp => by simp [inside] at hp) fun s hp => by simp [inside] at hp
  | isLate r inside reaped =>
    obtain ⟨s, inside⟩ := inside
    exact hs.stays rfl rfl (fun s hp => by simp [inside] at hp) fun s hp => by simp [inside] at hp
  | reaps status ending inside free ended named =>
    have howned : g.phase = .killed ∨ g.phase = .terminated := ht.owned _ inside
    have hsent : .signaled g.killMode (.ok ()) ∈ seen ∨ ∃ r, .returned owner .start r ∈ seen := by
      unfold DepartureTold at hs
      rcases howned with hp | hp
      · simpa [hp, inside] using Or.inl hs
      · simpa [hp] using hs
    exact hsent.imp (List.mem_append_left _) fun ⟨r, hr⟩ => ⟨r, List.mem_append_left _ hr⟩

theorem BackgroundStep.departureTold (ht : Tended owner g) (h : BackgroundStep owner g g' e)
    (hs : g.DepartureTold owner seen) :
    g'.DepartureTold owner (seen ++ e) := by
  rcases h.phase with hphase | ⟨hfree, hready, hphase⟩
  · refine hs.stays hphase h.later.mode ?_ ?_ <;>
    · intro s hp
      exact .inl ⟨s, h.owned.trans hp⟩
  · have hidle : ∀ c s, c.holds = true → g.pending? owner ≠ some ⟨c, s⟩ := by
      intro c s hc hp
      have hheld := ht.held _ hp hc
      rw [hfree] at hheld
      cases hheld
    unfold DepartureTold at hs ⊢
    rw [hphase, h.later.mode]
    cases hp : g.phase with
    | notStarted => exact absurd hp ht.begun
    | ready => exact absurd hp hready
    | running =>
      simp only [hp] at hs ⊢
      obtain ⟨r, hr⟩ | ⟨s, hs⟩ := hs
      · exact .inr ⟨r, List.mem_append_left _ hr⟩
      · exact absurd hs (hidle .start s rfl)
    | killed =>
      simp only [hp] at hs ⊢
      obtain hsent | ⟨s, hs⟩ := hs
      · exact .inl (List.mem_append_left _ hsent)
      · exact absurd hs (hidle .kill s rfl)
    | terminated =>
      simp only [hp] at hs ⊢
      exact hs.imp (List.mem_append_left _) fun ⟨r, hr⟩ => ⟨r, List.mem_append_left _ hr⟩

/-- The gate is written to before start comes back with success. -/
structure GateOpened (owner : Nat) (seen : List Entry) (g : Gated) : Prop where
  inside : ∀ s, g.pending? owner = some ⟨.start, s⟩ → s = .closing ∨ (∃ bytes, s = .reading bytes) →
    .released ∈ seen
  after : .returned owner .start (.ok .done) ∈ seen → .released ∈ seen

/-- A step after which the owner is not inside of start at the gate. -/
theorem GateOpened.stays (ho : g.GateOpened owner seen)
    (hin : ∀ s, g'.pending? owner = some ⟨.start, s⟩ → s = .closing ∨ (∃ bytes, s = .reading bytes) →
      .released ∈ seen ++ e)
    (he : .returned owner .start (.ok .done) ∈ e → .released ∈ seen) :
    g'.GateOpened owner (seen ++ e) := by
  refine ⟨hin, ?_⟩
  intro hr
  rcases List.mem_append.mp hr with hr | hr
  · exact List.mem_append_left _ (ho.after hr)
  · exact List.mem_append_left _ (he hr)

theorem OwnerStep.opened (h : OwnerStep owner g c g' e) (ho : g.GateOpened owner seen) :
    g'.GateOpened owner (seen ++ e) := by
  cases h with
  | refuses | spares | breaks | cannotTell | isLate | signals | reaps =>
    exact ho.stays (by simp [endStart]) (by simp)
  | starts | kills | waits | observes => exact ho.stays (by simp) (by simp)
  | notifies _ next l inside leads same =>
    refine ho.stays ?_ (by simp)
    obtain ⟨rfl, rfl⟩ | ⟨rfl, rfl⟩ := leads <;> simp
  | releases gateBytes inside => exact ho.stays (by simp) (by simp)
  | closes inside =>
    exact ho.stays (fun _ _ _ => List.mem_append_left _ (ho.inside _ inside (.inl rfl))) (by simp)
  | reads bytes more reportBytes inside =>
    exact ho.stays (fun _ _ _ => List.mem_append_left _ (ho.inside _ inside (.inr ⟨bytes, rfl⟩)))
      (by simp)
  | learns bytes reportBytes r inside heard =>
    exact ho.stays (by simp [endStart]) fun _ => ho.inside _ inside (.inr ⟨bytes, rfl⟩)

theorem BackgroundStep.opened (h : BackgroundStep owner g g' e) (ho : g.GateOpened owner seen) :
    g'.GateOpened owner (seen ++ e) := by
  refine ho.stays ?_ ?_
  · intro s hp hs
    exact List.mem_append_left _ (ho.inside s (h.owned.symm.trans hp) hs)
  · intro hr
    rcases h.shown _ hr with ⟨_, hx⟩ | ⟨_, hx⟩ | ⟨_, _, _, hx⟩ <;> cases hx

end Corun.Child.Gated
