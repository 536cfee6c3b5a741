import Corun.Proofs.Child.Effects

namespace Corun.Child.Gated
open Os Sync

variable {g g' : Gated} {t u : Nat} {c : Call} {s : Stage} {r : Result Answer} {a : Action}
  {e : List Entry}

/-- How a thread goes on inside of a call, or begins one, without touching the record. -/
inductive StageStep (g : Gated) (t : Nat) : Call → Stage → Prop where
  | awaits (idle : g.pending? t = none) : StageStep g t .await .checking
  | waits (idle : g.pending? t = none) (due : g.phase = .running ∨ g.phase = .killed) :
    StageStep g t .wait .observing
  | notifies (c : Call) (s : Stage) (inside : g.pending? t = some ⟨c, .notifying⟩)
      (leads : c = .start ∧ s = .releasing ∨ c = .kill ∧ s = .signaling) : StageStep g t c s
  | releases (inside : g.pending? t = some ⟨.start, .releasing⟩) : StageStep g t .start .closing
  | closes (inside : g.pending? t = some ⟨.start, .closing⟩) : StageStep g t .start (.reading [])
  | reads (bytes more : List UInt8) (inside : g.pending? t = some ⟨.start, .reading bytes⟩) :
    StageStep g t .start (.reading more)
  | observes (c : Call) (status : WaitStatus) (x : Termination)
      (inside : g.pending? t = some ⟨c, .observing⟩) (ended : g.life = .zombie status)
      (known : Termination.ofStatus? status = some x) : StageStep g t c .reaping
  | holdsBack (inside : g.pending? t = some ⟨.await, .checking⟩) (gated : g.phase = .ready) :
    StageStep g t .await .approaching
  | passes (inside : g.pending? t = some ⟨.await, .checking⟩)
      (due : g.phase = .running ∨ g.phase = .killed) : StageStep g t .await .past
  | finds (inside : g.pending? t = some ⟨.await, .checking⟩) (ended : g.phase = .terminated) :
    StageStep g t .await .asking
  | looks (inside : g.pending? t = some ⟨.await, .past⟩)
      (due : g.phase = .running ∨ g.phase = .killed) : StageStep g t .await .observing
  | sleeps (inside : g.pending? t = some ⟨.await, .approaching⟩) : StageStep g t .await .asleep
  | slips (inside : g.pending? t = some ⟨.await, .approaching⟩) : StageStep g t .await .checking
  | wakes (inside : g.pending? t = some ⟨.await, .asleep⟩) : StageStep g t .await .checking

/-- All that one step can do to a child that any threads share. -/
inductive Change (g : Gated) (a : Action) : Gated → List Entry → Prop where
  | stages (t : Nat) (c : Call) (s : Stage) (latch : Latch) (gateOpen : Bool)
      (gateBytes reportBytes : List UInt8) (e : List Entry) (leads : StageStep g t c s)
      (once : latch.bell.threads.Nodup)
      (sleepers : ∀ u ∈ latch.bell.threads, u ≠ t ∧ u ∈ g.latch.bell.threads ∨ u = t ∧ s = .asleep)
      (shown : e = [] ∨ e = [.released]) :
    Change g a ({ g with latch, gateOpen, gateBytes, reportBytes }.place t c s) e
  | answers (t : Nat) (c : Call) (r : Result Answer) (gives : Answers g t c r) :
    Change g a (g.back t c r).1 [.returned t c r]
  | creates (t : Nat) (pid : Pid) (idle : g.pending? t = none) (free : g.holder = none)
      (unborn : g.phase = .notStarted) :
    Change g a
      ({ g with
        phase := .ready, pid? := some pid, hasGate := true, hasReport := true
        gateBytes := [], gateOpen := true, reportBytes := [], reportOpen := true
        life := .forked }.back t (.create (.ok pid)) (.ok (.pid pid))).1
      [.returned t (.create (.ok pid)) (.ok (.pid pid))]
  | starts (t : Nat) (idle : g.pending? t = none) (free : g.holder = none) (gated : g.phase = .ready) :
    Change g a
      ({ g with phase := .running, hasGate := false, hasReport := false, holder := some t }.place
        t .start .notifying) []
  | endsStart (t : Nat) (r : Result Answer) (reportBytes : List UInt8)
      (inside : ∃ s, g.pending? t = some ⟨.start, s⟩)
      (gives : r = .ok .done ∨ ∃ f errno, r = .error (.failed f) ∧
        (f.cause = .system errno ∨ f.cause = .execFailed g.path errno)) :
    Change g a (Gated.endStart t r { g with reportBytes }).1 [.returned t .start r]
  | kills (t : Nat) (idle : g.pending? t = none) (free : g.holder = none)
      (alive : g.phase = .ready ∨ g.phase = .running) :
    Change g a ({ g with phase := .killed, holder := some t }.place t .kill .notifying) []
  | signals (t : Nat) (life : Life) (sent : Except Errno Unit) (r : Result Answer)
      (inside : g.pending? t = some ⟨.kill, .signaling⟩)
      (hit : g.life = life ∨ g.life.isLive = true ∧ life = .zombie (.killed Signal.kill.number))
      (sends : sent = .ok () ∨ (∃ status, g.life = .reaped status) ∨
        ∃ errno, a = .refuse t errno ∧ sent = .error errno)
      (gives : r = .ok .done ∨ ∃ f errno, r = .error (.failed f) ∧ f.cause = .system errno) :
    Change g a ({ g with life }.back t .kill r).1
      [.signaled g.killMode sent, .returned t .kill r]
  | reaps (t : Nat) (c : Call) (status : WaitStatus) (x : Termination)
      (inside : g.pending? t = some ⟨c, .reaping⟩) (free : g.holder = none)
      (ended : g.life = .zombie status) (known : Termination.ofStatus? status = some x) :
    Change g a
      (Gated.back t c (.ok (.ended x))
        { g with life := .reaped status, termination? := some x, phase := .terminated }).1
      [.reaped status, .returned t c (.ok (.ended x))]
  | lives (life : Life) (gateBytes reportBytes : List UInt8) (hasFollowers : Bool) (e : List Entry)
      (next : life = g.life ∨
        g.life.isLive = true ∧ (life.isLive = true ∨ ∃ status, life = .zombie status))
      (shown : ∀ x ∈ e, ∃ refusal, x = .executed refusal) :
    Change g a { g with life, gateBytes, reportBytes, hasFollowers } e
  | rings (latch : Latch) (once : latch.bell.threads.Nodup)
      (sleepers : ∀ u ∈ latch.bell.threads, u ∈ g.latch.bell.threads) :
    Change g a { g with latch } []
  | seizes (status : WaitStatus) (behind : a = .seize) (ended : g.life = .zombie status) :
    Change g a { g with life := .reaped status } [.reaped status]

/-- A thread that is awake is none of those that sleep by the bell. -/
theorem Shared.awake (hs : Shared g) (hawake : g.pending? t ≠ some ⟨.await, .asleep⟩) :
    ∀ u ∈ g.latch.bell.threads, u ≠ t := by
  rintro u hu rfl
  exact hawake (hs.sleeping u hu)

/-- A thread that goes on without touching the latch. -/
theorem StageStep.change (hs : Shared g) (hg : StageStep g t c s)
    (hawake : g.pending? t ≠ some ⟨.await, .asleep⟩) : Change g a (g.place t c s) [] := by
  refine .stages t c s g.latch g.gateOpen g.gateBytes g.reportBytes [] hg hs.once ?_ (.inl rfl)
  intro u hu
  exact .inl ⟨hs.awake hawake u hu, hu⟩

theorem WaitStep.stages (h : WaitStep g t c s) : StageStep g t c s := by
  cases h with
  | awaits idle => exact .awaits idle
  | waits idle due => exact .waits idle due
  | observes c status x inside ended known => exact .observes c status x inside ended known
  | holdsBack inside gated => exact .holdsBack inside gated
  | passes inside due => exact .passes inside due
  | finds inside ended => exact .finds inside ended
  | looks inside due => exact .looks inside due

theorem WaitStep.awake (h : WaitStep g t c s) : g.pending? t ≠ some ⟨.await, .asleep⟩ := by
  cases h with
  | awaits idle | waits idle => simp [idle]
  | observes _ _ _ inside | holdsBack inside | passes inside | finds inside | looks inside =>
    simp [inside]

theorem LatchStep.change (hs : Shared g) (h : LatchStep g g') : Change g a g' [] := by
  cases h with
  | notifies t c s inside leads =>
    refine .stages t c s ⟨true, g.latch.bell.announce⟩ g.gateOpen g.gateBytes g.reportBytes []
      (.notifies c s inside leads) hs.once ?_ (.inl rfl)
    intro u hu
    exact .inl ⟨hs.awake (by simp [inside]) u hu, hu⟩
  | slips t inside open_ =>
    refine .stages t _ _ ⟨false, g.latch.bell⟩ g.gateOpen g.gateBytes g.reportBytes []
      (.slips inside)
      hs.once ?_ (.inl rfl)
    intro u hu
    exact .inl ⟨hs.awake (by simp [inside]) u hu, hu⟩
  | sleeps t inside closed =>
    have hawake : ∀ u ∈ g.latch.bell.threads, u ≠ t := hs.awake (by simp [inside])
    have hperm := Bell.sleep_threads g.latch.bell t false
    have honce : (t :: g.latch.bell.threads).Nodup :=
      List.nodup_cons.mpr ⟨fun hm => hawake t hm rfl, hs.once⟩
    refine .stages t _ _
      ⟨g.latch.isSet, g.latch.bell.sleep t false⟩ g.gateOpen g.gateBytes g.reportBytes
      [] (.sleeps inside) (hperm.nodup_iff.mpr honce) ?_ (.inl rfl)
    intro u hu
    rcases List.mem_cons.mp (hperm.mem_iff.mp hu) with rfl | hu
    · exact .inr ⟨rfl, rfl⟩
    · exact .inl ⟨hawake u hu, hu⟩
  | rings b bell rung =>
    have hperm := Bell.step_threads rung
    exact .rings _ (hperm.nodup_iff.mpr hs.once) fun u hu => hperm.mem_iff.mp hu
  | wakes k riser bell risen open_ =>
    have hperm := Bell.rise_threads risen
    have honce : (riser.thread :: bell.threads).Nodup := hperm.nodup_iff.mpr hs.once
    have hasleep := hs.sleeping riser.thread (hperm.subset List.mem_cons_self)
    refine .stages riser.thread .await .checking ⟨false, bell⟩ g.gateOpen g.gateBytes g.reportBytes
      []
      (.wakes hasleep) (List.nodup_cons.mp honce).2 ?_ (.inl rfl)
    intro u hu
    refine .inl ⟨?_, hperm.subset (List.mem_cons_of_mem _ hu)⟩
    rintro rfl
    exact (List.nodup_cons.mp honce).1 hu
  | turns k riser bell risen =>
    have hperm := Bell.rise_threads risen
    have hback := Bell.sleep_threads bell riser.thread riser.timed
    refine .rings _ (hback.nodup_iff.mpr (hperm.nodup_iff.mpr hs.once)) ?_
    intro u hu
    exact (hback.trans hperm).subset hu
  | leaves k riser bell risen =>
    have hperm := Bell.rise_threads risen
    have honce : (riser.thread :: bell.threads).Nodup := hperm.nodup_iff.mpr hs.once
    refine .rings _ (List.nodup_cons.mp honce).2 ?_
    intro u hu
    exact hperm.subset (List.mem_cons_of_mem _ hu)

theorem StartStep.change (hs : Shared g) (h : StartStep g t g' e) : Change g a g' e := by
  have hgoes : ∀ {s s' gateOpen gateBytes reportBytes e}, g.pending? t = some ⟨.start, s⟩ →
      StageStep g t .start s' → e = [] ∨ e = [.released] →
      Change g a ({ g with gateOpen, gateBytes, reportBytes }.place t .start s') e := by
    intro s s' gateOpen gateBytes reportBytes e hin hleads hshown
    refine .stages t _ _ g.latch gateOpen gateBytes reportBytes e hleads hs.once ?_ hshown
    intro u hu
    exact .inl ⟨hs.awake (by simp [hin]) u hu, hu⟩
  cases h with
  | opens inside => exact hgoes inside (.releases inside) (.inr rfl)
  | findsNobody inside =>
    exact .endsStart t _ g.reportBytes ⟨_, inside⟩ (.inr ⟨_, _, rfl, .inl rfl⟩)
  | closes inside => exact hgoes inside (.closes inside) (.inl rfl)
  | reads bytes chunk rest inside => exact hgoes inside (.reads bytes _ inside) (.inl rfl)
  | isTold bytes chunk rest inside =>
    exact .endsStart t _ rest ⟨_, inside⟩ (.inr ⟨_, _, rfl, .inr rfl⟩)
  | hearsEnd bytes inside => exact .endsStart t _ g.reportBytes ⟨_, inside⟩ (.inl rfl)

theorem MoveEffect.change {m : Child.Move} (h : MoveEffect g m g' e) : Change g a g' e := by
  cases h with
  | settles here | executes here | isRefused errno here =>
    exact .lives _ g.gateBytes g.reportBytes g.hasFollowers _
      (.inr ⟨by simp [here, Life.isLive], .inl rfl⟩) (by simp)
  | passes byte rest here =>
    exact .lives _ rest g.reportBytes g.hasFollowers _
      (.inr ⟨by simp [here, Life.isLive], .inl rfl⟩) (by simp)
  | reports unsent here | reportsToNobody unsent here =>
    exact .lives _ g.gateBytes _ g.hasFollowers _
      (.inr ⟨by simp [here, Life.isLive], .inl rfl⟩) (by simp)
  | findsGateShut here | givesUp here | exits status here =>
    exact .lives _ g.gateBytes g.reportBytes g.hasFollowers _
      (.inr ⟨by simp [here, Life.isLive], .inr ⟨_, rfl⟩⟩) (by simp)
  | dies signal live =>
    exact .lives _ g.gateBytes g.reportBytes g.hasFollowers _ (.inr ⟨live, .inr ⟨_, rfl⟩⟩) (by simp)
  | follows others => exact .lives g.life g.gateBytes g.reportBytes _ _ (.inl rfl) (by simp)

theorem StepEffect.change (hs : Shared g) (h : StepEffect g a g' e) : Change g a g' e := by
  cases h with
  | waitsOn t c s leads => exact leads.stages.change hs leads.awake
  | answers t c r gives => exact .answers t c r gives
  | latches g' rung => exact rung.change hs
  | creates t pid idle free unborn => exact .creates t pid idle free unborn
  | starts t idle free gated => exact .starts t idle free gated
  | releases t g' e goesOn => exact goesOn.change hs
  | kills t idle free alive => exact .kills t idle free alive
  | signals t life sent r inside hit sends gives =>
    exact .signals t life sent r inside hit sends gives
  | reaps t c status x inside free ended known => exact .reaps t c status x inside free ended known
  | moves m g' e does goesOn => exact goesOn.change
  | seizes status behind ended => exact .seizes status behind ended

theorem step_change (hs : Shared g) (h : g.step a = some (g', e)) : Change g a g' e :=
  (step_effect hs h).change hs

end Corun.Child.Gated
