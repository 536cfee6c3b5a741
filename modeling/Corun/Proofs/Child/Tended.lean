import Mathlib.Data.List.Perm.Basic
import Corun.Child.Gated

namespace Corun.Sync.Bell

variable {b b' : Bell}

/-- Those who sleep by the bell, or have woken and not run yet. -/
def threads (b : Bell) : List Nat := b.asleep.map Sleeper.thread ++ b.awake.map Riser.thread

theorem wake_threads {k : Nat} {expired : Bool} (h : b.wake k expired = some b') :
    b'.threads.Perm b.threads := by
  obtain ⟨s, hs, rfl⟩ := Option.map_eq_some_iff.mp h
  obtain ⟨hk, rfl⟩ := List.getElem?_eq_some_iff.mp hs
  have hmoved : (b.asleep[k] :: b.asleep.eraseIdx k).Perm b.asleep :=
    List.getElem_cons_eraseIdx_perm hk
  have hasleep := hmoved.map Sleeper.thread
  rw [List.map_cons] at hasleep
  simp only [threads, List.map_append, List.map_cons, List.map_nil]
  rw [← List.append_assoc]
  exact (List.perm_append_singleton _ _).trans (hasleep.append_right _)

theorem step_threads {a : Action} (h : b.step a = some b') : b'.threads.Perm b.threads := by
  cases a with
  | ring k =>
    simp only [step] at h
    split at h
    · cases h
    · split at h
      · cases h
        exact .refl _
      · have hwoken := wake_threads h
        exact hwoken
  | expire k =>
    simp only [step] at h
    split at h
    · exact wake_threads h
    · cases h
  | stir k => exact wake_threads h

theorem sleep_threads (b : Bell) (t : Nat) (timed : Bool) :
    (b.sleep t timed).threads.Perm (t :: b.threads) := by
  simp only [threads, sleep, List.map_append, List.map_cons, List.map_nil, List.append_assoc,
    List.singleton_append]
  exact List.perm_middle

theorem rise_threads {k : Nat} {r : Riser} (h : b.rise k = some (r, b')) :
    (r.thread :: b'.threads).Perm b.threads := by
  obtain ⟨x, hx, he⟩ := Option.map_eq_some_iff.mp h
  obtain ⟨rfl, rfl⟩ := Prod.mk.inj he
  obtain ⟨hk, rfl⟩ := List.getElem?_eq_some_iff.mp hx
  have hrisen : (b.awake[k] :: b.awake.eraseIdx k).Perm b.awake :=
    List.getElem_cons_eraseIdx_perm hk
  have hawake := hrisen.map Riser.thread
  rw [List.map_cons] at hawake
  exact List.perm_middle.symm.trans (hawake.append_left _)

end Corun.Sync.Bell

namespace Corun.Child

/-- A call that only awaits the end of the child, and goes no further than to the latch before the child
is released. -/
def Pending.Awaits (phase : Phase) (p : Pending) : Prop :=
  match p.call, p.stage with
  | .await, .checking | .await, .approaching | .await, .asleep => True
  | .await, .past | .await, .asking | .await, .observing | .await, .reaping => phase ≠ .ready
  | _, _ => False

/-- A call that starts the child, or kills it and waits for it. -/
def Pending.Owned (phase : Phase) (p : Pending) : Prop :=
  match p.call, p.stage with
  | .start, .notifying | .start, .releasing | .start, .closing | .start, .reading _ => True
  | .kill, .notifying | .kill, .signaling => phase = .killed
  | .wait, .observing | .wait, .reaping => phase = .killed ∨ phase = .terminated
  | _, _ => False

/-- Starting and killing hold the lock between steps. -/
def Call.holds : Call → Bool
  | start | kill => true
  | _ => false

theorem Pending.Awaits.later {phase later : Phase} {p : Pending} (hp : p.Awaits phase)
    (hl : later ≠ .ready) : p.Awaits later := by
  obtain ⟨c, s⟩ := p
  cases c <;> cases s <;> simp_all [Awaits]

theorem Pending.Awaits.call_eq {phase : Phase} {p : Pending} (hp : p.Awaits phase) :
    p.call = .await := by
  obtain ⟨c, s⟩ := p
  cases c <;> simp_all [Awaits]

/-- Whoever owns the child and does not hold the lock waits for it. -/
theorem Pending.Owned.terminated {phase : Phase} {p : Pending} (hp : p.Owned phase)
    (hf : p.call.holds = false) : p.Owned .terminated := by
  obtain ⟨c, s⟩ := p
  cases c <;> cases s <;> simp_all [Owned, Call.holds]

namespace Gated
open Os Sync

variable {g g' : Gated} {t u : Nat} {c : Call} {s : Stage} {e : List Entry} {owner : Nat}

theorem lookup_without (t u : Nat) (calls : List (Nat × Pending)) :
    (without t calls).lookup u = if u = t then none else calls.lookup u := by
  induction calls with
  | nil => simp [without]
  | cons x calls ih =>
    obtain ⟨v, p⟩ := x
    by_cases hv : v = t
    · have hgone : without t ((v, p) :: calls) = without t calls := by simp [without, hv]
      rw [hgone, ih, List.lookup_cons, hv]
      by_cases hu : u = t
      · simp [hu]
      · have hb : (u == t) = false := by simpa using hu
        simp [hu, hb]
    · have hkept : without t ((v, p) :: calls) = (v, p) :: without t calls := by
        simp [without, hv]
      rw [hkept, List.lookup_cons, List.lookup_cons, ih]
      by_cases hu : u = t
      · subst hu
        have hb : (u == v) = false := by simpa using Ne.symm hv
        simp [hb]
      · simp [hu]

@[simp] theorem pending?_place (g : Gated) (t u : Nat) (c : Call) (s : Stage) :
    (g.place t c s).pending? u = if u = t then some ⟨c, s⟩ else g.pending? u := by
  simp only [pending?, place, List.lookup_append, lookup_without]
  by_cases hu : u = t
  · simp [hu]
  · have hb : (u == t) = false := by simpa using hu
    simp [hu, List.lookup_cons, hb]

@[simp] theorem pending?_back (g : Gated) (t u : Nat) (c : Call) (r : Result Answer) :
    (g.back t c r).1.pending? u = if u = t then none else g.pending? u :=
  lookup_without t u g.calls

theorem returned?_nil (t : Nat) : returned? t [] = none := rfl

theorem returned?_cons (t : Nat) (x : Entry) (e : List Entry) :
    returned? t (x :: e) = (x.returned? t).or (returned? t e) := by
  cases hx : x.returned? t <;> simp [returned?, hx]

@[simp] theorem returned?_returned (t u : Nat) (c : Call) (r : Result Answer) :
    returned? u [.returned t c r] = if t = u then some r else none := by
  by_cases h : t = u <;> simp [returned?, Entry.returned?, h]

/-- What holds at every point of a child that was created. -/
structure Tended (owner : Nat) (g : Gated) : Prop where
  named : ∃ pid, g.pid? = some pid
  begun : g.phase ≠ .notStarted
  alive : g.life ≠ .absent
  /-- The record knows of the end when the child is reaped. -/
  reaped : g.phase = .terminated ↔ ∃ status, g.life = .reaped status
  told : ∀ status, g.life = .reaped status →
    ∃ ending, Termination.ofStatus? status = some ending ∧ g.termination? = some ending
  awaiting : ∀ t p, t ≠ owner → g.pending? t = some p → p.Awaits g.phase
  owned : ∀ p, g.pending? owner = some p → p.Owned g.phase
  held : ∀ p, g.pending? owner = some p → p.call.holds = true → g.holder = some owner
  /-- A child is reaped only when its end can be told. -/
  reaping : ∀ t c, g.pending? t = some ⟨c, .reaping⟩ → ∃ status ending,
    (g.life = .zombie status ∨ g.life = .reaped status) ∧
      Termination.ofStatus? status = some ending
  sleeping : ∀ t ∈ g.latch.bell.threads, t ≠ owner

theorem Tended.place (ht : Tended owner g) (ha : t ≠ owner → Pending.Awaits g.phase ⟨c, s⟩)
    (ho : t = owner → Pending.Owned g.phase ⟨c, s⟩ ∧ (c.holds = true → g.holder = some owner))
    (hr : s = .reaping → ∃ status ending, (g.life = .zombie status ∨ g.life = .reaped status) ∧
      Termination.ofStatus? status = some ending) : Tended owner (g.place t c s) := by
  refine ⟨ht.named, ht.begun, ht.alive, ht.reaped, ht.told, ?_, ?_, ?_, ?_, ht.sleeping⟩
  · intro u p hu hp
    rw [pending?_place] at hp
    split at hp
    · rename_i hut
      cases hp
      exact ha (hut ▸ hu)
    · exact ht.awaiting u p hu hp
  · intro p hp
    rw [pending?_place] at hp
    split at hp
    · rename_i hot
      cases hp
      exact (ho hot.symm).1
    · exact ht.owned p hp
  · intro p hp
    rw [pending?_place] at hp
    split at hp
    · rename_i hot
      cases hp
      exact (ho hot.symm).2
    · exact ht.held p hp
  · intro u c hp
    rw [pending?_place] at hp
    split at hp
    · cases hp
      exact hr rfl
    · exact ht.reaping u c hp

theorem Tended.back (ht : Tended owner g) (t : Nat) (c : Call) (r : Result Answer) :
    Tended owner (g.back t c r).1 := by
  refine ⟨ht.named, ht.begun, ht.alive, ht.reaped, ht.told, ?_, ?_, ?_, ?_, ht.sleeping⟩
  · intro u p hu hp
    rw [pending?_back] at hp
    split at hp
    · cases hp
    · exact ht.awaiting u p hu hp
  · intro p hp
    rw [pending?_back] at hp
    split at hp
    · cases hp
    · exact ht.owned p hp
  · intro p hp hc
    rw [pending?_back] at hp
    split at hp
    · cases hp
    · rename_i hne
      have hheld := ht.held p hp hc
      simp [Gated.back, hheld, hne]
  · intro u c hp
    rw [pending?_back] at hp
    split at hp
    · cases hp
    · exact ht.reaping u c hp

/-- Its channels do not matter. -/
theorem Tended.channels (ht : Tended owner g) (hasGate hasReport gateOpen reportOpen : Bool)
    (gateBytes reportBytes : List UInt8) : Tended owner
      { g with hasGate, hasReport, gateOpen, reportOpen, gateBytes, reportBytes } :=
  ⟨ht.named, ht.begun, ht.alive, ht.reaped, ht.told, ht.awaiting, ht.owned, ht.held, ht.reaping,
    ht.sleeping⟩

theorem Tended.latched {l : Latch} (ht : Tended owner g) (hl : ∀ u ∈ l.bell.threads, u ≠ owner) :
    Tended owner { g with latch := l } :=
  ⟨ht.named, ht.begun, ht.alive, ht.reaped, ht.told, ht.awaiting, ht.owned, ht.held, ht.reaping, hl⟩

/-- The owner starts or kills the child. -/
theorem Tended.left {phase : Phase} {holder : Option Nat} (ht : Tended owner g)
    (hidle : g.pending? owner = none) (hbefore : g.phase ≠ .terminated)
    (hphase : phase = .running ∨ phase = .killed) : Tended owner { g with phase, holder } := by
  have hready : phase ≠ .ready := by rcases hphase with rfl | rfl <;> simp
  have hunreaped : ∀ status, g.life ≠ .reaped status := fun status he =>
    hbefore (ht.reaped.mpr ⟨status, he⟩)
  refine ⟨ht.named, ?_, ht.alive, ?_, ht.told, ?_, ?_, ?_, ht.reaping, ht.sleeping⟩
  · rcases hphase with rfl | rfl <;> simp
  · constructor
    · rintro rfl
      simp at hphase
    · rintro ⟨status, he⟩
      exact absurd he (hunreaped status)
  · intro u p hu hp
    exact (ht.awaiting u p hu hp).later hready
  · intro p hp
    exact absurd (hidle.symm.trans hp) (by simp)
  · intro p hp
    exact absurd (hidle.symm.trans hp) (by simp)

theorem Tended.reap {status : WaitStatus} {ending : Termination} (ht : Tended owner g)
    (he : Termination.ofStatus? status = some ending) (hfree : g.holder = none) : Tended owner
      { g with life := .reaped status, termination? := some ending, phase := .terminated } := by
  refine ⟨ht.named, by simp, by simp, by simp, ?_, ?_, ?_, ?_, ?_, ht.sleeping⟩
  · intro x hx
    cases hx
    exact ⟨ending, he, rfl⟩
  · intro u p hu hp
    exact (ht.awaiting u p hu hp).later (by simp)
  · intro p hp
    -- With the lock free the owner is not about to send a signal.
    cases hc : p.call.holds with
    | false => exact (ht.owned p hp).terminated hc
    | true => exact absurd (hfree.symm.trans (ht.held p hp hc)) (by simp)
  · exact ht.held
  · intro u c hp
    exact ⟨status, ending, .inr rfl, he⟩

/-- A child that is not reaped goes on or ends. -/
theorem Tended.live {life : Life} {gateBytes reportBytes : List UInt8} {followers : Bool}
    (ht : Tended owner g) (hl : g.life.isLive = true)
    (hn : life.isLive = true ∨ ∃ status, life = .zombie status) :
    Tended owner { g with life, gateBytes, reportBytes, hasFollowers := followers } := by
  have hunreaped : ∀ status, g.life ≠ .reaped status := by
    rintro status he
    simp [he, Life.isLive] at hl
  have hunreaped' : ∀ status, life ≠ .reaped status := by
    rintro status rfl
    simp [Life.isLive] at hn
  refine ⟨ht.named, ht.begun, ?_, ?_, ?_, ht.awaiting, ht.owned, ht.held, ?_, ht.sleeping⟩
  · rintro rfl
    simp [Life.isLive] at hn
  · rw [ht.reaped]
    constructor
    · rintro ⟨status, he⟩
      exact absurd he (hunreaped status)
    · rintro ⟨status, he⟩
      exact absurd he (hunreaped' status)
  · intro status he
    exact absurd he (hunreaped' status)
  · intro u c hp
    obtain ⟨status, _, he | he, _⟩ := ht.reaping u c hp
    · simp [he, Life.isLive] at hl
    · exact absurd he (hunreaped status)

theorem Tended.followed (ht : Tended owner g) (followers : Bool) :
    Tended owner { g with hasFollowers := followers } :=
  ⟨ht.named, ht.begun, ht.alive, ht.reaped, ht.told, ht.awaiting, ht.owned, ht.held, ht.reaping,
    ht.sleeping⟩

theorem Tended.observe_cases (ht : Tended owner g) (h : g.observe t c = some (g', e)) :
    (∃ status ending, g.life = .zombie status ∧ Termination.ofStatus? status = some ending ∧
      g' = g.place t c .reaping ∧ e = []) ∨
    (∃ status f, g.life = .zombie status ∧ Termination.ofStatus? status = none ∧
      g' = (g.back t c (.error (.failed f))).1 ∧ e = [.returned t c (.error (.failed f))]) ∨
    ∃ f, g.phase = .terminated ∧ g' = (g.back t c (.error (.failed f))).1 ∧
      e = [.returned t c (.error (.failed f))] := by
  unfold observe at h
  split at h
  · rename_i status hlife
    split at h
    · rename_i ending hending
      cases h
      exact .inl ⟨status, ending, hlife, hending, rfl, rfl⟩
    · rename_i hending
      cases h
      exact .inr (.inl ⟨status, _, hlife, hending, rfl, rfl⟩)
  · rename_i status pid hlife hpid
    cases h
    exact .inr (.inr ⟨_, ht.reaped.mpr ⟨status, hlife⟩, rfl, rfl⟩)
  · cases h

theorem Tended.reap_cases (ht : Tended owner g) (hp : g.pending? t = some ⟨c, .reaping⟩)
    (h : g.reap t c = some (g', e)) :
    (∃ ending, g.phase = .terminated ∧ g.termination? = some ending ∧
      g' = (g.back t c (.ok (.ended ending))).1 ∧ e = [.returned t c (.ok (.ended ending))]) ∨
    ∃ status ending, g.life = .zombie status ∧ Termination.ofStatus? status = some ending ∧
      g' = (Gated.back t c (.ok (.ended ending))
        { g with life := .reaped status, termination? := some ending, phase := .terminated }).1 ∧
      e = [.reaped status, .returned t c (.ok (.ended ending))] := by
  obtain ⟨known, ending, hlife, hending⟩ := ht.reaping t c hp
  unfold Gated.reap at h
  split at h
  · rename_i ended hphase htold
    cases h
    exact .inl ⟨ended, hphase, htold, rfl, rfl⟩
  · rename_i hnot
    rcases hlife with hlife | hlife
    · split at h
      · rename_i status pid hz _
        obtain rfl : known = status := Life.zombie.inj (hlife.symm.trans hz)
        rw [hending] at h
        cases h
        exact .inr ⟨known, ending, hlife, hending, rfl, rfl⟩
      · rename_i hz _
        exact absurd (hlife.symm.trans hz) (by simp)
      · cases h
    · obtain ⟨_, _, htold⟩ := ht.told known hlife
      exact absurd htold (hnot _ (ht.reaped.mpr ⟨known, hlife⟩))

/-- What no step takes back: who the child is and how it has ended. -/
structure Later (g g' : Gated) : Prop where
  pid : g'.pid? = g.pid?
  mode : g'.killMode = g.killMode
  zombie : ∀ status, g.life = .zombie status → g'.life = .zombie status ∨ g'.life = .reaped status
  reaped : ∀ status, g.life = .reaped status → g'.life = .reaped status

theorem Later.ofLife (hpid : g'.pid? = g.pid?) (hmode : g'.killMode = g.killMode)
    (hlife : g'.life = g.life) : Later g g' :=
  ⟨hpid, hmode, fun _ he => .inl (hlife.trans he), fun _ he => hlife.trans he⟩

theorem Later.live (hpid : g'.pid? = g.pid?) (hmode : g'.killMode = g.killMode)
    (hl : g.life.isLive = true) : Later g g' := by
  refine ⟨hpid, hmode, ?_, ?_⟩ <;>
  · intro status he
    simp [he, Life.isLive] at hl

theorem Later.reap {status : WaitStatus} (hpid : g'.pid? = g.pid?)
    (hmode : g'.killMode = g.killMode) (hz : g.life = .zombie status)
    (hr : g'.life = .reaped status) : Later g g' := by
  refine ⟨hpid, hmode, ?_, ?_⟩
  · intro x he
    obtain rfl : status = x := Life.zombie.inj (hz.symm.trans he)
    exact .inr hr
  · intro x he
    rw [hz] at he
    cases he

/-- What a step beside the owner comes to. -/
structure BackgroundStep (owner : Nat) (g g' : Gated) (e : List Entry) : Prop where
  tended : Tended owner g'
  later : Later g g'
  owned : g'.pending? owner = g.pending? owner
  phase : g'.phase = g.phase ∨ g.holder = none ∧ g.phase ≠ .ready ∧ g'.phase = .terminated
  shown : ∀ x ∈ e, (∃ r, x = .executed r) ∨ (∃ status, x = .reaped status) ∨
    ∃ t r, t ≠ owner ∧ x = .returned t .await r
  /-- Whoever awaits learns how the child ended, or that this cannot be told. -/
  answered : ∀ t r, t ≠ owner → returned? t e = some r →
    (∃ ending, r = .ok (.ended ending) ∧ g'.termination? = some ending ∧ g'.phase = .terminated) ∨
      ∃ f, r = .error (.failed f)

/-- A thread moves, and nothing is seen of it. -/
theorem BackgroundStep.latches (ht : Tended owner g') (hpid : g'.pid? = g.pid?)
    (hmode : g'.killMode = g.killMode) (howned : g'.pending? owner = g.pending? owner)
    (hphase : g'.phase = g.phase) (hlife : g'.life = g.life) : BackgroundStep owner g g' [] :=
  ⟨ht, .ofLife hpid hmode hlife, howned, .inl hphase, by simp, by simp [returned?_nil]⟩

theorem BackgroundStep.place (ht : Tended owner g) (hne : t ≠ owner)
    (hs : Pending.Awaits g.phase ⟨.await, s⟩)
    (hr : s = .reaping → ∃ status ending, (g.life = .zombie status ∨ g.life = .reaped status) ∧
      Termination.ofStatus? status = some ending) :
    BackgroundStep owner g (g.place t .await s) [] :=
  .latches (ht.place (fun _ => hs) (fun he => absurd he hne) hr) rfl rfl
    (by simp [Ne.symm hne]) rfl rfl

/-- A call comes back, with nothing changed but who is inside of it. -/
theorem BackgroundStep.back (ht : Tended owner g) (hne : t ≠ owner) (r : Result Answer)
    (hr : (∃ ending, r = .ok (.ended ending) ∧ g.termination? = some ending ∧
      g.phase = .terminated) ∨ ∃ f, r = .error (.failed f)) :
    BackgroundStep owner g (g.back t .await r).1 [.returned t .await r] := by
  refine ⟨ht.back t .await r, .ofLife rfl rfl rfl, by simp [Ne.symm hne], .inl rfl, ?_, ?_⟩
  · intro x hx
    exact .inr (.inr ⟨t, r, hne, List.mem_singleton.mp hx⟩)
  · intro u x hu hx
    rw [returned?_returned] at hx
    split at hx
    · cases hx
      exact hr
    · cases hx

/-- A call comes back with the end of the child, which it has reaped. -/
theorem BackgroundStep.reap {status : WaitStatus} {ending : Termination} (ht : Tended owner g)
    (hne : t ≠ owner) (hphase : g.phase ≠ .ready) (hfree : g.holder = none)
    (hlife : g.life = .zombie status) (hending : Termination.ofStatus? status = some ending) :
    BackgroundStep owner g (Gated.back t .await (.ok (.ended ending))
        { g with life := .reaped status, termination? := some ending, phase := .terminated }).1
      [.reaped status, .returned t .await (.ok (.ended ending))] := by
  have hreaped := (ht.reap hending hfree).back t .await (.ok (.ended ending))
  refine ⟨hreaped, .reap rfl rfl hlife rfl, ?_, .inr ⟨hfree, hphase, rfl⟩, ?_, ?_⟩
  · rw [pending?_back, if_neg (Ne.symm hne)]
    rfl
  · intro x hx
    rcases List.mem_cons.mp hx with rfl | hx
    · exact .inr (.inl ⟨status, rfl⟩)
    · exact .inr (.inr ⟨t, _, hne, List.mem_singleton.mp hx⟩)
  · intro u x hu hx
    rw [returned?_cons, returned?_returned] at hx
    split at hx
    · cases hx
      exact .inl ⟨ending, rfl, rfl, rfl⟩
    · cases hx

/-- The child itself goes on. -/
theorem BackgroundStep.live {life : Life} {gateBytes reportBytes : List UInt8} {followers : Bool}
    (ht : Tended owner g) (hl : g.life.isLive = true)
    (hn : life.isLive = true ∨ ∃ status, life = .zombie status)
    (he : ∀ x ∈ e, ∃ r, x = .executed r) :
    BackgroundStep owner g
      { g with life, gateBytes, reportBytes, hasFollowers := followers } e := by
  refine ⟨ht.live hl hn, .live rfl rfl hl, rfl, .inl rfl, fun x hx => .inl (he x hx), ?_⟩
  · intro t r _ hr
    obtain ⟨x, hx, hxr⟩ := List.exists_of_findSome?_eq_some hr
    obtain ⟨y, rfl⟩ := he x hx
    cases hxr

theorem check_backgroundStep (ht : Tended owner g) (hne : t ≠ owner) (h : g.check t = (g', e)) :
    BackgroundStep owner g g' e := by
  unfold check at h
  split at h
  · cases h
    exact .place ht hne trivial (by simp)
  · rename_i hphase
    cases h
    exact .place ht hne (by simp [Pending.Awaits, hphase]) (by simp)
  · rename_i hphase
    cases h
    exact .place ht hne (by simp [Pending.Awaits, hphase]) (by simp)
  · rename_i hphase
    cases h
    exact .place ht hne (by simp [Pending.Awaits, hphase]) (by simp)
  · rename_i hphase
    exact absurd hphase ht.begun

theorem wait_backgroundStep (ht : Tended owner g) (hne : t ≠ owner)
    (h : g.wait t .await = (g', e)) :
    BackgroundStep owner g g' e := by
  have hnamed : g.pid? ≠ none := by
    obtain ⟨pid, hpid⟩ := ht.named
    simp [hpid]
  unfold wait at h
  split at h
  · rename_i hphase
    rw [if_neg hnamed] at h
    cases h
    exact .place ht hne (by simp [Pending.Awaits, hphase]) (by simp)
  · rename_i hphase
    rw [if_neg hnamed] at h
    cases h
    exact .place ht hne (by simp [Pending.Awaits, hphase]) (by simp)
  · cases h
    exact .back ht hne _ (.inr ⟨_, rfl⟩)

theorem status_backgroundStep (ht : Tended owner g) (hne : t ≠ owner)
    (h : g.status t .await = (g', e)) :
    BackgroundStep owner g g' e := by
  unfold status at h
  split at h
  · rename_i ending hphase hending
    cases h
    exact .back ht hne _ (.inl ⟨ending, rfl, hending, hphase⟩)
  · cases h
    exact .back ht hne _ (.inr ⟨_, rfl⟩)

theorem observe_backgroundStep (ht : Tended owner g) (hne : t ≠ owner) (hphase : g.phase ≠ .ready)
    (h : g.observe t .await = some (g', e)) : BackgroundStep owner g g' e := by
  obtain ⟨status, ending, hlife, hending, rfl, rfl⟩ | ⟨status, f, -, -, rfl, rfl⟩ | ⟨f, -, rfl, rfl⟩ :=
    ht.observe_cases h
  · exact .place ht hne hphase fun _ => ⟨status, ending, .inl hlife, hending⟩
  · exact .back ht hne _ (.inr ⟨f, rfl⟩)
  · exact .back ht hne _ (.inr ⟨f, rfl⟩)

theorem reap_backgroundStep (ht : Tended owner g) (hne : t ≠ owner) (hphase : g.phase ≠ .ready)
    (hfree : g.holder = none) (hp : g.pending? t = some ⟨.await, .reaping⟩)
    (h : g.reap t .await = some (g', e)) : BackgroundStep owner g g' e := by
  obtain ⟨ending, hterminated, htold, rfl, rfl⟩ | ⟨status, ending, hlife, hending, rfl, rfl⟩ :=
    ht.reap_cases hp h
  · exact .back ht hne _ (.inl ⟨ending, rfl, htold, hterminated⟩)
  · exact .reap ht hne hphase hfree hlife hending

/-- A thread that finds the latch unset falls asleep by its bell. -/
theorem approach_backgroundStep {l : Latch} {le : List Latch.Entry} (ht : Tended owner g)
    (hne : t ≠ owner)
    (h : g.latch.step (.wait t false) = some (l, le)) :
    BackgroundStep owner g ({ g with latch := l }.afterLatch le t) [] := by
  have hsleeping : ∀ u ∈ l.bell.threads, u ≠ owner := by
    simp only [Latch.step, Latch.pass, Option.some.injEq] at h
    split at h
    · cases h
      exact ht.sleeping
    · cases h
      intro u hu
      rcases List.mem_cons.mp ((Bell.sleep_threads ..).mem_iff.mp hu) with rfl | hu
      · exact hne
      · exact ht.sleeping u hu
  have hl := ht.latched hsleeping
  unfold afterLatch
  split
  · exact .latches (hl.place (fun _ => trivial) (fun he => absurd he hne) (by simp)) rfl rfl
      (by rw [pending?_place, if_neg (Ne.symm hne)]; rfl) rfl rfl
  · exact .latches (hl.place (fun _ => trivial) (fun he => absurd he hne) (by simp)) rfl rfl
      (by rw [pending?_place, if_neg (Ne.symm hne)]; rfl) rfl rfl

theorem advance_backgroundStep (ht : Tended owner g) (hne : t ≠ owner)
    (h : g.advance t = some (g', e)) :
    BackgroundStep owner g g' e := by
  unfold advance at h
  split at h
  · cases h
  · rename_i call stage hp
    have hawaits := ht.awaiting t ⟨call, stage⟩ hne hp
    obtain rfl : call = .await := hawaits.call_eq
    cases stage with
    | notifying | releasing | closing | signaling => exact hawaits.elim
    | reading bytes => exact hawaits.elim
    | observing => exact observe_backgroundStep ht hne hawaits h
    | reaping =>
      simp only at h
      split at h
      · rename_i hfree
        exact reap_backgroundStep ht hne hawaits hfree hp h
      · cases h
    | checking =>
      simp only at h
      split at h
      · exact check_backgroundStep ht hne (Option.some.inj h)
      · cases h
    | approaching =>
      obtain ⟨⟨l, le⟩, hl, he⟩ := Option.map_eq_some_iff.mp h
      cases he
      exact approach_backgroundStep ht hne hl
    | asleep => cases h
    | past =>
      simp only at h
      split at h
      · exact wait_backgroundStep ht hne (Option.some.inj h)
      · cases h
    | asking =>
      simp only at h
      split at h
      · exact status_backgroundStep ht hne (Option.some.inj h)
      · cases h

theorem bell_backgroundStep {a : Bell.Action} (ht : Tended owner g)
    (h : g.step (.bell a) = some (g', e)) : BackgroundStep owner g g' e := by
  obtain ⟨⟨l, le⟩, hl, he⟩ := Option.map_eq_some_iff.mp h
  cases he
  obtain ⟨bell, hb, he⟩ := Option.map_eq_some_iff.mp hl
  cases he
  exact .latches (ht.latched fun u hu => ht.sleeping u ((Bell.step_threads hb).mem_iff.mp hu)) rfl
    rfl rfl rfl rfl

/-- A thread that runs again passes the latch or goes back to sleep. -/
theorem resume_backgroundStep {k : Nat} (ht : Tended owner g)
    (h : g.step (.resume k) = some (g', e)) :
    BackgroundStep owner g g' e := by
  obtain ⟨⟨l, le⟩, hl, he⟩ := Option.map_eq_some_iff.mp h
  cases he
  obtain ⟨⟨r, bell⟩, hr, he⟩ := Option.map_eq_some_iff.mp hl
  have hrise := Bell.rise_threads hr
  have hne : r.thread ≠ owner := ht.sleeping _ (hrise.subset List.mem_cons_self)
  have hsleeping : ∀ u ∈ bell.threads, u ≠ owner := fun u hu =>
    ht.sleeping u (hrise.subset (List.mem_cons_of_mem _ hu))
  have hstays : BackgroundStep owner g { g with latch := ⟨g.latch.isSet, bell⟩ } [] :=
    .latches (ht.latched hsleeping) rfl rfl rfl rfl rfl
  simp only [Latch.pass] at he
  split at he
  · cases he
    have hl := ht.latched (l := ⟨false, bell⟩) hsleeping
    refine .latches
      (hl.place (fun _ => trivial) (fun he => absurd he hne) (by simp)) rfl rfl ?_ rfl rfl
    exact (pending?_place _ r.thread owner .await .checking).trans (if_neg (Ne.symm hne))
  · split at he
    · cases he
      exact hstays
    · cases he
      refine .latches (ht.latched ?_) rfl rfl rfl rfl rfl
      intro u hu
      rcases List.mem_cons.mp ((Bell.sleep_threads ..).mem_iff.mp hu) with rfl | hu
      · exact hne
      · exact hsleeping u hu

theorem move_backgroundStep {m : Child.Move} (ht : Tended owner g) (h : g.move m = some (g', e)) :
    BackgroundStep owner g g' e := by
  unfold move at h
  split at h
  · rename_i hlife
    cases h
    exact .live ht (by simp [hlife, Life.isLive]) (.inl rfl) (by simp)
  · rename_i hlife
    split at h
    · cases h
    · cases h
      refine .live ht (by simp [hlife, Life.isLive]) ?_ (by simp)
      split
      · exact .inr ⟨_, rfl⟩
      · exact .inl rfl
  · rename_i hlife
    cases h
    exact .live ht (by simp [hlife, Life.isLive]) (.inl rfl) (by simp)
  · rename_i hlife
    cases h
    exact .live ht (by simp [hlife, Life.isLive]) (.inl rfl) (by simp)
  · rename_i unsent hlife
    split at h
    · cases h
    · cases h
      exact .live ht (by simp [hlife, Life.isLive]) (.inl rfl) (by simp)
  · rename_i hlife
    cases h
    exact .live ht (by simp [hlife, Life.isLive]) (.inr ⟨_, rfl⟩) (by simp)
  · rename_i hlife
    cases h
    exact .live ht (by simp [hlife, Life.isLive]) (.inr ⟨_, rfl⟩) (by simp)
  · split at h
    · rename_i hlive
      cases h
      exact .live ht hlive (.inr ⟨_, rfl⟩) (by simp)
    · cases h
  · split at h
    · cases h
    · cases h
      exact .latches (ht.followed _) rfl rfl rfl rfl rfl
  · cases h

theorem await_backgroundStep (ht : Tended owner g) (hne : t ≠ owner)
    (h : g.step (.call t .await) = some (g', e)) : BackgroundStep owner g g' e := by
  simp only [step] at h
  unfold begin at h
  split at h
  · cases h
  · cases h
    exact .place ht hne trivial (by simp)

end Gated

end Corun.Child
