import Corun.Proofs.Child.Record

namespace Corun.Sync.Bell

variable {b b' : Bell} {k : Nat} {r : Riser}

/-- Nobody is there for a limited time. -/
structure NoTimeouts (b : Bell) : Prop where
  asleep : ∀ s ∈ b.asleep, s.timed = false
  awake : ∀ r ∈ b.awake, r.timed = false ∧ r.expired = false

/-- If anybody is asleep, a ring is due or another is awake. -/
def WakeAhead (b : Bell) : Prop := b.asleep = [] ∨ 0 < b.due ∨ b.awake ≠ []

theorem NoTimeouts.wake (hb : b.NoTimeouts) (h : b.wake k false = some b') : b'.NoTimeouts := by
  obtain ⟨s, hs, rfl⟩ := Option.map_eq_some_iff.mp h
  refine ⟨fun x hx => hb.asleep x (List.mem_of_mem_eraseIdx hx), ?_⟩
  intro x hx
  rcases List.mem_append.mp hx with hx | hx
  · exact hb.awake x hx
  · cases List.mem_singleton.mp hx
    exact ⟨hb.asleep s (List.mem_of_getElem? hs), rfl⟩

theorem NoTimeouts.step {a : Action} (hb : b.NoTimeouts) (h : b.step a = some b') :
    b'.NoTimeouts := by
  have hrung : ({ b with due := b.due - 1 } : Bell).NoTimeouts := ⟨hb.asleep, hb.awake⟩
  cases a with
  | ring k =>
    simp only [Bell.step] at h
    split at h
    · cases h
    · split at h
      · cases h
        exact hrung
      · exact hrung.wake h
  | expire k =>
    simp only [Bell.step] at h
    split at h
    · rename_i htimed
      obtain ⟨s, hs, hst⟩ := Option.any_eq_true _ _ |>.mp htimed
      rw [hb.asleep s (List.mem_of_getElem? hs)] at hst
      cases hst
    · cases h
  | stir k => exact hb.wake h

theorem NoTimeouts.rise (hb : b.NoTimeouts) (h : b.rise k = some (r, b')) :
    r.timed = false ∧ r.expired = false ∧ b'.NoTimeouts := by
  obtain ⟨x, hx, he⟩ := Option.map_eq_some_iff.mp h
  cases he
  obtain ⟨htimed, hexpired⟩ := hb.awake _ (List.mem_of_getElem? hx)
  exact ⟨htimed, hexpired, hb.asleep, fun y hy => hb.awake y (List.mem_of_mem_eraseIdx hy)⟩

theorem NoTimeouts.sleep (hb : b.NoTimeouts) (t : Nat) : (b.sleep t false).NoTimeouts := by
  refine ⟨?_, hb.awake⟩
  intro x hx
  rcases List.mem_append.mp hx with hx | hx
  · exact hb.asleep x hx
  · cases List.mem_singleton.mp hx
    rfl

theorem wake_awake {expired : Bool} (h : b.wake k expired = some b') : b'.awake ≠ [] := by
  obtain ⟨s, hs, rfl⟩ := Option.map_eq_some_iff.mp h
  simp

/-- A ring is lost only when nobody is asleep. -/
theorem step_wakeAhead {a : Action} (h : b.step a = some b') : b'.WakeAhead := by
  cases a with
  | ring k =>
    simp only [Bell.step] at h
    split at h
    · cases h
    · split at h
      · rename_i hnobody
        cases h
        exact .inl hnobody
      · exact .inr (.inr (wake_awake h))
  | expire k =>
    simp only [Bell.step] at h
    split at h
    · exact .inr (.inr (wake_awake h))
    · cases h
  | stir k => exact .inr (.inr (wake_awake h))

theorem rise_of_mem {t : Nat} (h : t ∈ b.awake.map Riser.thread) :
    ∃ k r b', b.rise k = some (r, b') ∧ r.thread = t := by
  obtain ⟨r, hr, rfl⟩ := List.mem_map.mp h
  obtain ⟨k, hk⟩ := List.mem_iff_getElem?.mp hr
  exact ⟨k, r, _, by rw [rise, hk, Option.map_some], rfl⟩

/-- A ring that is due may wake anybody who is asleep. -/
theorem ring_of_mem {t : Nat} (h : t ∈ b.asleep.map Sleeper.thread) (hdue : 0 < b.due) :
    ∃ k b', b.step (.ring k) = some b' ∧ t ∈ b'.awake.map Riser.thread := by
  obtain ⟨s, hs, rfl⟩ := List.mem_map.mp h
  obtain ⟨k, hk⟩ := List.mem_iff_getElem?.mp hs
  refine ⟨k, ⟨b.due - 1, b.asleep.eraseIdx k, b.awake ++ [⟨s.thread, s.timed, false⟩]⟩, ?_, by simp⟩
  simp only [Bell.step]
  rw [if_neg (Nat.ne_of_gt hdue), if_neg (List.ne_nil_of_mem hs), wake, hk, Option.map_some]

end Corun.Sync.Bell

namespace Corun.Child.Gated
open Os Sync

variable {g g' u v w : Gated} {t t' : Nat} {c : Call} {s : Stage} {r : Result Answer} {a : Action}
  {e e' : List Entry} {acts : List Action} {path : String} {operands : List String} {mode : KillMode}

/-- The thread has found the child at its gate, and has not passed the latch since. -/
def BeforeLatch (g : Gated) (t : Nat) : Prop :=
  g.pending? t = some ⟨.await, .approaching⟩ ∨ g.pending? t = some ⟨.await, .asleep⟩

/-- The child has left its gate, nobody is about to set the latch, and the thread sleeps on there while
the latch is not set. -/
structure MissedWake (g : Gated) (t : Nat) : Prop where
  left : g.phase.Left
  quiet : ∀ u c, g.pending? u ≠ some ⟨c, .notifying⟩
  asleep : g.pending? t = some ⟨.await, .asleep⟩
  unset : g.latch.isSet = false

/-- What holds at the latch. -/
structure Latched (g : Gated) : Prop where
  unset : ¬ g.phase.Left → g.latch.isSet = false
  sleeps : ∀ t, g.pending? t = some ⟨.await, .asleep⟩ → t ∈ g.latch.bell.threads
  noTimeouts : g.latch.bell.NoTimeouts
  /-- Setting the latch rings, and the ring is not lost on anybody. -/
  rung : g.latch.isSet = true → g.latch.bell.WakeAhead

/-- The thread is not at the latch, neither to pass it nor to set it. -/
def OffLatch (g : Gated) (t : Nat) : Prop :=
  ¬ BeforeLatch g t ∧ ∀ c, g.pending? t ≠ some ⟨c, .notifying⟩

/-- A thread stays where it is, or goes on away from the latch. It comes to the latch while the child is at
its gate, or because it begins to start or kill the child. -/
def StaysOffLatch (g g' : Gated) (t : Nat) : Prop :=
  g'.pending? t = g.pending? t ∨
    OffLatch g t ∧ g'.pending? t ≠ some ⟨.await, .asleep⟩ ∧
    (g'.pending? t = some ⟨.await, .approaching⟩ → g.phase = .ready) ∧
    ∀ c, g'.pending? t = some ⟨c, .notifying⟩ → g.phase = .ready ∨ g.phase = .running

theorem OffLatch.stages (haway : OffLatch g t)
    (hp : ∀ x, g'.pending? x = if x = t then some ⟨c, s⟩ else g.pending? x) (hasleep : s ≠ .asleep)
    (happroaching : s = .approaching → g.phase = .ready)
    (hnotifying : s = .notifying → g.phase = .ready ∨ g.phase = .running) (x : Nat) :
    StaysOffLatch g g' x := by
  unfold StaysOffLatch
  rw [hp x]
  by_cases hx : x = t
  · subst hx
    rw [if_pos rfl]
    refine .inr ⟨haway, ?_, ?_, ?_⟩
    · intro h
      cases h
      exact hasleep rfl
    · intro h
      cases h
      exact happroaching rfl
    · intro c h
      cases h
      exact hnotifying rfl
  · rw [if_neg hx]
    exact .inl rfl

theorem OffLatch.leaves (haway : OffLatch g t)
    (hp : ∀ x, g'.pending? x = if x = t then none else g.pending? x) (x : Nat) :
    StaysOffLatch g g' x := by
  unfold StaysOffLatch
  rw [hp x]
  by_cases hx : x = t
  · subst hx
    rw [if_pos rfl]
    exact .inr ⟨haway, by simp, by simp, by simp⟩
  · rw [if_neg hx]
    exact .inl rfl

theorem WaitStep.staysOffLatch (h : WaitStep g t c s) (x : Nat) :
    StaysOffLatch g (g.place t c s) x := by
  have haway : OffLatch g t := by
    cases h with
    | awaits idle | waits idle => simp [OffLatch, BeforeLatch, idle]
    | observes _ _ _ inside | holdsBack inside | passes inside | finds inside | looks inside =>
      simp [OffLatch, BeforeLatch, inside]
  refine haway.stages (fun x => pending?_place g t x c s) ?_ ?_ ?_ x
  · cases h <;> simp
  · intro hs
    cases h with
    | holdsBack inside gated => exact gated
    | _ => cases hs
  · cases h <;> simp

theorem Answers.staysOffLatch (h : Answers g t c r) (x : Nat) :
    StaysOffLatch g (g.back t c r).1 x := by
  have haway : OffLatch g t := by
    cases h with
    | refuses c verb here => rcases here with hidle | hin <;> simp [OffLatch, BeforeLatch, *]
    | tells c x here => rcases here with ⟨hidle, -⟩ | hin | hin <;> simp [OffLatch, BeforeLatch, *]
    | cannotFork _ idle | spares idle | names _ idle => simp [OffLatch, BeforeLatch, idle]
    | overtaken inside | isLate _ _ _ inside | cannotTell _ _ _ inside | isRobbed _ _ _ inside =>
      simp [OffLatch, BeforeLatch, inside]
  exact haway.leaves (fun x => pending?_back g t x c r) x

theorem StartStep.staysOffLatch (h : StartStep g t g' e) :
    g'.latch = g.latch ∧ ∀ x, StaysOffLatch g g' x := by
  have haway : OffLatch g t := by
    cases h with
    | opens inside | closes inside | reads _ _ _ inside | findsNobody inside | isTold _ _ _ inside
    | hearsEnd _ inside => simp [OffLatch, BeforeLatch, inside]
  cases h with
  | opens | closes | reads =>
    exact ⟨rfl, haway.stages (fun x => pending?_place _ _ x _ _) (by simp) (by simp) (by simp)⟩
  | findsNobody | isTold | hearsEnd =>
    exact ⟨rfl, haway.leaves fun x => pending?_endStart _ _ x _⟩

theorem MoveEffect.staysOffLatch {m : Child.Move} (h : MoveEffect g m g' e) :
    g'.latch = g.latch ∧ ∀ x, StaysOffLatch g g' x := by
  cases h <;> exact ⟨rfl, fun _ => .inl rfl⟩

/-- A step stirs the latch or is away from it. -/
theorem StepEffect.staysOffLatch (h : StepEffect g a g' e) :
    LatchStep g g' ∨ g'.latch = g.latch ∧ ∀ x, StaysOffLatch g g' x := by
  cases h with
  | latches g' rung => exact .inl rung
  | waitsOn t c s leads => exact .inr ⟨rfl, leads.staysOffLatch⟩
  | answers t c r gives => exact .inr ⟨rfl, gives.staysOffLatch⟩
  | releases t g' e goesOn => exact .inr goesOn.staysOffLatch
  | moves m g' e does goesOn => exact .inr goesOn.staysOffLatch
  | seizes => exact .inr ⟨rfl, fun _ => .inl rfl⟩
  | creates t pid idle =>
    have haway : OffLatch g t := by simp [OffLatch, BeforeLatch, idle]
    exact .inr ⟨rfl, haway.leaves fun x => pending?_back _ _ x _ _⟩
  | signals t life sent r inside =>
    have haway : OffLatch g t := by simp [OffLatch, BeforeLatch, inside]
    exact .inr ⟨rfl, haway.leaves fun x => pending?_back _ _ x _ _⟩
  | reaps t c status x inside =>
    have haway : OffLatch g t := by simp [OffLatch, BeforeLatch, inside]
    exact .inr ⟨rfl, haway.leaves fun x => pending?_back _ _ x _ _⟩
  | starts t idle free gated =>
    have haway : OffLatch g t := by simp [OffLatch, BeforeLatch, idle]
    exact .inr ⟨rfl, haway.stages (fun x => pending?_place _ _ x _ _) (by simp) (by simp)
      fun _ => .inl gated⟩
  | kills t idle free alive =>
    have haway : OffLatch g t := by simp [OffLatch, BeforeLatch, idle]
    exact .inr ⟨rfl, haway.stages (fun x => pending?_place _ _ x _ _) (by simp) (by simp)
      fun _ => alive⟩

theorem left_iff {phase : Phase} : phase.Left ↔ phase ≠ .notStarted ∧ phase ≠ .ready := by
  cases phase <;> simp [Phase.Left]

/-- A child that left its gate does not come back there. -/
theorem StepEffect.left (hs : Shared g) (h : StepEffect g a g' e) (hl : g.phase.Left) :
    g'.phase.Left := by
  rcases (h.change hs).phase_moves hs with hsame | hnext
  · rw [hsame]
    exact hl
  · rcases hl with hp | hp | hp <;> rw [hp] at hnext
    · exact .inr hnext
    · exact .inr (.inr hnext)
    · exact hnext.elim

theorem ofCommand_latched : Latched (ofCommand path operands mode) := by
  have hnobody : Bell.silent.asleep = [] ∧ Bell.silent.awake = [] := ⟨rfl, rfl⟩
  refine ⟨fun _ => rfl, ?_, ⟨by simp [ofCommand, Latch.create, hnobody],
    by simp [ofCommand, Latch.create, hnobody]⟩, ?_⟩
  · intro t ht
    cases ht
  · intro h
    cases h

/-- Whoever is about to set the latch has released or killed the child. -/
theorem Shared.notifying_left (hs : Shared g) (hin : g.pending? t = some ⟨c, .notifying⟩) :
    g.phase.Left := by
  have hfits := hs.inside t _ hin
  rcases (hfits.call : c = .start ∨ c = .kill) with rfl | rfl
  · exact .inl hfits
  · exact .inr (.inl hfits)

theorem LatchStep.latched (hs : Shared g) (hl : Latched g) (h : LatchStep g g') : Latched g' := by
  cases h with
  | notifies t c s inside leads =>
    have hnoTimeouts : g.latch.bell.announce.NoTimeouts :=
      ⟨hl.noTimeouts.asleep, hl.noTimeouts.awake⟩
    refine ⟨fun hunleft => absurd (hs.notifying_left inside) hunleft, ?_, hnoTimeouts, ?_⟩
    · intro x hx
      rw [pending?_place] at hx
      split at hx
      · rcases leads with ⟨rfl, rfl⟩ | ⟨rfl, rfl⟩ <;> cases hx
      · exact hl.sleeps x hx
    · intro _
      exact .inr (.inl (Nat.succ_pos _))
  | slips t inside =>
    refine ⟨fun _ => rfl, ?_, hl.noTimeouts, by simp [Gated.place]⟩
    intro x hx
    rw [pending?_place] at hx
    split at hx
    · cases hx
    · exact hl.sleeps x hx
  | sleeps t inside closed =>
    refine ⟨fun _ => closed, ?_, hl.noTimeouts.sleep t, by simp [Gated.place, Latch.sleep, closed]⟩
    intro x hx
    apply (Bell.sleep_threads g.latch.bell t false).mem_iff.mpr
    rw [pending?_place] at hx
    split at hx
    · rename_i hxt
      rw [hxt]
      exact List.mem_cons_self
    · exact List.mem_cons_of_mem _ (hl.sleeps x hx)
  | rings b bell rung =>
    refine ⟨hl.unset, ?_, hl.noTimeouts.step rung, fun _ => Bell.step_wakeAhead rung⟩
    intro x hx
    exact (Bell.step_threads rung).mem_iff.mpr (hl.sleeps x hx)
  | wakes k riser bell risen =>
    refine ⟨fun _ => rfl, ?_, (hl.noTimeouts.rise risen).2.2, by simp [Gated.place]⟩
    intro x hx
    rw [pending?_place] at hx
    split at hx
    · cases hx
    · rename_i hne
      rcases List.mem_cons.mp ((Bell.rise_threads risen).mem_iff.mpr (hl.sleeps x hx)) with he | hm
      · exact absurd he hne
      · exact hm
  | turns k riser bell risen closed =>
    obtain ⟨htimed, -, hnoTimeouts⟩ := hl.noTimeouts.rise risen
    have hperm := (Bell.sleep_threads bell riser.thread riser.timed).trans (Bell.rise_threads risen)
    refine ⟨fun _ => closed, ?_, htimed ▸ hnoTimeouts.sleep riser.thread, by simp [closed]⟩
    intro x hx
    exact hperm.mem_iff.mpr (hl.sleeps x hx)
  | leaves k riser bell risen closed late =>
    cases late.symm.trans (hl.noTimeouts.rise risen).2.1

theorem Latched.effect (hs : Shared g) (hl : Latched g) (h : StepEffect g a g' e) : Latched g' := by
  rcases h.staysOffLatch with hstirs | ⟨hlatch, helse⟩
  · exact hstirs.latched hs hl
  · refine ⟨?_, ?_, ?_, ?_⟩
    · intro hunleft
      rw [hlatch]
      exact hl.unset fun hleft => hunleft (h.left hs hleft)
    · intro t hasleep
      rw [hlatch]
      rcases helse t with hsame | ⟨-, hnot, -⟩
      · exact hl.sleeps t (hsame.symm.trans hasleep)
      · exact absurd hasleep hnot
    · rw [hlatch]
      exact hl.noTimeouts
    · rw [hlatch]
      exact hl.rung

theorem Latched.along (hs : Shared g) (hl : Latched g) (hr : run g acts = some (g', e)) :
    Shared g' ∧ Latched g' :=
  run_effects (P := fun u _ _ => Latched u) hs hl (fun _ _ _ _ _ _ _ hs hl hd => hl.effect hs hd) hr

theorem run_latched (hr : run (ofCommand path operands mode) acts = some (g, e)) :
    Shared g ∧ Latched g :=
  ofCommand_latched.along (ofCommand_shared path operands mode) hr

theorem LatchStep.behind (h : LatchStep g g') (hb : BeforeLatch g' t) : BeforeLatch g t := by
  have hplace : ∀ {base : Gated} {x c s}, base.calls = g.calls → (t = x → BeforeLatch g t ∨
      s ≠ .approaching ∧ s ≠ .asleep) → BeforeLatch (base.place x c s) t → BeforeLatch g t := by
    intro base x c s hcalls hx hb
    unfold BeforeLatch at hb
    rw [pending?_place, pending?, hcalls, ← pending?] at hb
    split at hb
    · rename_i htx
      rcases hx htx with hbehind | ⟨happroaching, hasleep⟩
      · exact hbehind
      · simp [happroaching, hasleep] at hb
    · exact hb
  cases h with
  | notifies x c s inside leads =>
    refine hplace rfl (fun _ => .inr ?_) hb
    rcases leads with ⟨-, rfl⟩ | ⟨-, rfl⟩ <;> simp
  | slips x inside => exact hplace rfl (fun hx => .inl (.inl (hx ▸ inside))) hb
  | sleeps x inside => exact hplace rfl (fun hx => .inl (.inl (hx ▸ inside))) hb
  | wakes k riser bell => exact hplace rfl (fun _ => .inr (by simp)) hb
  | rings | turns | leaves => exact hb

theorem StepEffect.behind (h : StepEffect g a g' e) (hleft : g.phase ≠ .ready)
    (hb : BeforeLatch g' t) :
    BeforeLatch g t := by
  rcases h.staysOffLatch with hstirs | ⟨-, helse⟩
  · exact hstirs.behind hb
  · rcases helse t with hsame | ⟨-, hasleep, happroaching, -⟩
    · rwa [BeforeLatch, hsame] at hb
    · rcases hb with hb | hb
      · exact absurd (happroaching hb) hleft
      · exact absurd hb hasleep

/-- Somebody is about to set the latch, or it is set, or one of those who were behind has passed it. -/
def WakeSent (v w : Gated) : Prop :=
  (∃ t c, w.pending? t = some ⟨c, .notifying⟩) ∨ w.latch.isSet = true ∨
    ∃ t, BeforeLatch v t ∧ ¬ BeforeLatch w t

theorem LatchStep.wakeSent (hs : Shared g) (hsince : ∀ t, BeforeLatch g t → BeforeLatch v t)
    (ha : WakeSent v g) (h : LatchStep g g') : WakeSent v g' := by
  have hpassed : ∀ t, BeforeLatch v t → ¬ BeforeLatch g' t → WakeSent v g' := fun t hv hg' =>
    .inr (.inr ⟨t, hv, hg'⟩)
  have hbehind : ∀ {t}, BeforeLatch g' t → BeforeLatch g t := h.behind
  cases h with
  | notifies t c s => exact .inr (.inl rfl)
  | slips t inside => exact hpassed t (hsince t (.inl inside)) (by simp [BeforeLatch])
  | wakes k riser bell risen =>
    have hasleep := hs.sleeping _ ((Bell.rise_threads risen).subset List.mem_cons_self)
    exact hpassed _ (hsince _ (.inr hasleep)) (by simp [BeforeLatch])
  | sleeps t inside closed =>
    rcases ha with ⟨x, c, hin⟩ | hset | ⟨x, hv, hg⟩
    · refine .inl ⟨x, c, ?_⟩
      rw [pending?_place, if_neg]
      · exact hin
      · rintro rfl
        cases inside.symm.trans hin
    · cases hset.symm.trans closed
    · exact hpassed x hv fun hb => hg (hbehind hb)
  | rings b bell rung => exact ha
  | turns k riser bell risen closed => exact ha
  | leaves k riser bell risen closed => exact ha

theorem WakeSent.effect (hs : Shared g) (hleft : g.phase ≠ .ready)
    (hsince : ∀ t, BeforeLatch g t → BeforeLatch v t) (ha : WakeSent v g)
    (h : StepEffect g a g' e) :
    WakeSent v g' := by
  rcases h.staysOffLatch with hstirs | ⟨hlatch, helse⟩
  · exact hstirs.wakeSent hs hsince ha
  · rcases ha with ⟨t, c, hin⟩ | hset | ⟨t, hv, hg⟩
    · rcases helse t with hsame | ⟨⟨-, hnot⟩, -⟩
      · exact .inl ⟨t, c, hsame.trans hin⟩
      · exact absurd hin (hnot c)
    · exact .inr (.inl (hlatch ▸ hset))
    · exact .inr (.inr ⟨t, hv, fun hb => hg (h.behind hleft hb)⟩)

/-- From the moment on at which the child leaves its gate. -/
theorem run_wakeSent (hs : Shared v) (hleft : v.phase.Left)
    (hin : ∃ t c, v.pending? t = some ⟨c, .notifying⟩) (hr : run v acts = some (w, e)) :
    w.phase.Left ∧ (∀ t, BeforeLatch w t → BeforeLatch v t) ∧ WakeSent v w := by
  refine (run_effects (P := fun w _ _ => w.phase.Left ∧ (∀ t, BeforeLatch w t → BeforeLatch v t) ∧
    WakeSent v w)
    hs ⟨hleft, fun _ hb => hb, .inl hin⟩ ?_ hr).2
  intro acts x e a y e' _ hx hsofar hd
  obtain ⟨hlx, hsince, ha⟩ := hsofar
  have hready := (left_iff.mp hlx).2
  exact ⟨hd.left hx hlx, fun t hb => hsince t (hd.behind hready hb), ha.effect hx hready hsince hd⟩

/-- Nobody misses the release without another who was behind as well and has passed. -/
theorem MissedWake.second (hm : MissedWake w t) (ha : WakeSent v w) :
    ∃ t', t' ≠ t ∧ BeforeLatch v t' ∧ ¬ BeforeLatch w t' := by
  rcases ha with ⟨x, c, hin⟩ | hset | ⟨t', hv, hw⟩
  · exact absurd hin (hm.quiet x c)
  · cases hset.symm.trans hm.unset
  · refine ⟨t', ?_, hv, hw⟩
    rintro rfl
    exact hw (.inr hm.asleep)

/-- The child leaves its gate when a thread takes the lock, and is about to set the latch. -/
theorem Change.departs (hs : Shared g) (h : Change g a g' e) (hready : g.phase = .ready)
    (hleft : g'.phase ≠ .ready) : g'.phase.Left ∧ g'.latch = g.latch ∧
      ∃ t c, g'.pending? t = some ⟨c, .notifying⟩ := by
  cases h with
  | stages | answers | endsStart | signals | lives | rings | seizes => exact (hleft hready).elim
  | creates t pid idle free unborn => cases hready.symm.trans unborn
  | starts t => exact ⟨.inl rfl, rfl, t, .start, by simp⟩
  | kills t => exact ⟨.inr (.inl rfl), rfl, t, .kill, by simp⟩
  | reaps t c status x inside =>
    obtain ⟨-, hp⟩ := (hs.inside t _ inside).waits (.inr rfl)
    simp [hready, Phase.Left] at hp

theorem notifies_step (hin : g.pending? t = some ⟨c, .notifying⟩)
    (hleads : c = .start ∧ s = .releasing ∨ c = .kill ∧ s = .signaling) : g.step (.advance t) =
      some ({ g with latch := ⟨true, g.latch.bell.announce⟩ }.place t c s, []) := by
  rcases hleads with ⟨rfl, rfl⟩ | ⟨rfl, rfl⟩ <;> simp [step, advance, hin, Latch.step]

/-- A thread has come to a stage of awaiting, and the latch is unset. -/
structure ReachesStage (g g' : Gated) (t : Nat) (s : Stage) : Prop where
  comes : g'.pending? t = some ⟨.await, s⟩
  others : ∀ x, x ≠ t → g'.pending? x = g.pending? x
  phase : g'.phase = g.phase
  life : g'.life = g.life
  holder : g'.holder = g.holder
  unset : g'.latch.isSet = false

theorem ReachesStage.place {l : Latch} (hl : l.isSet = false) :
    ReachesStage g ({ g with latch := l }.place t .await s) t s := by
  refine ⟨by simp, ?_, rfl, rfl, rfl, hl⟩
  intro x hx
  rw [pending?_place, if_neg hx]
  rfl

/-- One that is behind an unset latch comes to sleep there. -/
theorem BeforeLatch.sleeps (hb : BeforeLatch g t) (hunset : g.latch.isSet = false) :
    ∃ acts g', run g acts = some (g', []) ∧ ReachesStage g g' t .asleep := by
  rcases hb with hin | hin
  · have hstep : g.step (.advance t) =
        some ({ g with latch := g.latch.sleep t false }.place t .await .asleep, []) := by
      simp [step, advance, hin, Latch.step, Latch.pass, hunset, afterLatch]
    exact ⟨[.advance t], _, Machine.run_cons.mpr ⟨_, _, _, hstep, rfl, rfl⟩, .place hunset⟩
  · exact ⟨[], g, rfl, hin, fun _ _ => rfl, rfl, rfl, rfl, hunset⟩

/-- One that is awake passes a latch that is set. -/
theorem awake_passes (hset : g.latch.isSet = true)
    (hawake : t ∈ g.latch.bell.awake.map Riser.thread) :
    ∃ k g', run g [.resume k] = some (g', []) ∧ ReachesStage g g' t .checking := by
  obtain ⟨k, riser, bell, hrisen, rfl⟩ := Bell.rise_of_mem hawake
  have hstep : g.step (.resume k) =
      some ({ g with latch := ⟨false, bell⟩ }.place riser.thread .await .checking, []) := by
    simp [step, Latch.step, Latch.pass, hrisen, hset, passed]
  exact ⟨k, _, Machine.run_cons.mpr ⟨_, _, _, hstep, rfl, rfl⟩, .place rfl⟩

/-- One that sleeps there does when a ring is due, if the ring is for it. -/
theorem asleep_passes (hset : g.latch.isSet = true) (hdue : 0 < g.latch.bell.due)
    (hbed : t ∈ g.latch.bell.threads) : ∃ acts g', run g acts = some (g', []) ∧
      (∀ a ∈ acts, ∃ k, a = .bell (.ring k) ∨ a = .resume k) ∧ ReachesStage g g' t .checking := by
  rcases List.mem_append.mp hbed with hasleep | hawake
  · obtain ⟨k, bell, hrung, hawake⟩ := Bell.ring_of_mem hasleep hdue
    have hstep : g.step (.bell (.ring k)) = some ({ g with latch := ⟨g.latch.isSet, bell⟩ }, []) := by
      simp [step, Latch.step, hrung]
    obtain ⟨j, g', hresume, hcomes⟩ :=
      awake_passes (g := { g with latch := ⟨g.latch.isSet, bell⟩ }) hset hawake
    refine ⟨[.bell (.ring k), .resume j], g', Machine.run_cons.mpr ⟨_, _, _, hstep, hresume, rfl⟩, ?_,
      hcomes.comes, hcomes.others, hcomes.phase, hcomes.life, hcomes.holder, hcomes.unset⟩
    simp
  · obtain ⟨k, g', hresume, hcomes⟩ := awake_passes hset hawake
    exact ⟨[.resume k], g', hresume, by simp, hcomes⟩

/-- While the latch is set, one of those who sleep there can pass with the rings that are due. -/
theorem Latched.lets (hl : Latched g) (hset : g.latch.isSet = true)
    (hasleep : g.pending? t = some ⟨.await, .asleep⟩) : ∃ t' acts g', run g acts = some (g', []) ∧
      (∀ a ∈ acts, ∃ k, a = .bell (.ring k) ∨ a = .resume k) ∧
      t' ∈ g.latch.bell.threads ∧ ReachesStage g g' t' .checking := by
  have hbed := hl.sleeps t hasleep
  cases hawake : g.latch.bell.awake with
  | nil =>
    have hdue : 0 < g.latch.bell.due := by
      rcases hl.rung hset with hnobody | hdue | hsome
      · simp [Bell.threads, hnobody, hawake] at hbed
      · exact hdue
      · exact absurd hawake hsome
    obtain ⟨acts, g', hr, hacts, hcomes⟩ := asleep_passes hset hdue hbed
    exact ⟨t, acts, g', hr, hacts, hbed, hcomes⟩
  | cons riser rest =>
    have hm : riser.thread ∈ g.latch.bell.awake.map Riser.thread := by simp [hawake]
    obtain ⟨k, g', hresume, hcomes⟩ := awake_passes hset hm
    exact ⟨riser.thread, [.resume k], g', hresume, by simp, List.mem_append_right _ hm, hcomes⟩

/-- Of two who are behind when the latch is about to be set, each may be the one who misses it. -/
theorem second_misses {n : Nat} (hs : Shared v) (hl : Latched v) (hleft : v.phase.Left)
    (hunset : v.latch.isSet = false) (hin : v.pending? n = some ⟨c, .notifying⟩) (hne : t' ≠ t)
    (ht : BeforeLatch v t) (ht' : BeforeLatch v t') :
    ∃ acts w, run v acts = some (w, []) ∧ MissedWake w t := by
  have hn : ∀ {x}, BeforeLatch v x → n ≠ x := by
    rintro x hx rfl
    simp [BeforeLatch, hin] at hx
  obtain ⟨s, hleads⟩ : ∃ s : Stage, c = .start ∧ s = .releasing ∨ c = .kill ∧ s = .signaling := by
    rcases ((hs.inside n _ hin).call : c = .start ∨ c = .kill) with hc | hc
    · exact ⟨.releasing, .inl ⟨hc, rfl⟩⟩
    · exact ⟨.signaling, .inr ⟨hc, rfl⟩⟩
  have hholds : Stage.holds s = true ∧ s ≠ .notifying := by
    rcases hleads with ⟨-, rfl⟩ | ⟨-, rfl⟩ <;> exact ⟨rfl, by simp⟩
  -- Both come to sleep, the latch is set, and the ring is for the other.
  obtain ⟨first, v₁, hr₁, h₁⟩ := ht.sleeps hunset
  have ht₁ : BeforeLatch v₁ t' := by
    rw [BeforeLatch, h₁.others t' hne]
    exact ht'
  obtain ⟨second, v₂, hr₂, h₂⟩ := ht₁.sleeps h₁.unset
  have hin₂ : v₂.pending? n = some ⟨c, .notifying⟩ := by
    rw [h₂.others n (hn ht'), h₁.others n (hn ht), hin]
  have hr₁₂ := Machine.run_append.mpr ⟨v₁, [], [], hr₁, hr₂, rfl⟩
  obtain ⟨-, hl₂⟩ := hl.along hs hr₁₂
  have hset := notifies_step hin₂ hleads
  obtain ⟨last, w, hr₃, -, h₃⟩ := asleep_passes (t := t')
    (g := { v₂ with latch := ⟨true, v₂.latch.bell.announce⟩ }.place n c s) rfl (Nat.succ_pos _)
    (hl₂.sleeps t' h₂.comes)
  have hrun := Machine.run_append.mpr
    ⟨v₂, [], [], hr₁₂, Machine.run_cons.mpr ⟨_, [], [], hset, hr₃, rfl⟩, rfl⟩
  obtain ⟨hsw, -⟩ := hl.along hs hrun
  have hnw : w.pending? n = some ⟨c, s⟩ := by
    rw [h₃.others n (hn ht'), pending?_place, if_pos rfl]
  refine ⟨_, w, hrun, ?_, ?_, ?_, h₃.unset⟩
  · have hphase : w.phase = v.phase := h₃.phase.trans (h₂.phase.trans h₁.phase)
    rw [hphase]
    exact hleft
  · intro x d hx
    -- Only one thread holds the lock, and that is past setting the latch.
    have hxheld := hsw.held x _ hx ((hsw.inside x _ hx).holds)
    have hnheld := hsw.held n _ hnw ((hsw.inside n _ hnw).holds.trans hholds.1)
    cases hxheld.symm.trans hnheld
    cases hx.symm.trans hnw
    exact hholds.2 rfl
  · rw [h₃.others t (Ne.symm hne), pending?_place, if_neg (Ne.symm (hn ht))]
    exact (h₂.others t (Ne.symm hne)).trans h₁.comes

theorem LatchStep.missedWake (hm : MissedWake g t) (h : LatchStep g g') :
    (∀ x c, g'.pending? x ≠ some ⟨c, .notifying⟩) ∧ g'.pending? t = some ⟨.await, .asleep⟩ ∧
      g'.latch.isSet = false := by
  cases h with
  | notifies x c s inside => exact absurd inside (hm.quiet x c)
  | slips x inside open_ => cases hm.unset.symm.trans open_
  | wakes k riser bell risen open_ => cases hm.unset.symm.trans open_
  | sleeps x inside closed =>
    refine ⟨?_, ?_, closed⟩
    · intro y c hy
      rw [pending?_place] at hy
      split at hy
      · cases hy
      · exact hm.quiet y c hy
    · rw [pending?_place]
      split
      · rfl
      · exact hm.asleep
  | rings b bell rung => exact ⟨hm.quiet, hm.asleep, hm.unset⟩
  | turns k riser bell risen closed => exact ⟨hm.quiet, hm.asleep, hm.unset⟩
  | leaves k riser bell risen closed => exact ⟨hm.quiet, hm.asleep, hm.unset⟩

theorem MissedWake.effect (hs : Shared g) (hm : MissedWake g t)
    (hover : g.phase = .killed ∨ g.phase = .terminated) (h : StepEffect g a g' e) :
    MissedWake g' t ∧ (g'.phase = .killed ∨ g'.phase = .terminated) := by
  have hover' : g'.phase = .killed ∨ g'.phase = .terminated := by
    rcases (h.change hs).phase_moves hs with hsame | hnext
    · rw [hsame]
      exact hover
    · rcases hover with hp | hp <;> rw [hp] at hnext
      · exact .inr hnext
      · exact hnext.elim
  have hleft := h.left hs hm.left
  rcases h.staysOffLatch with hstirs | ⟨hlatch, helse⟩
  · obtain ⟨hquiet, hasleep, hunset⟩ := hstirs.missedWake hm
    exact ⟨⟨hleft, hquiet, hasleep, hunset⟩, hover'⟩
  · refine ⟨⟨hleft, ?_, ?_, hlatch ▸ hm.unset⟩, hover'⟩
    · intro x c hx
      rcases helse x with hsame | ⟨-, -, -, hnotifying⟩
      · exact hm.quiet x c (hsame.symm.trans hx)
      · rcases hnotifying c hx with hp | hp <;> simp [hp] at hover
    · rcases helse t with hsame | ⟨⟨hnot, -⟩, -⟩
      · exact hsame.trans hm.asleep
      · exact absurd (.inr hm.asleep) hnot

theorem MissedWake.along (hs : Shared g) (hm : MissedWake g t)
    (hover : g.phase = .killed ∨ g.phase = .terminated) (hr : run g acts = some (g', e)) :
    MissedWake g' t :=
  (run_effects (P := fun u _ _ => MissedWake u t ∧ (u.phase = .killed ∨ u.phase = .terminated)) hs
    ⟨hm, hover⟩ (fun _ _ _ _ _ _ _ hs hu hd => hu.1.effect hs hu.2 hd) hr).2.1

/-- A child that has left its gate was there before, and left it in one step. -/
theorem run_startedFromGate (hr : run (ofCommand path operands mode) acts = some (g, e))
    (hleft : g.phase.Left) : ∃ before a after u v e₁ e₂ e₃, acts = before ++ a :: after ∧
      run (ofCommand path operands mode) before = some (u, e₁) ∧ u.phase = .ready ∧
      u.step a = some (v, e₂) ∧ v.phase.Left ∧ run v after = some (g, e₃) := by
  refine Machine.run_invariant (P := fun g acts _ => g.phase.Left →
    ∃ before a after u v e₁ e₂ e₃, acts = before ++ a :: after ∧
      run (ofCommand path operands mode) before = some (u, e₁) ∧ u.phase = .ready ∧
      u.step a = some (v, e₂) ∧ v.phase.Left ∧ run v after = some (g, e₃)) ?_ ?_ hr hleft
  · intro hnew
    rcases hnew with hp | hp | hp <;> cases hp
  · intro acts u e a v e' hu hsofar hstep hv
    by_cases hlu : u.phase.Left
    · obtain ⟨before, b, after, x, y, e₁, e₂, e₃, rfl, hx, hready, hb, hy, hrest⟩ := hsofar hlu
      have hlast : run u [a] = some (v, e' ++ []) := Machine.run_cons.mpr ⟨v, e', [], hstep, rfl, rfl⟩
      exact ⟨before, b, after ++ [a], x, y, e₁, e₂, _, by simp, hx, hready, hb, hy,
        Machine.run_append.mpr ⟨u, e₃, _, hrest, hlast, rfl⟩⟩
    · refine ⟨acts, a, [], u, v, e, e', [], rfl, hu, ?_, hstep, hv, rfl⟩
      have hs := run_shared hu
      rcases (step_change hs hstep).phase_moves hs with hsame | hnext
      · exact absurd (hsame ▸ hv) hlu
      · cases hp : u.phase with
        | ready => rfl
        | notStarted =>
          rw [hp] at hnext
          have hready : v.phase = .ready := hnext
          simp [hready, Phase.Left] at hv
        | running | killed | terminated => simp [hp, Phase.Left] at hlu

/-- What becomes of the threads that await the release of a child. -/
structure Admission (start : Gated) : Prop where
  /-- Whoever misses the release was behind when the child left its gate, and beside it another, who has
  passed the latch since. -/
  missedWake : ∀ acts g e t, run start acts = some (g, e) → MissedWake g t →
    ∃ before a after u v e₁ e₂ e₃ t', acts = before ++ a :: after ∧
      run start before = some (u, e₁) ∧ u.phase = .ready ∧ u.step a = some (v, e₂) ∧ v.phase.Left ∧
      run v after = some (g, e₃) ∧ t' ≠ t ∧ BeforeLatch v t ∧ BeforeLatch v t' ∧ ¬ BeforeLatch g t'
  /-- Of two who are behind then, each may be the one who misses it. -/
  misses : ∀ before a u v e₁ e₂ t t', run start before = some (u, e₁) → u.phase = .ready →
    u.step a = some (v, e₂) → v.phase ≠ .ready → t' ≠ t → BeforeLatch v t → BeforeLatch v t' →
    ∃ after w, run v after = some (w, []) ∧ MissedWake w t
  /-- Once the child is killed or reaped, nobody sets the latch for it any more. -/
  lost : ∀ acts g e t after g' e', run start acts = some (g, e) → MissedWake g t →
    g.phase = .killed ∨ g.phase = .terminated → run g after = some (g', e') → MissedWake g' t
  /-- While the latch is set, one of those who sleep there can pass with the rings that are due. -/
  lets : ∀ acts g e t, run start acts = some (g, e) → g.latch.isSet = true →
    g.pending? t = some ⟨.await, .asleep⟩ → ∃ t' after g', run g after = some (g', []) ∧
      (∀ a ∈ after, ∃ k, a = .bell (.ring k) ∨ a = .resume k) ∧
      g.pending? t' = some ⟨.await, .asleep⟩ ∧ g'.pending? t' = some ⟨.await, .checking⟩

/-- However many threads await a child that others start and kill: nobody misses the release but beside
another who was behind as well. -/
theorem awaiters_released_unless_beside_another (path : String) (operands : List String)
    (mode : KillMode) : Admission (ofCommand path operands mode) := by
  refine ⟨?_, ?_, ?_, ?_⟩
  · intro acts g e t hr hm
    obtain ⟨before, a, after, u, v, e₁, e₂, e₃, hacts, hu, hready, hstep, hleft, hrest⟩ :=
      run_startedFromGate hr hm.left
    have hs := run_shared hu
    have hc := step_change hs hstep
    obtain ⟨-, -, hin⟩ := hc.departs hs hready (left_iff.mp hleft).2
    obtain ⟨-, hsince, ha⟩ := run_wakeSent (hs.change hc) hleft hin hrest
    obtain ⟨t', hne, hv, hg⟩ := hm.second ha
    exact ⟨before, a, after, u, v, e₁, e₂, e₃, t', hacts, hu, hready, hstep, hleft, hrest, hne,
      hsince t (.inr hm.asleep), hv, hg⟩
  · intro before a u v e₁ e₂ t t' hu hready hstep hleft hne ht ht'
    obtain ⟨hs, hl⟩ := run_latched hu
    have hd := step_effect hs hstep
    have hc := hd.change hs
    obtain ⟨hv, hlatch, n, c, hin⟩ := hc.departs hs hready hleft
    have hunset : v.latch.isSet = false := by
      rw [hlatch]
      exact hl.unset (by simp [hready, Phase.Left])
    exact second_misses (hs.change hc) (hl.effect hs hd) hv hunset hin hne ht ht'
  · intro acts g e t after g' e' hr hm hover hmore
    exact hm.along (run_shared hr) hover hmore
  · intro acts g e t hr hset hasleep
    obtain ⟨hs, hl⟩ := run_latched hr
    obtain ⟨t', after, g', hmore, hafter, hbed, hcomes⟩ := hl.lets hset hasleep
    exact ⟨t', after, g', hmore, hafter, hs.sleeping t' hbed, hcomes.comes⟩

/-- Two threads sleep at the latch when a third starts the child, and the first of them may miss that. -/
theorem first_of_two_may_miss_release :
    let before : List Action := [.call 0 (.create (.ok 7)), .call 1 .await, .advance 1, .advance 1,
      .call 2 .await, .advance 2, .advance 2]
    ∃ u v e₁ e₂, run (ofCommand "/bin/true" [] .single) before = some (u, e₁) ∧
      u.step (.call 0 .start) = some (v, e₂) ∧ BeforeLatch v 1 ∧ BeforeLatch v 2 ∧
      ∃ after w, run v after = some (w, []) ∧ MissedWake w 1 := by
  intro before
  have hall := awaiters_released_unless_beside_another "/bin/true" [] .single
  refine ⟨_, _, _, _, rfl, rfl, .inr rfl, .inr rfl, ?_⟩
  exact hall.misses before (.call 0 .start) _ _ _ _ 1 2 rfl rfl rfl (by decide) (by decide) (.inr rfl)
    (.inr rfl)

/-- The first of two threads passes the latch and reaps the child, and the second sleeps on there. -/
theorem second_awaiter_misses_release :
    let acts : List Action := [.call 0 (.create (.ok 7)), .call 1 .await, .advance 1, .advance 1,
      .call 2 .await, .advance 2, .advance 2, .call 0 .start, .advance 0, .advance 0, .child .settle,
      .child .pass, .child (.execute none), .advance 0, .receive 0 4, .bell (.ring 0), .resume 0,
      .advance 1, .advance 1, .child (.exit 0), .advance 1, .advance 1]
    ∃ g e, run (ofCommand "/bin/true" [] .single) acts = some (g, e) ∧ g.phase = .terminated ∧
      g.latch.bell.due = 0 ∧ MissedWake g 2 := by
  refine ⟨_, _, rfl, rfl, rfl, .inr (.inr rfl), ?_, rfl, rfl⟩
  intro u c hu
  change [(2, Pending.mk .await .asleep)].lookup u = some ⟨c, .notifying⟩ at hu
  simp only [List.lookup_cons, List.lookup_nil] at hu
  split at hu <;> cases hu

end Corun.Child.Gated
