import Corun.Proofs.Run.Consulting

namespace Corun.Supervisor

variable {σ : Type} [Strategy σ] {v w : Supervisor σ} {s : σ} {e : List Entry} {stop : Stop}
  {stopped stopped' : Stop → Prop}

/-- The hook that the worker is inside, or is about to enter, stops the loop. -/
def StopsWith (v : Supervisor σ) (stop : Stop) : Prop :=
  (∃ s, v.worker = .ticking s ∧ (Strategy.tick s).result = .error stop) ∨
  ∃ s a inbox, v.worker = .draining s ∧ v.inbox = a :: inbox ∧
    (Strategy.handle a s).result = .error stop

theorem dispatch_error_iff {x : Announcement} :
    (dispatch x s).result = .error stop ↔ (Strategy.handle x s).result = .error stop := by
  rcases hr : (Strategy.handle x s).result with stop' | (_ | _) <;> simp [dispatch, hr]

/-- What the end of the worker tells of how the loop was stopped. -/
def Worker.Tells (stopped : Stop → Prop) : Worker σ → Prop
  | .exited _ (.error f) => ∀ stop, stopped stop ↔ stop = .failed f
  | .panicked => ∃ p, ∀ stop, stopped stop ↔ stop = .panicked p
  | _ => ∀ stop, ¬ stopped stop

omit [Strategy σ] in
theorem Worker.Tells.congr {worker : Worker σ} (h : worker.Tells stopped)
    (hsame : ∀ stop, stopped' stop ↔ stopped stop) : worker.Tells stopped' := by
  have heq : stopped' = stopped := funext fun stop => propext (hsame stop)
  exact heq ▸ h

theorem afterHook_tells {hook : Step σ Unit}
    (h : ∀ stop, stopped stop ↔ hook.result = .error stop) :
    (Worker.afterHook .draining hook).1.Tells stopped := by
  rcases afterHook_cases .draining hook with ⟨hr, hn⟩ | ⟨f, hr, hn⟩ | ⟨p, hr, hn⟩
  · rw [hn]
    intro stop hstop
    exact absurd ((h stop).mp hstop) (by simp [hr])
  · rw [hn]
    intro stop
    rw [h, hr, Except.error.injEq]
    exact eq_comm
  · rw [hn]
    refine ⟨p, fun stop => ?_⟩
    rw [h, hr, Except.error.injEq]
    exact eq_comm

/-- While it is not over, the worker goes on telling. -/
theorem Move.tells (h : Move v .work w e) (ht : v.worker.Tells stopped) :
    w.worker.Tells fun stop => stopped stop ∨ v.StopsWith stop := by
  cases h with
  | leaves s there | goesOn s there | ticks s there =>
    rw [there] at ht
    rintro stop (hstop | ⟨_, hw, _⟩ | ⟨_, _, _, hw, _⟩)
    · exact ht stop hstop
    · exact absurd (there.symm.trans hw) (by simp)
    · exact absurd (there.symm.trans hw) (by simp)
  | ticked s there =>
    rw [there] at ht
    have hno : ∀ stop, ¬ stopped stop := ht
    exact afterHook_tells fun stop => by simp [StopsWith, there, hno]
  | drained s there empty =>
    rw [there] at ht
    rintro stop (hstop | ⟨_, hw, _⟩ | ⟨_, _, _, _, hi, _⟩)
    · exact ht stop hstop
    · exact absurd (there.symm.trans hw) (by simp)
    · exact absurd (empty.symm.trans hi) (by simp)
  | hands s a inbox there next =>
    rw [there] at ht
    have hno : ∀ stop, ¬ stopped stop := ht
    exact afterHook_tells fun stop => by simp [StopsWith, there, next, hno, dispatch_error_iff]

/-- The worker leaves its loop by itself only when the run is over. -/
theorem Move.stays (h : Move v .work w e) (hopen : v.finished = false) :
    w.finished = false ∧ ∀ s, w.worker ≠ .exited s (.ok ()) := by
  have hafter : ∀ (hook : Step σ Unit) s,
      (Worker.afterHook .draining hook).1 ≠ .exited s (.ok ()) := by
    intro hook s
    rcases afterHook_cases .draining hook with ⟨-, hn⟩ | ⟨f, -, hn⟩ | ⟨q, -, hn⟩ <;> simp [hn]
  cases h with
  | leaves s there closed => exact absurd (hopen.symm.trans closed) (by simp)
  | goesOn | ticks | drained => exact ⟨hopen, by simp⟩
  | ticked s there => exact ⟨hopen, hafter _⟩
  | hands s a inbox there => exact ⟨hopen, hafter _⟩

/-- The worker gives nothing back by itself. -/
theorem Move.mute (h : Move v .work w e) (c : Call) (res : Result Unit) : .returned c res ∉ e := by
  have hafter : ∀ hook : Step σ Unit, .returned c res ∉ (Worker.afterHook .draining hook).2 := by
    intro hook
    obtain ⟨ns, hns⟩ := afterHook_entries .draining hook
    simp [hns]
  cases h with
  | leaves | goesOn | ticks | drained => simp
  | ticked s there => exact hafter _
  | hands s x inbox there next => simp [hafter]

theorem StopsWith.there (h : v.StopsWith stop) : v.worker ≠ .absent := by
  rcases h with ⟨s, hw, -⟩ | ⟨s, x, inbox, hw, -⟩ <;> simp [hw]

/-- What a loop that was stopped comes to. -/
def loopFailure (name : String) : Stop → Failure
  | .failed f => f.within (.supervising name)
  | .panicked _ => .ofCause (.monitorPanicked name)

end Corun.Supervisor

namespace Corun.Run

variable {σ : Type} [Strategy σ] {start r r' : Run σ} {a : Action} {e e' : List Entry}
  {p : Position} {acts : List Action} {stop : Stop} {v : Supervisor σ} {ve : List Supervisor.Entry}

/-- In a run, the loop of the supervisor was stopped. -/
def StoppedBy (start : Run σ) (acts : List Action) (stop : Stop) : Prop :=
  ∃ before after u e, acts = before ++ .work :: after ∧ run start before = some (u, e) ∧
    u.supervisor.StopsWith stop

theorem not_stoppedBy_nil : ¬ StoppedBy start [] stop := by
  rintro ⟨before, after, -, -, hacts, -⟩
  exact absurd hacts (by simp)

theorem stoppedBy_append (h : run start acts = some (r, e)) :
    StoppedBy start (acts ++ [a]) stop ↔
      StoppedBy start acts stop ∨ a = .work ∧ r.supervisor.StopsWith stop := by
  constructor
  · rintro ⟨before, after, u, ue, hacts, hu, hstops⟩
    rcases Machine.concat_eq_split.mp hacts with ⟨rfl, rfl, rfl⟩ | ⟨rest, -, rfl⟩
    · cases h.symm.trans hu
      exact .inr ⟨rfl, hstops⟩
    · exact .inl ⟨before, rest, u, ue, rfl, hu, hstops⟩
  · rintro (⟨before, after, u, ue, rfl, hu, hstops⟩ | ⟨rfl, hstops⟩)
    · exact ⟨before, after ++ [a], u, ue, by simp, hu, hstops⟩
    · exact ⟨acts, [], r, e, rfl, h, hstops⟩

theorem stoppedBy_unworked (h : run start acts = some (r, e)) (ha : a ≠ .work) (stop : Stop) :
    StoppedBy start (acts ++ [a]) stop ↔ StoppedBy start acts stop := by
  rw [stoppedBy_append h]
  simp [ha]

theorem StoppedBy.more (h : StoppedBy start acts stop) : StoppedBy start (acts ++ [a]) stop := by
  obtain ⟨before, after, u, e, rfl, hu⟩ := h
  exact ⟨before, after ++ [a], u, e, by simp, hu⟩

/-- Without a worker there is no loop to be stopped. -/
theorem stoppedBy_absent (h : run start acts = some (r, e)) (hw : r.supervisor.worker = .absent)
    (stop : Stop) : StoppedBy start (acts ++ [a]) stop ↔ StoppedBy start acts stop := by
  rw [stoppedBy_append h]
  exact or_iff_left fun hstops => hstops.2.there hw

/-- What there is to be known of the loop from where the manager and the worker are. -/
structure Heeded (start : Run σ) (acts : List Action) (r : Run σ) : Prop where
  quiet : r.position.isLaunch = true → ∀ stop, ¬ StoppedBy start acts stop
  tells : r.supervisor.worker ≠ .absent → r.supervisor.worker.Tells (StoppedBy start acts)
  open_ : r.position.isWatching = true →
    r.supervisor.finished = false ∧ ∀ s, r.supervisor.worker ≠ .exited s (.ok ())

/-- Nothing happens to the worker. -/
theorem Heeded.keeps (hh : Heeded start acts r) (hrun : run start acts = some (r, e))
    (h : Move r a r' e') (ha : a ≠ .work) (hworker : r'.supervisor.worker = r.supervisor.worker)
    (hfinished : r'.position.isWatching = true → r'.supervisor.finished = r.supervisor.finished) :
    Heeded start (acts ++ [a]) r' := by
  have hsame := stoppedBy_unworked hrun ha
  refine ⟨?_, ?_, ?_⟩
  · intro hl stop
    rw [hsame]
    exact hh.quiet (h.launch hl) stop
  · intro hthere
    rw [hworker] at hthere ⊢
    exact (hh.tells hthere).congr hsame
  · intro hl
    rw [hfinished hl, hworker]
    exact hh.open_ (h.watching hl)

theorem Heeded.consults (hh : Heeded start acts r) (hrun : run start acts = some (r, e))
    (h : Move r .manage r' e') (hc : Consult r r'.supervisor ve r'.position) :
    Heeded start (acts ++ [.manage]) r' := by
  have hsame := stoppedBy_unworked (a := .manage) hrun (by simp)
  have hkeeps := hh.keeps hrun h (by simp)
  generalize hv : r'.supervisor = v at hc hkeeps
  generalize hp : r'.position = p at hc hkeeps
  cases hc with
  | starts s here =>
    have hquiet := hh.quiet (by simp [here, Position.isLaunch, Position.phase])
    have hopen := hh.open_ (by simp [here, Position.isWatching, Position.phase])
    refine ⟨?_, ?_, ?_⟩
    · intro hl
      rw [hp] at hl
      cases hl
    · intro _
      have hworker : r'.supervisor.worker = .checking s := by rw [hv]
      rw [hworker]
      intro stop
      rw [hsame]
      exact hquiet stop
    · intro _
      rw [hv]
      exact ⟨hopen.1, by simp⟩
  | joins outcome s res | joinsPanicked outcome =>
    refine ⟨?_, ?_, ?_⟩
    · rw [hp]
      intro hl
      cases hl
    · rw [hv]
      intro hthere
      exact absurd rfl hthere
    · rw [hp]
      intro hl
      cases hl
  | setsUp | prepares | delivers | deliveryStops | prepared | startStops | finalizes
  | finalizesNone => exact hkeeps rfl fun _ => rfl

theorem Heeded.works (hh : Heeded start acts r) (hrun : run start acts = some (r, e))
    (hs : Stationed r) (hm : Supervisor.Move r.supervisor .work v ve) :
    Heeded start (acts ++ [.work]) { r with supervisor := v } := by
  have hthere := (work_keeps hm).2.2.1
  -- This step may be the one that stops the loop, so what stopped it is counted with it.
  have htells := hm.tells (hh.tells hthere)
  refine ⟨?_, ?_, ?_⟩
  · intro hl
    exact absurd (hs.unworked hl) hthere
  · intro _
    exact htells.congr fun stop => by simp [stoppedBy_append hrun]
  · intro hl
    exact hm.stays (hh.open_ hl).1

theorem Heeded.move (hh : Heeded start acts r) (hrun : run start acts = some (r, e))
    (hs : Stationed r) (h : Move r a r' e') : Heeded start (acts ++ [a]) r' := by
  have hmove := h
  cases h with
  | supervises va v ve due took | supervised va v ve res due took =>
    obtain ⟨ve', hc, -⟩ := hs.asked due hmove
    exact hh.consults hrun hmove hc
  | works v ve took => exact hh.works hrun hs (Supervisor.step_move hs.placed took)
  | ends p lines leads =>
    refine hh.keeps hrun hmove (by simp) rfl ?_
    intro hl
    cases leads <;> cases hl
  | jumps | creates | createFails | enlists | enlistFails | drives | arms | polls | disarms | disarmed
  | drains | childMoves | publishes | alarmMoves => exact hh.keeps hrun hmove (by simp) rfl fun _ => rfl

theorem Fresh.heeded (hf : Fresh start) (h : run start acts = some (r, e)) : Heeded start acts r := by
  refine hf.run_moves (P := fun u acts _ => Heeded start acts u) ?_ ?_ h
  · obtain ⟨s, spawn, hv⟩ := hf.supervisor
    refine ⟨fun _ _ => not_stoppedBy_nil, ?_, ?_⟩
    · simp [hv, Supervisor.create]
    · simp [hv, Supervisor.create]
  · intro acts u e a w e' hrun _ hs hh hmoved
    exact hh.move hrun hs hmoved

theorem Consult.named (h : Consult r v ve p) : v.name = r.supervisor.name := by
  cases h <;> rfl

theorem Move.named (hs : Stationed r) (h : Move r a r' e') :
    r'.supervisor.name = r.supervisor.name := by
  cases h with
  | supervises va v ve due took | supervised va v ve _ due took => exact (hs.consult due took).named
  | works v ve took => cases Supervisor.step_move hs.placed took <;> rfl
  | _ => rfl

theorem Fresh.named (hf : Fresh start) (h : run start acts = some (r, e)) :
    r.supervisor.name = start.supervisor.name := by
  refine hf.run_moves (P := fun u _ _ => u.supervisor.name = start.supervisor.name) rfl ?_ h
  intro acts u e a w e' _ _ hs hnamed hmoved
  exact (hmoved.named hs).trans hnamed

/-- While the flag is not raised, a worker is gone only if its loop was stopped. -/
theorem Heeded.gone (hh : Heeded start acts r) (hl : r.position.isWatching = true)
    (hgone : r.supervisor.hasStopped = true) : ∃ stop, StoppedBy start acts stop := by
  have htells := hh.tells
  have hopen := (hh.open_ hl).2
  cases hw : r.supervisor.worker with
  | exited s res =>
    rw [hw] at htells hopen
    cases res with
    | ok u => exact absurd rfl (hopen s)
    | error f => exact ⟨.failed f, (htells (by simp) _).mpr rfl⟩
  | panicked =>
    rw [hw] at htells
    obtain ⟨q, hq⟩ := htells (by simp)
    exact ⟨.panicked q, (hq _).mpr rfl⟩
  | absent | checking | entering | ticking | draining => simp [Supervisor.hasStopped, hw] at hgone

/-- What joining the worker is to come to. -/
def Joined (start : Run σ) (acts : List Action) : Result Unit → Prop
  | .ok () => ∀ stop, ¬ StoppedBy start acts stop
  | .error x => ∃ stop, x = .failed (Supervisor.loopFailure start.supervisor.name stop) ∧
    ∀ s, StoppedBy start acts s ↔ s = stop

theorem Joined.congr {acts' : List Action} {joined : Result Unit} (h : Joined start acts joined)
    (hsame : ∀ stop, StoppedBy start acts' stop ↔ StoppedBy start acts stop) :
    Joined start acts' joined := by
  cases joined with
  | ok u =>
    intro stop
    rw [hsame]
    exact h stop
  | error x =>
    obtain ⟨stop, hx, hstop⟩ := h
    exact ⟨stop, hx, fun s => (hsame s).trans (hstop s)⟩

theorem Heeded.joins {s : σ} {res : Except Failure Unit} (hh : Heeded start acts r)
    (hnamed : r.supervisor.name = start.supervisor.name) (hw : r.supervisor.worker = .exited s res) :
    Joined start acts (Result.within (.supervising r.supervisor.name) (Result.ofExcept res)) := by
  have htells := hh.tells (by simp [hw])
  rw [hw] at htells
  rw [hnamed]
  cases res with
  | ok u => exact htells
  | error f => exact ⟨.failed f, rfl, htells⟩

theorem Heeded.joinsPanicked (hh : Heeded start acts r)
    (hnamed : r.supervisor.name = start.supervisor.name) (hw : r.supervisor.worker = .panicked) :
    Joined start acts (Result.fail (.monitorPanicked r.supervisor.name)) := by
  have htells := hh.tells (by simp [hw])
  rw [hw] at htells
  obtain ⟨q, hq⟩ := htells
  rw [hnamed]
  exact ⟨.panicked q, rfl, hq⟩

end Corun.Run
