import Corun.Proofs.Supervisor.Delivery

namespace Corun.Supervisor

variable {σ : Type} [Strategy σ] {u v w : Supervisor σ} {s : σ} {a : Action} {e : List Entry}
  {acts : List Action}

/-- The worker has seen the flag down and has not been through the drain after that. -/
def InRound (v : Supervisor σ) : Prop :=
  ∃ s, v.worker = .entering s ∨ v.worker = .ticking s ∨ v.worker = .draining s

/-- Before the end of prepare, or in a round, a drain is to come that the end of the run does not
stop. -/
def DrainAhead (v : Supervisor σ) : Prop :=
  v.stage = .uninitialized ∨ v.stage = .initialized ∨ v.preparing = true ∨ InRound v

/-- Prepare is through. -/
def Primed (v : Supervisor σ) : Prop :=
  v.stage ≠ .uninitialized ∧ v.stage ≠ .initialized ∧ v.preparing = false

omit [Strategy σ] in
theorem Primed.inRound (hv : Primed v) (hd : DrainAhead v) : InRound v := by
  obtain ⟨hnew, hinitialized, hidle⟩ := hv
  rcases hd with hstage | hstage | hinside | hround
  · exact absurd hstage hnew
  · exact absurd hstage hinitialized
  · cases hinside.symm.trans hidle
  · exact hround

theorem Primed.move (hv : Primed v) (hm : Move v a w e) : Primed w := by
  obtain ⟨hnew, hinitialized, hidle⟩ := hv
  cases hm with
  | setsUp s stage => exact absurd stage hnew
  | prepares stage => exact absurd stage hinitialized
  | prepared s stage | deliveryStops s a inbox stop stage =>
    exact ⟨by simp [stage], by simp [stage], rfl⟩
  | starts | startFails | joinsNone | joins | joinsPanicked | finalizes | finalizesNone =>
    exact ⟨by simp, by simp, hidle⟩
  | posts | ends | refuses | delivers | leaves | goesOn | ticks | ticked | drained | hands =>
    exact ⟨hnew, hinitialized, hidle⟩

theorem Primed.run (hv : Primed v) (hp : Placed v) (h : run v acts = some (w, e)) : Primed w :=
  run_moves (P := fun u _ _ => Primed u) hp hv (fun _ _ _ _ _ _ _ _ hu hm => hu.move hm) h

@[simp] theorem returned_not_mem_afterHook (next : σ → Worker σ) (hook : Step σ Unit) (c : Call)
    (r : Result Unit) : .returned c r ∉ (Worker.afterHook next hook).2 := by
  obtain ⟨ns, hns⟩ := afterHook_entries next hook
  simp [hns]

theorem prepared_primed (hm : Move v a w e) (hr : .returned .prepare (.ok ()) ∈ e) : Primed w := by
  cases hm with
  | prepared s stage inside held empty => exact ⟨by simp [stage], by simp [stage], rfl⟩
  | refuses c idle early => simp [Result.panics] at hr
  | _ => simp [notes] at hr

/-- Once prepare came back well it stays behind. -/
theorem run_primed (hp : Placed v) (h : run v acts = some (w, e))
    (hr : .returned .prepare (.ok ()) ∈ e) : Primed w := by
  obtain ⟨first, a, rest, x, y, e₁, e₂, e₃, rfl, hfirst, ha, hrest, rfl, hmem⟩ :=
    Machine.step_of_mem_run h hr
  have hpx := hp.run hfirst
  exact (prepared_primed (step_move hpx ha) hmem).run (hpx.step ha) hrest

/-- Prepare comes back well when it has handed out all that was there. -/
theorem run_prepared (hp : Placed v) (h : run v acts = some (w, e))
    (hr : .returned .prepare (.ok ()) ∈ e) : v.inbox <+: handled e := by
  obtain ⟨first, a, rest, x, y, e₁, e₂, e₃, rfl, hfirst, ha, _, rfl, hmem⟩ :=
    Machine.step_of_mem_run h hr
  have hempty := move_prepared (step_move (hp.run hfirst) ha) hmem
  have hconserved := run_conserves hp hfirst
  rw [hempty, List.append_nil] at hconserved
  rw [handled_append, handled_append, hconserved, List.append_assoc, List.append_assoc]
  exact List.prefix_append _ _

/-- A join of this worker does not come back well, or has come back. -/
def Fallen (v : Supervisor σ) : Prop :=
  (∃ s f, v.worker = .exited s (.error f)) ∨ v.worker = .panicked ∨ v.stage = .joined ∨
    v.stage = .finalized

omit [Strategy σ] in
theorem Fallen.over (hv : Fallen v) : Over v := by
  rcases hv with ⟨s, f, hw⟩ | hrest
  · exact .inl ⟨s, .error f, hw⟩
  · exact .inr hrest

theorem Fallen.move (hv : Fallen v) (hp : Placed v) (hm : Move v a w e) : Fallen w := by
  have hw := hv.over.worker hp
  have hlate := hv.over.stage hp
  cases hm with
  | posts | ends | refuses => exact hv
  | joinsNone | joins | joinsPanicked => exact .inr (.inr (.inl rfl))
  | finalizes | finalizesNone => exact .inr (.inr (.inr rfl))
  | setsUp s stage | prepares stage | starts s stage | startFails s f stage | prepared s stage
  | delivers s a inbox stage | deliveryStops s a inbox stop stage => simp [stage] at hlate
  | leaves s there | goesOn s there | ticks s there | ticked s there | drained s there
  | hands s a inbox there => simp [there] at hw

theorem afterHook_inRound (hook : Step σ Unit) (inbox : List Announcement) :
    InRound { v with inbox := inbox, worker := (Worker.afterHook .draining hook).1 } ∨
      Fallen { v with inbox := inbox, worker := (Worker.afterHook .draining hook).1 } := by
  rcases afterHook_cases .draining hook with ⟨_, hn⟩ | ⟨f, _, hn⟩ | ⟨p, _, hn⟩
  · exact .inl ⟨_, .inr (.inr hn)⟩
  · exact .inr (.inl ⟨_, _, hn⟩)
  · exact .inr (.inr (.inl hn))

/-- A round goes on, ends badly, or ends where nothing is in the inbox. -/
theorem InRound.move (hv : InRound v) (hp : Placed v) (hm : Move v a w e) :
    InRound w ∨ Fallen w ∨ v.inbox = [] := by
  obtain ⟨s, hs⟩ := hv
  have hworker : v.worker ≠ .absent := by rcases hs with hs | hs | hs <;> simp [hs]
  obtain ⟨hstage, hidle, hnone⟩ := hp.running hworker
  cases hm with
  | posts | ends | refuses => exact .inl ⟨s, hs⟩
  | ticks t there => exact .inl ⟨t, .inr (.inl rfl)⟩
  | ticked t there =>
    rcases afterHook_inRound (v := v) (Strategy.tick t) v.inbox with hround | hfallen
    · exact .inl hround
    · exact .inr (.inl hfallen)
  | hands t a inbox there next =>
    rcases afterHook_inRound (v := v) (dispatch a t) inbox with hround | hfallen
    · exact .inl hround
    · exact .inr (.inl hfallen)
  | drained t there empty => exact .inr (.inr empty)
  | leaves t there | goesOn t there | joins t r _ there => simp [there] at hs
  | joinsNone _ there | joinsPanicked _ there => simp [there] at hs
  | setsUp t stage | prepares stage | starts t stage | startFails t f stage | prepared t stage
  | delivers t a inbox stage | deliveryStops t a inbox stop stage | finalizes t stage
  | finalizesNone stage => cases hstage.symm.trans stage

theorem InRound.run (hv : InRound v) (hp : Placed v) (h : run v acts = some (w, e)) :
    InRound w ∨ Fallen w ∨ v.inbox <+: handled e := by
  refine run_moves (P := fun u _ e => InRound u ∨ Fallen u ∨ v.inbox <+: handled e) hp
    (.inl hv) ?_ h
  intro acts u e a w e' hu hpu hsofar hm
  rcases hsofar with hround | hfallen | hall
  · rcases hround.move hpu hm with hround | hfallen | hempty
    · exact .inl hround
    · exact .inr (.inl hfallen)
    · -- With an empty inbox, what has been handed out is all that there was and all that came.
      have hconserved := run_conserves hp hu
      rw [hempty, List.append_nil] at hconserved
      refine .inr (.inr ?_)
      rw [handled_append, hconserved, List.append_assoc]
      exact List.prefix_append _ _
  · exact .inr (.inl (hfallen.move hpu hm))
  · refine .inr (.inr (hall.trans ?_))
    rw [handled_append]
    exact List.prefix_append _ _

/-- Join comes back well only of a worker that left the loop where the flag was up. -/
theorem move_joined (hm : Move v a w e) (hr : .returned .join (.ok ()) ∈ e) :
    v.stage = .running ∧ ∃ s, v.worker = .exited s (.ok ()) := by
  cases hm with
  | joins s r stage there =>
    cases r with
    | ok u => exact ⟨stage, s, there⟩
    | error f => simp [Result.ofExcept, Result.within] at hr
  | refuses c idle early => simp [Result.panics] at hr
  | joinsNone | joinsPanicked => simp [Result.fail] at hr
  | _ => simp [notes] at hr

theorem round_drained (hv : InRound v) (hp : Placed v) (h : run v acts = some (w, e))
    (hr : .returned .join (.ok ()) ∈ e) : v.inbox <+: handled e := by
  obtain ⟨first, a, rest, x, y, e₁, e₂, e₃, rfl, hfirst, ha, _, rfl, hmem⟩ :=
    Machine.step_of_mem_run h hr
  obtain ⟨hstage, s, hs⟩ := move_joined (step_move (hp.run hfirst) ha) hmem
  rcases hv.run hp hfirst with ⟨t, ht⟩ | hfallen | hall
  · simp [hs] at ht
  · simp [Fallen, hs, hstage] at hfallen
  · refine hall.trans ?_
    rw [handled_append, handled_append, List.append_assoc]
    exact List.prefix_append _ _

/-- The end of the run is seen before another round begins. -/
theorem ended_move (hf : v.finished = true) (hd : ¬ DrainAhead v) (hm : Move v a w e) :
    (w.finished = true ∧ ¬ DrainAhead w) ∧ handled e = [] := by
  have hcases := hd
  simp only [DrainAhead, InRound, not_or, not_exists] at hcases
  obtain ⟨hnew, hinitialized, hidle, hround⟩ := hcases
  cases hm with
  | posts => exact ⟨⟨hf, hd⟩, rfl⟩
  | ends => exact ⟨⟨rfl, hd⟩, rfl⟩
  | refuses => exact ⟨⟨hf, hd⟩, rfl⟩
  | starts s | startFails s | joinsNone | joins | joinsPanicked | finalizes | finalizesNone =>
    refine ⟨⟨hf, ?_⟩, by simp [handled]⟩
    simp_all [DrainAhead, InRound]
  | leaves s there closed =>
    refine ⟨⟨hf, ?_⟩, rfl⟩
    simp_all [DrainAhead, InRound]
  | goesOn s there open_ => cases hf.symm.trans open_
  | setsUp s stage => exact absurd stage hnew
  | prepares stage => exact absurd stage hinitialized
  | prepared s stage inside | delivers s a inbox stage inside
  | deliveryStops s a inbox stop stage inside => exact absurd inside hidle
  | ticks s there => exact absurd there (hround s).1
  | ticked s there => exact absurd there (hround s).2.1
  | drained s there | hands s a inbox there => exact absurd there (hround s).2.2

theorem ended_run (hp : Placed v) (hf : v.finished = true) (hd : ¬ DrainAhead v)
    (h : run v acts = some (w, e)) : handled e = [] := by
  have hrun : (w.finished = true ∧ ¬ DrainAhead w) ∧ handled e = [] := by
    refine run_moves (P := fun u _ e => (u.finished = true ∧ ¬ DrainAhead u) ∧ handled e = []) hp
      ⟨⟨hf, hd⟩, rfl⟩ ?_ h
    intro acts u e a w e' _ _ hsofar hm
    obtain ⟨⟨hfu, hdu⟩, hnone⟩ := hsofar
    obtain ⟨hw, hlast⟩ := ended_move hfu hdu hm
    exact ⟨hw, by rw [handled_append, hnone, hlast, List.append_nil]⟩
  exact hrun.2

/-- When prepare and join came back well, what was posted before the run was ended is all handed out
if a drain was ahead then, or if nothing was left to hand out. If no drain was ahead, what was in the
inbox stays there, with all that is posted later. -/
theorem posted_before_end_handed_out_iff (s : σ) (spawn : Except Failure Unit)
    {before after : List Action} {u v : Supervisor σ} {e₁ e₂ : List Entry}
    (hbefore : run (create s spawn) before = some (u, e₁))
    (hafter : run u (.endRun :: after) = some (v, e₂))
    (hprepared : .returned .prepare (.ok ()) ∈ e₁ ++ e₂)
    (hjoined : .returned .join (.ok ()) ∈ e₂) :
    (posted before <+: handled (e₁ ++ e₂) ↔ DrainAhead u ∨ u.inbox = []) ∧
      (¬ DrainAhead u → handled (e₁ ++ e₂) = handled e₁ ∧ v.inbox = u.inbox ++ posted after) := by
  have hp := create_placed s spawn
  have hpu := hp.run hbefore
  have hposted : handled e₁ ++ u.inbox = posted before := by
    simpa [create] using run_conserves hp hbefore
  have hleft : ¬ DrainAhead u →
      handled (e₁ ++ e₂) = handled e₁ ∧ v.inbox = u.inbox ++ posted after := by
    intro hd
    obtain ⟨x, f₁, f₂, hend, hrest, rfl⟩ := Machine.run_cons.mp hafter
    have hpx := hpu.step hend
    cases hend
    have hnone := ended_run hpx rfl hd hrest
    have hconserved := run_conserves hpx hrest
    rw [hnone, List.nil_append] at hconserved
    exact ⟨by simp [hnone], hconserved⟩
  refine ⟨?_, hleft⟩
  rw [← hposted]
  constructor
  · intro hall
    by_cases hd : DrainAhead u
    · exact .inl hd
    · rw [(hleft hd).1] at hall
      have hlength := hall.length_le
      rw [List.length_append] at hlength
      exact .inr (List.eq_nil_of_length_eq_zero (by omega))
  · intro hahead
    rw [handled_append, List.prefix_append_right_inj]
    rcases hahead with hd | hempty
    · rcases List.mem_append.mp hprepared with hsooner | hlater
      · exact round_drained ((run_primed hp hbefore hsooner).inRound hd) hpu hafter hjoined
      · exact run_prepared hpu hafter hlater
    · rw [hempty]
      exact List.nil_prefix

/-- The run is ended inside a tick, after which the worker still hands out both announcements and
leaves a third, that was posted after its last drain. -/
theorem posted_before_end_handed_out_in_round :
    let start : Supervisor Strategy.Script := create { name := "script" }
    let before : List Action :=
      [.call .setUp, .call .prepare, .deliver, .call .start, .post (.created 1), .work, .work,
        .post (.created 2)]
    let after : List Action :=
      [.work, .work, .work, .work, .post (.created 3), .work, .call .join]
    ∃ u v e₁ e₂, run start before = some (u, e₁) ∧ run u (.endRun :: after) = some (v, e₂) ∧
      posted before <+: handled (e₁ ++ e₂) ∧ v.inbox = [.created 3] := by
  intro start before after
  obtain ⟨u, v, e₁, e₂, hu, hv, hprepared, hjoined, hround, hleft⟩ : ∃ u v e₁ e₂,
      run start before = some (u, e₁) ∧ run u (.endRun :: after) = some (v, e₂) ∧
      .returned .prepare (.ok ()) ∈ e₁ ++ e₂ ∧ .returned .join (.ok ()) ∈ e₂ ∧
      InRound u ∧ v.inbox = [.created 3] :=
    ⟨_, _, _, _, rfl, rfl, List.mem_append_left _ (List.mem_of_getElem? (i := 5) rfl),
      List.mem_of_getLast? rfl, ⟨_, .inr (.inl rfl)⟩, rfl⟩
  have hall := (posted_before_end_handed_out_iff _ _ hu hv hprepared hjoined).1
  exact ⟨u, v, e₁, e₂, hu, hv, hall.mpr (.inl (.inr (.inr (.inr hround)))), hleft⟩

/-- Every call comes back well, and yet what was posted between prepare and the end of the run, before
the worker was started, is never handed out. -/
theorem end_before_start_leaves_announcement :
    let start : Supervisor Strategy.Script := create { name := "script" }
    let before : List Action := [.call .setUp, .call .prepare, .deliver, .post (.created 1)]
    let after : List Action := [.call .start, .work, .call .join]
    ∃ u v e₁ e₂, run start before = some (u, e₁) ∧ run u (.endRun :: after) = some (v, e₂) ∧
      (∀ c r, .returned c r ∈ e₁ ++ e₂ → r = .ok ()) ∧ .returned .join (.ok ()) ∈ e₂ ∧
      ¬ posted before <+: handled (e₁ ++ e₂) ∧ v.inbox = [.created 1] := by
  intro start before after
  refine ⟨_, _, _, _, rfl, rfl, ?_, List.mem_of_getLast? rfl, ?_, rfl⟩
  · intro c r hr
    change .returned c r ∈ [Entry.hook .setUp, .note (.recorded "initialize"),
      .returned .setUp (.ok ()), .hook .prepare, .note (.recorded "prepare"),
      .returned .prepare (.ok ()), .returned .start (.ok ()), .returned .join (.ok ())] at hr
    simp only [List.mem_cons, reduceCtorEq, Entry.returned.injEq, List.not_mem_nil, false_or,
      or_false] at hr
    rcases hr with ⟨_, hr⟩ | ⟨_, hr⟩ | ⟨_, hr⟩ | ⟨_, hr⟩ <;> exact hr
  · decide

end Corun.Supervisor
