import Corun.Proofs.Supervisor.Trace
import Corun.Strategy.Script

namespace Corun.Supervisor

variable {σ : Type} [Strategy σ] {v w : Supervisor σ} {s : σ} {a : Action} {e : List Entry}
  {acts : List Action}

/-- What is in the inbox or comes into it is handed out in order or still in it. -/
theorem move_conserves (hm : Move v a w e) : handled e ++ w.inbox = v.inbox ++ posted [a] := by
  cases hm with
  | posts a => rfl
  | delivers s a inbox stage inside held next passed => simp [handled, posted, next]
  | deliveryStops s a inbox stop stage inside held next stopped => simp [handled, posted, next]
  | hands s a inbox there next => simp [handled, posted, next]
  | _ => simp [handled, posted]

theorem run_conserves (hp : Placed v) (h : run v acts = some (w, e)) :
    handled e ++ w.inbox = v.inbox ++ posted acts := by
  refine run_moves (P := fun u acts e => handled e ++ u.inbox = v.inbox ++ posted acts) hp
    (by simp) ?_ h
  intro acts u e a w e' _ _ hsofar hm
  calc handled (e ++ e') ++ w.inbox
      = handled e ++ (handled e' ++ w.inbox) := by rw [handled_append, List.append_assoc]
    _ = (handled e ++ u.inbox) ++ posted [a] := by rw [move_conserves hm, List.append_assoc]
    _ = v.inbox ++ posted (acts ++ [a]) := by rw [hsofar, List.append_assoc, posted_append]

/-- Prepare comes back well only when it has found the inbox empty. -/
theorem move_prepared (hm : Move v a w e) (hr : .returned .prepare (.ok ()) ∈ e) :
    v.inbox = [] := by
  cases hm with
  | prepared s stage inside held empty => exact empty
  | refuses c idle early => simp [Result.panics] at hr
  | ticked s there =>
    obtain ⟨ns, hns⟩ := afterHook_entries .draining (Strategy.tick s)
    simp [hns] at hr
  | hands s a inbox there next =>
    obtain ⟨ns, hns⟩ := afterHook_entries .draining (dispatch a s)
    simp [hns] at hr
  | _ => simp [notes] at hr

/-- A worker that was handing out goes on, has come to its end, or has handed out all that was there. -/
theorem run_drains (hp : Placed v) (hd : v.worker = .draining s) (hr : run v acts = some (w, e)) :
    (∃ t, w.worker = .draining t) ∨ Over w ∨ v.inbox <+: handled e := by
  refine run_moves
    (P := fun u _ e => (∃ t, u.worker = .draining t) ∨ Over u ∨ v.inbox <+: handled e) hp
    (.inl ⟨s, hd⟩) ?_ hr
  rintro acts u e a w e' hu hpu (⟨t, ht⟩ | hover | hall) hm
  · obtain ⟨hstage, hidle, _⟩ := hpu.running (by simp [ht])
    cases hm with
    | posts a => exact .inl ⟨t, ht⟩
    | ends => exact .inl ⟨t, ht⟩
    | refuses c idle early => exact .inl ⟨t, ht⟩
    | drained s' there empty =>
      -- With an empty inbox, what has been handed out is all that there was and all that came.
      have hconserved := run_conserves hp hu
      rw [empty, List.append_nil] at hconserved
      exact .inr (.inr (by simp [hconserved]))
    | hands s' a inbox there next =>
      rcases afterHook_cases .draining (dispatch a s') with ⟨_, hn⟩ | ⟨f, _, hn⟩ | ⟨p, _, hn⟩
      · exact .inl ⟨_, hn⟩
      · exact .inr (.inl (.inl ⟨_, _, hn⟩))
      · exact .inr (.inl (.inr (.inl hn)))
    | setsUp s stage | prepares stage | starts s stage | startFails s f stage | prepared s stage
    | joinsNone stage | joins s r stage | joinsPanicked stage | finalizes s stage
    | finalizesNone stage | delivers s a inbox stage | deliveryStops s a inbox stop stage =>
      simp_all
    | leaves s there | goesOn s there | ticks s there | ticked s there => cases ht.symm.trans there
  · exact .inr (.inl (hover.move hpu hm).1)
  · refine .inr (.inr (hall.trans ?_))
    rw [handled_append]
    exact List.prefix_append _ _

/-- What was handed out, and then what is in the inbox, is what was posted. When prepare comes back
well, or the worker is through with handing out, all that was posted before is handed out. -/
theorem announcements_handed_out_in_order (s : σ) (spawn : Except Failure Unit) :
    (∀ acts v e, run (create s spawn) acts = some (v, e) → handled e ++ v.inbox = posted acts) ∧
    ∀ before during u v e₁ e₂, run (create s spawn) before = some (u, e₁) →
      run u during = some (v, e₂) →
      (.returned .prepare (.ok ()) ∈ e₂ ∨
        ((∃ t, u.worker = .draining t) ∧ ∃ t, v.worker = .checking t)) →
      posted before <+: handled (e₁ ++ e₂) := by
  have hp := create_placed s spawn
  have hall : ∀ acts v e, run (create s spawn) acts = some (v, e) →
      handled e ++ v.inbox = posted acts := fun _ _ _ h => run_conserves hp h
  refine ⟨hall, ?_⟩
  intro before during u v e₁ e₂ hbefore hduring hend
  have hposted := hall before u e₁ hbefore
  rw [← hposted, handled_append]
  refine (List.prefix_append_right_inj _).mpr ?_
  rcases hend with hreturned | ⟨⟨t, hd⟩, ⟨t', hv⟩⟩
  · obtain ⟨first, a, rest, x, y, f₁, f₂, f₃, rfl, hfirst, ha, _, rfl, hmem⟩ :=
      Machine.step_of_mem_run hduring hreturned
    have hpx := (hp.run hbefore).run hfirst
    -- With an empty inbox, what has been handed out is all that there was.
    have hempty := move_prepared (step_move hpx ha) hmem
    have hconserved := run_conserves (hp.run hbefore) hfirst
    rw [hempty, List.append_nil] at hconserved
    rw [List.append_assoc, handled_append, hconserved, List.append_assoc]
    exact List.prefix_append _ _
  · rcases run_drains (hp.run hbefore) hd hduring with ⟨t'', ht⟩ | hover | hdrained
    · cases hv.symm.trans ht
    · simpa [hv] using hover.worker ((hp.run hbefore).run hduring)
    · exact hdrained

/-- The handler of the second announcement fails, so that prepare leaves the third in the inbox; it is
the worker that hands it out, and the fourth. -/
theorem announcements_handed_out_after_failure :
    let start : Supervisor Strategy.Script :=
      create { name := "script", handlers := [(2, { outcome := .fails "refused" })] }
    let before : List Action :=
      [.post (.created 1), .call .setUp, .post (.created 2), .post (.created 3), .call .prepare,
        .deliver, .deliver, .call .start, .work, .work, .work]
    let during : List Action := [.work, .post (.created 4), .work, .work]
    ∃ u v e₁ e₂, run start before = some (u, e₁) ∧ run u during = some (v, e₂) ∧
      handled e₁ ++ u.inbox = posted before ∧ posted before <+: handled (e₁ ++ e₂) := by
  intro start before during
  obtain ⟨hall, hthen⟩ := announcements_handed_out_in_order
    ({ name := "script", handlers := [(2, { outcome := .fails "refused" })] } : Strategy.Script)
    (.ok ())
  refine ⟨_, _, _, _, rfl, rfl, hall before _ _ rfl, ?_⟩
  exact hthen before during _ _ _ _ rfl rfl (.inr ⟨⟨_, rfl⟩, _, rfl⟩)

end Corun.Supervisor
