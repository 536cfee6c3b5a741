import Corun.Proofs.Child.OwnerSteps

namespace Corun.Child.Gated
open Os Sync

variable {g g' : Gated} {t owner : Nat} {c : Call} {s : Stage} {e : List Entry}

/-- Nobody comes back from a call, and whoever is inside of one stays inside. -/
structure CallsUnchanged (g g' : Gated) (e : List Entry) : Prop where
  silent : ∀ t, returned? t e = none
  inside : ∀ t, (g.pending? t).isSome = true → (g'.pending? t).isSome = true

theorem CallsUnchanged.calls (hc : g'.calls = g.calls) (he : ∀ t, returned? t e = none) :
    CallsUnchanged g g' e := by
  refine ⟨he, fun t ht => ?_⟩
  rwa [pending?, hc]

theorem CallsUnchanged.place (hc : g'.calls = g.calls) : CallsUnchanged g (g'.place t c s) [] := by
  refine ⟨returned?_nil, fun u hu => ?_⟩
  rw [pending?_place]
  split
  · rfl
  · rwa [pending?, hc]

/-- At the gate an awaiting thread only comes to the latch or goes round it. -/
theorem advance_callsUnchanged (ht : Tended owner g) (hne : t ≠ owner) (hready : g.phase = .ready)
    (h : g.advance t = some (g', e)) : CallsUnchanged g g' e := by
  unfold advance at h
  split at h
  · cases h
  · rename_i call stage hp
    have hawaits := ht.awaiting t ⟨call, stage⟩ hne hp
    obtain rfl : call = .await := hawaits.call_eq
    cases stage with
    | checking =>
      simp only at h
      split at h
      · simp only [check, hready, Option.some.injEq] at h
        cases h
        exact .place rfl
      · cases h
    | approaching =>
      obtain ⟨⟨l, le⟩, -, he⟩ := Option.map_eq_some_iff.mp h
      cases he
      unfold afterLatch
      split <;> exact .place rfl
    | asleep => cases h
    | past | asking | observing | reaping => exact absurd hready hawaits
    | notifying | releasing | closing | reading | signaling => exact hawaits.elim

theorem bell_callsUnchanged {a : Bell.Action} (h : g.step (.bell a) = some (g', e)) :
    CallsUnchanged g g' e := by
  obtain ⟨⟨l, le⟩, -, he⟩ := Option.map_eq_some_iff.mp h
  cases he
  exact .calls rfl returned?_nil

theorem resume_callsUnchanged {k : Nat} (h : g.step (.resume k) = some (g', e)) :
    CallsUnchanged g g' e := by
  obtain ⟨⟨l, le⟩, hl, he⟩ := Option.map_eq_some_iff.mp h
  cases he
  obtain ⟨⟨r, bell⟩, -, he⟩ := Option.map_eq_some_iff.mp hl
  simp only [Latch.pass] at he
  split at he
  · cases he
    exact .place rfl
  · split at he <;>
    · cases he
      exact .calls rfl returned?_nil

/-- The child itself is inside of no call. -/
theorem move_callsUnchanged {m : Child.Move} (h : g.move m = some (g', e)) :
    CallsUnchanged g g' e := by
  unfold move at h
  split at h
  · cases h
    exact .calls rfl returned?_nil
  · split at h
    · cases h
    · cases h
      exact .calls rfl returned?_nil
  · cases h
    exact .calls rfl fun _ => rfl
  · cases h
    exact .calls rfl fun _ => rfl
  · split at h
    · cases h
    · cases h
      exact .calls rfl returned?_nil
  · cases h
    exact .calls rfl returned?_nil
  · cases h
    exact .calls rfl returned?_nil
  · split at h
    · cases h
      exact .calls rfl returned?_nil
    · cases h
  · split at h
    · cases h
    · cases h
      exact .calls rfl returned?_nil
  · cases h

/-- Whoever begins to await the child is inside of that call. -/
theorem await_inside (h : g.step (.call t .await) = some (g', e)) :
    (g'.pending? t).isSome = true := by
  simp only [step] at h
  unfold begin at h
  split at h
  · cases h
  · cases h
    simp

/-- Whoever is starting the child has taken it from its gate. -/
def StartedFromGate (owner : Nat) (g : Gated) : Prop :=
  ∀ s, g.pending? owner = some ⟨.start, s⟩ → g.phase ≠ .ready

theorem OwnerStep.unready (h : OwnerStep owner g c g' e) (hp : g.phase ≠ .ready) :
    g'.phase ≠ .ready := by
  cases h with
  | starts | kills | reaps => exact fun h => nomatch h
  | refuses | spares | notifies | releases | breaks | closes | reads | learns | signals | waits
  | observes | cannotTell | isLate => exact hp

theorem BackgroundStep.unready (h : BackgroundStep owner g g' e) (hp : g.phase ≠ .ready) :
    g'.phase ≠ .ready := by
  rcases h.phase with hphase | ⟨-, -, hphase⟩
  · rwa [hphase]
  · simp [hphase]

theorem OwnerStep.departs (h : OwnerStep owner g c g' e) (hd : g.StartedFromGate owner) :
    g'.StartedFromGate owner := by
  cases h with
  | starts | kills | reaps => exact fun _ _ h => nomatch h
  | notifies c next l inside leads =>
    intro s hs
    rcases leads with ⟨rfl, rfl⟩ | ⟨rfl, rfl⟩
    · exact hd _ inside
    · simp at hs
  | releases _ inside | closes inside | reads _ _ _ inside => exact fun s _ => hd _ inside
  | refuses | spares | breaks | learns | signals | waits | observes | cannotTell | isLate =>
    intro s hs
    simp [endStart] at hs

theorem BackgroundStep.departs (h : BackgroundStep owner g g' e) (hd : g.StartedFromGate owner) :
    g'.StartedFromGate owner := by
  intro s hs
  rw [h.owned] at hs
  exact h.unready (hd s hs)

/-- A start that comes back with success has let the child go. -/
theorem OwnerStep.start_unready {answer : Answer} (h : OwnerStep owner g .start g' e)
    (hd : g.StartedFromGate owner)
    (hr : returned? owner e = some (.ok answer)) : g'.phase ≠ .ready := by
  cases h with
  | refuses | breaks => simp at hr
  | learns _ _ _ inside => exact hd _ inside
  | starts => exact fun h => nomatch h
  | notifies _ _ _ inside => exact hd _ inside
  | releases _ inside | closes inside | reads _ _ _ inside => exact hd _ inside

/-- Starting a child fails, but never panics. -/
theorem OwnerStep.start_fails {stop : Stop} (h : OwnerStep owner g .start g' e)
    (hr : returned? owner e = some (.error stop)) : ∃ f, stop = .failed f := by
  cases h with
  | refuses _ _ f | breaks f =>
    simp only [returned?_returned, if_true, Option.some.injEq, Except.error.injEq] at hr
    exact ⟨f, hr.symm⟩
  | learns _ _ r _ heard =>
    simp only [returned?_returned, if_true, Option.some.injEq] at hr
    rcases heard with rfl | ⟨f, rfl⟩
    · cases hr
    · cases hr
      exact ⟨f, rfl⟩
  | starts | notifies | closes | reads => cases hr
  | releases => cases hr

/-- A kill that comes back has found the child killed or has killed it. -/
theorem OwnerStep.kill_unready (ht : Tended owner g) (h : OwnerStep owner g .kill g' e)
    (hr : (returned? owner e).isSome = true) : g'.phase ≠ .ready := by
  cases h with
  | spares _ ended =>
    change g.phase ≠ .ready
    rcases ended with h | h <;> simp [h]
  | signals _ inside =>
    have hkilled : g.phase = .killed := ht.owned _ inside
    change g.phase ≠ .ready
    simp [hkilled]
  | kills | notifies => cases hr

end Corun.Child.Gated
