import Mathlib.Algebra.Order.Field.Rat
import Mathlib.Data.List.Chain
import Corun.Proofs.Counter.Gauge
import Corun.Proofs.Machine

namespace Corun.Counter

namespace Count

/-- Nothing that is counted is ever taken back. -/
structure Grows (before now : Count) : Prop where
  value : before.value ≤ now.value
  enabled : before.enabled ≤ now.enabled
  running : before.running ≤ now.running

instance : DecidableRel Grows := fun before now =>
  decidable_of_iff
    (before.value ≤ now.value ∧ before.enabled ≤ now.enabled ∧ before.running ≤ now.running)
    ⟨fun ⟨hv, he, hr⟩ => ⟨hv, he, hr⟩, fun h => ⟨h.value, h.enabled, h.running⟩⟩

/-- For how long a counter was enabled and did not run. -/
def idle (c : Count) : Nat := c.enabled - c.running

variable {a b c : Count}

theorem Grows.refl (a : Count) : Grows a a := ⟨Nat.le_refl _, Nat.le_refl _, Nat.le_refl _⟩

theorem Grows.trans (hab : Grows a b) (hbc : Grows b c) : Grows a c :=
  ⟨hab.value.trans hbc.value, hab.enabled.trans hbc.enabled, hab.running.trans hbc.running⟩

theorem zero_grows (a : Count) : Grows zero a := ⟨Nat.zero_le _, Nat.zero_le _, Nat.zero_le _⟩

/-- What was added is a run within the enabled time, unless the idle time has become less. -/
theorem Grows.since_bounded_iff (h : Grows a b) (ha : a.running ≤ a.enabled)
    (hb : b.running ≤ b.enabled) :
    (b.since a).running ≤ (b.since a).enabled ↔ a.idle ≤ b.idle := by
  have he := h.enabled
  have hr := h.running
  simp only [since, idle]
  omega

end Count

/-- How an arithmetic rounds: it keeps the order, and zero and one are numbers of its own. -/
structure Rounding where
  round : ℚ → ℚ
  monotone : Monotone round
  zero : round 0 = 0
  one : round 1 = 1

namespace Rounding

/-- Exact arithmetic. -/
def exact : Rounding := ⟨id, monotone_id, rfl, rfl⟩

/-- A number of the arithmetic that rounds so. -/
structure Number (ρ : Rounding) where
  value : ℚ

variable {ρ : Rounding}

instance : OfNat ρ.Number 0 := ⟨⟨0⟩⟩

/-- Quotients are rounded. -/
instance : Div ρ.Number := ⟨fun a b => ⟨ρ.round (a.value / b.value)⟩⟩

/-- A whole number is rounded too. -/
def Number.ofNat (ρ : Rounding) (n : Nat) : ρ.Number := ⟨ρ.round n⟩

theorem ofNat_nonneg (ρ : Rounding) (n : Nat) : 0 ≤ (Number.ofNat ρ n).value := by
  have h : ρ.round 0 ≤ ρ.round n := ρ.monotone (Nat.cast_nonneg n)
  rwa [ρ.zero] at h

theorem ofNat_pos (ρ : Rounding) {n : Nat} (hn : 0 < n) : 0 < (Number.ofNat ρ n).value := by
  have h : ρ.round 1 ≤ ρ.round n := ρ.monotone (by exact_mod_cast hn)
  rw [ρ.one] at h
  exact lt_of_lt_of_le one_pos h

theorem ofNat_le (ρ : Rounding) {m n : Nat} (h : m ≤ n) :
    (Number.ofNat ρ m).value ≤ (Number.ofNat ρ n).value :=
  ρ.monotone (by exact_mod_cast h)

/-- A part of a whole is a fraction, whatever was rounded on the way. -/
theorem quotient_unit (ρ : Rounding) {m n : Nat} (hn : 0 < n) (h : m ≤ n) :
    0 ≤ (Number.ofNat ρ m / Number.ofNat ρ n).value ∧
      (Number.ofNat ρ m / Number.ofNat ρ n).value ≤ 1 := by
  have hpos := ofNat_pos ρ hn
  constructor
  · have hquot := ρ.monotone (div_nonneg (ofNat_nonneg ρ m) hpos.le)
    rwa [ρ.zero] at hquot
  · have hquot := ρ.monotone (div_le_one_of_le₀ (ofNat_le ρ h) hpos.le)
    rwa [ρ.one] at hquot

end Rounding

namespace Sample

variable {s : Sample}

/-- A sample of a counter that ran for a part of the time it was enabled: nothing is divided by zero,
and the scaling is a fraction in every arithmetic. -/
structure Bounded (s : Sample) : Prop where
  bounded : s.covered.running ≤ s.covered.enabled
  divisible : s.covered.running ≠ 0 → s.covered.enabled ≠ 0
  fraction : ∀ ρ : Rounding,
    0 ≤ (s.scalingIn (Rounding.Number.ofNat ρ)).value ∧
      (s.scalingIn (Rounding.Number.ofNat ρ)).value ≤ 1
  flagged : s.isEnabled = true ↔ 0 < s.covered.enabled

theorem bounded_iff : s.Bounded ↔ s.covered.running ≤ s.covered.enabled := by
  refine ⟨Bounded.bounded, fun h => ⟨h, fun hr he => hr (by omega), fun ρ => ?_, ?_⟩⟩
  · by_cases hr : s.covered.running = 0
    · simp only [scalingIn, hr, if_true]
      exact ⟨le_rfl, zero_le_one⟩
    · simp only [scalingIn, hr, if_false]
      exact Rounding.quotient_unit ρ (by omega) h
  · simp only [isEnabled, Bool.or_eq_true, decide_eq_true_eq]
    omega

end Sample

namespace Gauge

/-- What a gauge is asked for: to take a reading, or to make a sample of the latest one. -/
inductive Request where
  | observe (reading : Count)
  | scale (mode : Mode)

/-- A gauge answers every request to scale, and takes every reading. -/
def step : Machine Gauge Request (Mode × Except Cause Sample)
  | g, .observe reading => some (g.observe reading, [])
  | g, .scale mode => some ((g.scale mode).2, [(mode, (g.scale mode).1)])

/-- The readings that are taken, in order. -/
def readings (requests : List Request) : List Count :=
  requests.filterMap fun
    | .observe reading => some reading
    | .scale _ => none

theorem readings_append (before after : List Request) :
    readings (before ++ after) = readings before ++ readings after := List.filterMap_append ..

variable {g t : Gauge} {mode : Mode} {requests : List Request} {e : List (Mode × Except Cause Sample)}

/-- A gauge that has taken these readings. -/
structure Reads (g : Gauge) (taken : List Count) : Prop where
  latest : g.current = taken.getLastD .zero
  grows : Count.Grows g.baseline g.current
  /-- The baseline is a reading that was found sound. -/
  sound : g.baseline.running ≤ g.baseline.enabled

theorem fresh_reads : fresh.Reads [] := ⟨rfl, .refl _, Nat.le_refl _⟩

theorem Reads.observe {taken : List Count} {reading : Count} (h : g.Reads taken)
    (hgrows : Count.Grows g.current reading) : (g.observe reading).Reads (taken ++ [reading]) :=
  ⟨by simp [Gauge.observe], h.grows.trans hgrows, h.sound⟩

/-- A reading that does not shrink follows those that were taken. -/
theorem Reads.observe_next {taken : List Count} {reading : Count} (h : g.Reads taken)
    (hchain : (taken ++ [reading]).IsChain Count.Grows) :
    (g.observe reading).Reads (taken ++ [reading]) := by
  refine h.observe ?_
  cases hlast : taken.getLast? with
  | none =>
    rw [h.latest, List.getLastD_eq_getLast?, hlast]
    exact Count.zero_grows reading
  | some last =>
    rw [h.latest, List.getLastD_eq_getLast?, hlast]
    exact (List.isChain_append.mp hchain).2.2 last hlast reading rfl

theorem violation_none_bounded (h : g.violation? = none) : g.current.running ≤ g.current.enabled := by
  by_contra hover
  simp [violation?, Nat.lt_of_not_le hover] at h

theorem Reads.scale {taken : List Count} (h : g.Reads taken) (mode : Mode) :
    (g.scale mode).2.Reads taken := by
  cases hv : g.violation? with
  | some cause =>
    rw [scale_refused hv]
    exact h
  | none =>
    rw [scale_sound hv]
    cases mode with
    | relative => exact ⟨h.latest, .refl _, violation_none_bounded hv⟩
    | aggregated => exact h

theorem run_reads (hr : Machine.run step fresh requests = some (t, e))
    (hgrows : (readings requests).IsChain Count.Grows) : t.Reads (readings requests) := by
  refine Machine.run_invariant
    (P := fun t requests _ => (readings requests).IsChain Count.Grows → t.Reads (readings requests))
    (fun _ => fresh_reads) ?_ hr hgrows
  intro acts t e request u e' _ ih hs hchain
  rw [readings_append] at hchain ⊢
  have ht := ih hchain.left_of_append
  cases request with
  | observe reading =>
    cases hs
    exact ht.observe_next hchain
  | scale mode =>
    cases hs
    simpa [readings] using ht.scale mode

/-- The counter lost none of its idle time within the interval that a sample of the mode covers. -/
def KeepsIdle (mode : Mode) (g : Gauge) : Prop :=
  match mode with
  | .relative => g.baseline.idle ≤ g.current.idle
  | .aggregated => True

theorem Reads.covered_bounded_iff {taken : List Count} (h : g.Reads taken)
    (hb : g.current.running ≤ g.current.enabled) (mode : Mode) :
    (g.covered mode).running ≤ (g.covered mode).enabled ↔ g.KeepsIdle mode := by
  cases mode with
  | relative => exact h.grows.since_bounded_iff h.sound hb
  | aggregated => exact ⟨fun _ => trivial, fun _ => hb⟩

/-- However readings that never shrink and requests for samples alternate, a sample is refused or it is
made of the covered interval, and then it is bounded exactly if the counter kept its idle time. -/
theorem samples_bounded_iff_idle_kept (hr : Machine.run step fresh requests = some (g, e))
    (hgrows : (readings requests).IsChain Count.Grows) (mode : Mode) :
    (∃ cause, (g.scale mode).1 = .error cause) ∨
      ∃ s, (g.scale mode).1 = .ok s ∧ s.covered = g.covered mode ∧
        (s.Bounded ↔ g.KeepsIdle mode) := by
  cases hv : g.violation? with
  | some cause => exact .inl ⟨cause, by rw [scale_refused hv]⟩
  | none =>
    refine .inr ⟨⟨g.covered mode⟩, by rw [scale_sound hv], rfl, ?_⟩
    rw [Sample.bounded_iff]
    exact (run_reads hr hgrows).covered_bounded_iff (violation_none_bounded hv) mode

/-- A counter that ran for three of the last ten units of time. -/
theorem samples_bounded_while_multiplexed :
    ∃ g e s, Machine.run step fresh
        [.observe ⟨0, 10, 0⟩, .scale .relative, .observe ⟨5, 20, 3⟩] = some (g, e) ∧
      (g.scale .relative).1 = .ok s ∧ s.covered = ⟨5, 10, 3⟩ ∧ s.Bounded := by
  have hrun : Machine.run step fresh
      [.observe ⟨0, 10, 0⟩, .scale .relative, .observe ⟨5, 20, 3⟩] =
        some (⟨⟨5, 20, 3⟩, ⟨0, 10, 0⟩⟩, [(.relative, .ok ⟨⟨0, 10, 0⟩⟩)]) := rfl
  have hkept : KeepsIdle .relative ⟨⟨5, 20, 3⟩, ⟨0, 10, 0⟩⟩ := by
    simp only [KeepsIdle]
    decide
  rcases samples_bounded_iff_idle_kept hrun (by decide) .relative with
    ⟨cause, hc⟩ | ⟨s, hs, hcovered, hiff⟩
  · cases hc
  · exact ⟨_, _, s, hrun, hs, hcovered, hiff.mpr hkept⟩

/-- A counter that is found to have run for three units of time in which it was not enabled at all. The
sum of both is sound, so the difference is divided, and the sample claims to be of an enabled time. -/
theorem unbounded_sample_of_sound_readings :
    ∃ g e, Machine.run step fresh
        [.observe ⟨0, 10, 0⟩, .scale .relative, .observe ⟨5, 10, 3⟩] = some (g, e) ∧
      (readings [.observe ⟨0, 10, 0⟩, .scale .relative, .observe ⟨5, 10, 3⟩]).IsChain Count.Grows ∧
      ∃ s, (g.scale .relative).1 = .ok s ∧ s.covered = ⟨5, 0, 3⟩ ∧ ¬s.Bounded ∧
        s.isEnabled = true := by
  refine ⟨⟨⟨5, 10, 3⟩, ⟨0, 10, 0⟩⟩, _, rfl, by decide, ⟨⟨5, 0, 3⟩⟩, rfl, rfl, ?_, by decide⟩
  intro h
  exact absurd h.bounded (by decide)

end Gauge

end Corun.Counter
