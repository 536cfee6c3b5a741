import Mathlib.Algebra.Group.Defs
import Mathlib.Algebra.Order.Field.Rat
import Mathlib.Tactic.FieldSimp
import Corun.Counter.Sample

namespace Corun.Counter

namespace Count

instance : Zero Count := ⟨zero⟩

instance : Add Count := ⟨fun a b => ⟨a.value + b.value, a.enabled + b.enabled, a.running + b.running⟩⟩

instance : AddMonoid Count where
  add_assoc a b c := by
    ext
    · exact Nat.add_assoc ..
    · exact Nat.add_assoc ..
    · exact Nat.add_assoc ..
  zero_add a := by
    ext
    · exact Nat.zero_add _
    · exact Nat.zero_add _
    · exact Nat.zero_add _
  add_zero _ := rfl
  nsmul := nsmulRec

/-- A reading and a later one of the same counter: nothing shrinks, the counter runs only while
enabled, and it counts only while it runs. -/
structure Follows (before now : Count) : Prop where
  value : before.value ≤ now.value
  enabled : before.enabled ≤ now.enabled
  running : before.running ≤ now.running
  bounded : now.running ≤ now.enabled
  counting : before.value < now.value → before.running < now.running

instance : DecidableRel Follows := fun before now =>
  decidable_of_iff
    (before.value ≤ now.value ∧ before.enabled ≤ now.enabled ∧ before.running ≤ now.running ∧
      now.running ≤ now.enabled ∧ (before.value < now.value → before.running < now.running))
    ⟨fun ⟨hv, he, hr, hb, hc⟩ => ⟨hv, he, hr, hb, hc⟩,
      fun h => ⟨h.value, h.enabled, h.running, h.bounded, h.counting⟩⟩

variable {a b c : Count}

theorem Follows.refl (h : a.running ≤ a.enabled) : Follows a a :=
  ⟨Nat.le_refl _, Nat.le_refl _, Nat.le_refl _, h, fun hc => absurd hc (Nat.lt_irrefl _)⟩

theorem Follows.trans (hab : Follows a b) (hbc : Follows b c) : Follows a c := by
  refine ⟨hab.value.trans hbc.value, hab.enabled.trans hbc.enabled,
    hab.running.trans hbc.running, hbc.bounded, fun hgrown => ?_⟩
  rcases Nat.lt_or_ge a.value b.value with hv | hv
  · exact Nat.lt_of_lt_of_le (hab.counting hv) hbc.running
  · exact Nat.lt_of_le_of_lt hab.running (hbc.counting (Nat.lt_of_le_of_lt hv hgrown))

/-- What was counted until then, and what was added since, is all. -/
theorem Follows.add_since (h : Follows a b) : a + b.since a = b := by
  ext
  · exact Nat.add_sub_cancel' h.value
  · exact Nat.add_sub_cancel' h.enabled
  · exact Nat.add_sub_cancel' h.running

theorem Follows.since_idle (h : Follows a b) (hr : (b.since a).running = 0) :
    (b.since a).value = 0 := by
  simp only [since] at hr ⊢
  have hnot : ¬a.value < b.value := fun hv => by
    have := h.counting hv
    omega
  omega

end Count

namespace Sample

variable {s : Sample}

/-- In exact arithmetic the extrapolated value, scaled back, is what was counted. -/
theorem value_mul_scaling (hidle : s.covered.running = 0 → s.covered.value = 0)
    (henabled : s.covered.running = 0 ∨ 0 < s.covered.enabled) :
    s.valueIn (Nat.cast : Nat → ℚ) * s.scalingIn Nat.cast = s.covered.value := by
  by_cases hr : s.covered.running = 0
  · simp [valueIn, scalingIn, hr, hidle hr]
  · have he : (s.covered.enabled : ℚ) ≠ 0 := by
      have := henabled.resolve_left hr
      exact_mod_cast this.ne'
    have hq : (s.covered.running : ℚ) ≠ 0 := by exact_mod_cast hr
    simp only [valueIn, scalingIn, hr, if_false]
    field_simp

end Sample

namespace Gauge

variable {g : Gauge} {mode : Mode} {cause : Cause}

/-- The gauge after a call that read the counter, or did not. -/
def take (g : Gauge) (reading : Option Count) : Gauge := reading.elim g g.observe

/-- The gauge with the baseline moved up to the latest reading. -/
def settle (g : Gauge) : Gauge := { g with baseline := g.current }

/-- The gauge as it is after a sample was made of it. -/
def scaled (mode : Mode) (g : Gauge) : Gauge :=
  match mode with
  | .relative => g.settle
  | .aggregated => g

@[simp] theorem take_baseline (reading : Option Count) : (g.take reading).baseline = g.baseline := by
  cases reading <;> rfl

theorem no_violation (h : Count.Follows g.baseline g.current) : g.violation? = none := by
  have hrun : ¬g.current.enabled < g.current.running := Nat.not_lt.mpr h.bounded
  have hdrift : ¬(g.current.running = 0 ∧ g.current.value ≠ g.baseline.value) := by
    rintro ⟨hr, hv⟩
    have := h.counting (Nat.lt_of_le_of_ne h.value (Ne.symm hv))
    omega
  simp [violation?, hrun, hdrift]

theorem scale_sound (h : g.violation? = none) :
    g.scale mode = (.ok ⟨g.covered mode⟩, g.scaled mode) := by
  cases mode <;> simp [scale, h, scaled, settle]

theorem scale_refused (h : g.violation? = some cause) : g.scale mode = (.error cause, g) := by
  simp [scale, h]

theorem scale_relative (h : Count.Follows g.baseline g.current) :
    g.scale .relative = (.ok ⟨g.current.since g.baseline⟩, g.settle) :=
  scale_sound (no_violation h)

theorem scale_aggregated (h : Count.Follows g.baseline g.current) :
    g.scale .aggregated = (.ok ⟨g.current⟩, g) :=
  scale_sound (no_violation h)

end Gauge

end Corun.Counter
