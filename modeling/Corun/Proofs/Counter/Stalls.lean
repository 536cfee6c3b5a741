import Corun.Proofs.Counter.Baselines

namespace Corun.Counter

namespace Count

/-- A counter that counted since an earlier reading and did not run. -/
structure Stalled (before now : Count) : Prop where
  counted : before.value < now.value
  idle : now.running = before.running

theorem stalled_iff {before now : Count} (h : Grows before now) :
    Stalled before now ↔ (now.since before).running = 0 ∧ 0 < (now.since before).value := by
  have hr := h.running
  simp only [since]
  constructor
  · rintro ⟨hcounted, hidle⟩
    omega
  · rintro ⟨hidle, hcounted⟩
    exact ⟨by omega, by omega⟩

end Count

namespace Sample

variable {s : Sample}

/-- A sample of counts without any running time to extrapolate them from. -/
def Drops (s : Sample) : Prop := s.covered.running = 0 ∧ 0 < s.covered.value

theorem Drops.value (h : s.Drops) : s.value = 0 := by
  simp [Sample.value, valueIn, h.1]

end Sample

namespace Meter

variable {κ : Type} [Source κ] {m : Meter κ} {event : Event} {ordinal : Nat} {source : κ}
  {requests : List Request} {seen : List Seen}

theorem latest_mem (h : latest seen ≠ .zero) : latest seen ∈ readings seen := by
  rw [latest, List.getLastD_eq_getLast?] at h ⊢
  cases hlast : (readings seen).getLast? with
  | none => simp [hlast] at h
  | some c => exact List.mem_of_getLast? hlast

/-- A stalled counter is refused in relative mode, with nothing changed, if it has not run at all until
then. If it ran at any time before, its counts are dropped, and what is shown of them is zero. No other
counts are dropped. -/
theorem stall_refused_unless_it_ran
    (hr : Machine.run step (create event ordinal source) requests = some (m, seen))
    (hgrows : (readings seen).IsChain Count.Grows)
    (hbounded : ∀ c ∈ readings seen, c.running ≤ c.enabled) :
    (Count.Stalled (sampledAt seen) (latest seen) →
      ((latest seen).running = 0 → m.scale .relative =
        (.error (.counterDrift (sampledAt seen).value (latest seen).value), m)) ∧
      ((latest seen).running ≠ 0 →
        ∃ s, (m.scale .relative).1 = .ok s ∧ s.Drops ∧ s.value = 0)) ∧
    ∀ s, (m.scale .relative).1 = .ok s → s.Drops → Count.Stalled (sampledAt seen) (latest seen) := by
  have hgauge := run_gauge hr
  obtain ⟨hreads, _⟩ := run_reads hr hgrows
  have hbase : Count.Grows (sampledAt seen) (latest seen) := by simpa [hgauge] using hreads.grows
  refine ⟨fun hstalled => ⟨?_, ?_⟩, ?_⟩
  · intro hzero
    have hv : m.gauge.violation? =
        some (.counterDrift (sampledAt seen).value (latest seen).value) := by
      simp [hgauge, Gauge.violation?, hzero, hstalled.counted.ne']
    rw [Meter.scale, Gauge.scale_refused hv]
  · intro hran
    have hmem : latest seen ∈ readings seen := latest_mem fun h => hran (h ▸ rfl)
    have hv : m.gauge.violation? = none := by
      simp [hgauge, Gauge.violation?, hran, hbounded _ hmem]
    have hdrops : Sample.Drops ⟨(latest seen).since (sampledAt seen)⟩ :=
      (Count.stalled_iff hbase).mp hstalled
    refine ⟨_, ?_, hdrops, hdrops.value⟩
    rw [Meter.scale, Gauge.scale_sound hv, hgauge]
    rfl
  · intro s hs hdrops
    cases hv : m.gauge.violation? with
    | some cause =>
      rw [Meter.scale, Gauge.scale_refused hv] at hs
      cases hs
    | none =>
      rw [Meter.scale, Gauge.scale_sound hv, hgauge] at hs
      cases hs
      exact (Count.stalled_iff hbase).mpr hdrops

/-- The counter is first enabled without running, and then counts without running. -/
theorem stall_refused_before_first_run :
    let script : Script := { reads := [.ok ⟨0, 10, 0⟩, .ok ⟨3, 20, 0⟩] }
    ∃ m seen, Machine.run step (create ⟨.hardware, 0, .none⟩ 0 script)
        [.read, .scale .relative, .read] = some (m, seen) ∧
      (readings seen).IsChain Count.Grows ∧ (∀ c ∈ readings seen, c.running ≤ c.enabled) ∧
      Count.Stalled (sampledAt seen) (latest seen) ∧
      m.scale .relative = (.error (.counterDrift 0 3), m) := by
  intro script
  let seen : List Seen :=
    [.read (some ⟨0, 10, 0⟩), .scaled .relative (.ok ⟨⟨0, 10, 0⟩⟩), .read (some ⟨3, 20, 0⟩)]
  have hrun : Machine.run step (create ⟨.hardware, 0, .none⟩ 0 script)
      [.read, .scale .relative, .read] =
        some (⟨⟨.hardware, 0, .none⟩, 0, { reads := [] }, ⟨⟨3, 20, 0⟩, ⟨0, 10, 0⟩⟩⟩, seen) := rfl
  have hgrows : (readings seen).IsChain Count.Grows := by decide
  have hbounded : ∀ c ∈ readings seen, c.running ≤ c.enabled := by decide
  have hstalled : Count.Stalled (sampledAt seen) (latest seen) := ⟨by decide, rfl⟩
  obtain ⟨hrefused, _⟩ := stall_refused_unless_it_ran hrun hgrows hbounded
  exact ⟨_, seen, hrun, hgrows, hbounded, hstalled, (hrefused hstalled).1 rfl⟩

/-- The counter ran in the first interval and not in the second, in which it counted three. -/
theorem stalled_counts_shown_as_zero :
    let script : Script := { reads := [.ok ⟨5, 10, 10⟩, .ok ⟨8, 20, 10⟩] }
    ∃ m seen, Machine.run step (create ⟨.hardware, 0, .none⟩ 0 script)
        [.read, .scale .relative, .read] = some (m, seen) ∧
      (readings seen).IsChain Count.Grows ∧ (∀ c ∈ readings seen, c.running ≤ c.enabled) ∧
      Count.Stalled (sampledAt seen) (latest seen) ∧
      ∃ s, (m.scale .relative).1 = .ok s ∧ s.covered = ⟨3, 10, 0⟩ ∧ s.value = 0 ∧
        (m.scale .relative).2.gauge.baseline ≠ m.gauge.baseline := by
  refine ⟨_, _, rfl, by decide, by decide, ⟨by decide, rfl⟩, ⟨⟨3, 10, 0⟩⟩, rfl, rfl, ?_, by decide⟩
  exact Sample.Drops.value ⟨rfl, by decide⟩

end Meter

end Corun.Counter
