import Corun.Counter.Group
import Corun.Proofs.Counter.Gauge

namespace Corun.Counter

variable {κ : Type} [Source κ] {ms : List (Meter κ)} {g : Group κ}

def gauges (ms : List (Meter κ)) : List Gauge := ms.map Meter.gauge

namespace Group

/-- What one call reads. Nothing is read of the counters behind one that fails. -/
def found : List (Meter κ) → List (Option Count)
  | [] => []
  | m :: ms =>
    match (Source.read m.source).1 with
    | .ok count => some count :: found ms
    | .error _ => none :: ms.map fun _ => none

theorem found_length : (found ms).length = ms.length := by
  induction ms with
  | nil => rfl
  | cons m ms ih =>
    simp only [found]
    split
    · simp [ih]
    · simp

omit [Source κ] in
theorem take_nothing (ms : List (Meter κ)) :
    List.zipWith Gauge.take (gauges ms) (ms.map fun _ => none) = gauges ms := by
  induction ms with
  | nil => rfl
  | cons m ms ih =>
    simp only [gauges, List.map_cons, List.zipWith_cons_cons]
    exact congrArg (m.gauge :: ·) ih

theorem readMeters_gauges (ms : List (Meter κ)) :
    gauges (readMeters ms).state = List.zipWith Gauge.take (gauges ms) (found ms) := by
  induction ms with
  | nil => rfl
  | cons m ms ih =>
    cases hr : (Source.read m.source).1 with
    | ok count =>
      simp only [gauges, readMeters, Meter.read, found, hr, List.map_cons, List.zipWith_cons_cons]
      exact congrArg (m.gauge.observe count :: ·) ih
    | error stop =>
      simp only [gauges, readMeters, Meter.read, found, hr, List.map_cons, List.zipWith_cons_cons]
      exact congrArg (m.gauge :: ·) (take_nothing ms).symm

theorem readMeters_length (ms : List (Meter κ)) : (readMeters ms).state.length = ms.length := by
  have hgauges := congrArg List.length (readMeters_gauges ms)
  simpa [gauges, found_length] using hgauges

theorem readMeters_result (ms : List (Meter κ)) :
    (readMeters ms).result = .ok () ↔ none ∉ found ms := by
  induction ms with
  | nil => simp [readMeters, Step.done, found]
  | cons m ms ih =>
    cases hr : (Source.read m.source).1 with
    | ok count => simp [readMeters, Meter.read, found, hr, ih]
    | error stop => simp [readMeters, Meter.read, found, hr]

omit [Source κ] in
/-- Gauges without a violation are all scaled, each into a sample of its own. -/
theorem scaleMeters_relative {latest : List Sample} (hlen : latest.length = ms.length)
    (hgauges : ∀ x ∈ gauges ms, Count.Follows x.baseline x.current) :
    ∃ ms', scaleMeters .relative ms latest =
        (.ok (), ms', (gauges ms).map fun x => ⟨x.current.since x.baseline⟩) ∧
      gauges ms' = (gauges ms).map Gauge.settle := by
  induction ms generalizing latest with
  | nil =>
    cases latest with
    | nil => exact ⟨[], rfl, rfl⟩
    | cons s ss => cases hlen
  | cons m ms ih =>
    cases latest with
    | nil => cases hlen
    | cons s ss =>
      have hfirst : Count.Follows m.gauge.baseline m.gauge.current :=
        hgauges _ List.mem_cons_self
      obtain ⟨ms', hscale, hsettled⟩ :=
        ih (Nat.succ.inj hlen) fun x hx => hgauges x (List.mem_cons_of_mem _ hx)
      refine ⟨{ m with gauge := m.gauge.settle } :: ms', ?_, ?_⟩
      · simp only [scaleMeters, Meter.scale, Gauge.scale_relative hfirst, hscale]
        rfl
      · simp only [gauges, List.map_cons] at hsettled ⊢
        rw [hsettled]

/-- The group after a call in relative mode. -/
def next (g : Group κ) : Group κ := (g.sample .relative).state

/-- The gauges as a call reads them. -/
def taken (g : Group κ) : List Gauge := List.zipWith Gauge.take (gauges g.meters) (found g.meters)

theorem taken_length : g.taken.length = g.meters.length := by
  simp [taken, gauges, found_length]

/-- A call that cannot read every counter gives no samples. It leaves the baselines where they were,
also of the counters that it did read. -/
theorem sample_unread (h : none ∈ found g.meters) :
    (∃ stop, (g.sample .relative).result = .error stop) ∧ gauges g.next.meters = g.taken ∧
      g.next.latest = g.latest := by
  cases hr : (readMeters g.meters).result with
  | ok u => exact absurd h ((readMeters_result _).mp hr)
  | error stop =>
    simp only [next, sample, hr]
    exact ⟨⟨stop, rfl⟩, readMeters_gauges _, trivial⟩

/-- A call that reads every counter samples it from the baseline on, which it moves up. -/
theorem sample_read (hread : none ∉ found g.meters) (hlen : g.latest.length = g.meters.length)
    (htaken : ∀ x ∈ g.taken, Count.Follows x.baseline x.current) :
    (g.sample .relative).result = .ok (g.taken.map fun x => ⟨x.current.since x.baseline⟩) ∧
      gauges g.next.meters = g.taken.map Gauge.settle ∧
      g.next.latest = g.taken.map fun x => ⟨x.current.since x.baseline⟩ := by
  have hstate : gauges (readMeters g.meters).state = g.taken := readMeters_gauges _
  have hmeters : g.latest.length = (readMeters g.meters).state.length :=
    hlen.trans (readMeters_length _).symm
  obtain ⟨ms', hscale, hsettled⟩ := scaleMeters_relative hmeters (hstate ▸ htaken)
  rw [hstate] at hscale hsettled
  simp only [next, sample, (readMeters_result _).mpr hread, hscale]
  exact ⟨rfl, hsettled, rfl⟩

theorem openMeters_fresh {supply : Nat → κ} {pid : Os.Pid} {attach : Bool} {ordinal : Nat}
    {events : List Event} (h : (openMeters supply pid attach ordinal events).result = .ok ms) :
    ∀ m ∈ ms, m.gauge = .fresh := by
  induction events generalizing ordinal ms with
  | nil =>
    cases h
    simp
  | cons event events ih =>
    simp only [openMeters] at h
    split at h
    · rename_i stop _
      cases stop with
      | failed f => cases h
      | panicked p => cases h
    · cases hmore : (openMeters supply pid attach (ordinal + 1) events).result with
      | error stop => simp [hmore, Except.map] at h
      | ok more =>
        simp only [hmore, Except.map, Except.ok.injEq] at h
        subst h
        intro m hm
        rcases List.mem_cons.mp hm with rfl | hm
        · rfl
        · exact ih hmore m hm

/-- A group that was opened starts from zero, with a place for each sample. -/
theorem openOn_fresh {supply : Nat → κ} {pid : Os.Pid} {attach : Bool} {ordinal : Nat}
    {events : List Event} (h : (openOn supply pid attach ordinal events).result = .ok g) :
    (∀ x ∈ gauges g.meters, x = .fresh) ∧ g.latest.length = g.meters.length := by
  cases hr : (openMeters supply pid attach ordinal events).result with
  | error stop => simp [openOn, hr, Except.map] at h
  | ok ms =>
    simp only [openOn, hr, Except.map, Except.ok.injEq] at h
    subst h
    refine ⟨?_, by simp⟩
    intro x hx
    obtain ⟨m, hm, rfl⟩ := List.mem_map.mp hx
    exact openMeters_fresh hr m hm

end Group

end Corun.Counter
