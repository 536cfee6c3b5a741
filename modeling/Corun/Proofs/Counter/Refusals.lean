import Corun.Proofs.Counter.Readings

namespace Corun.Counter

namespace Sample

/-- What there is to see of a sample. -/
def shown (s : Sample) : Float × Float × Bool := (s.value, s.scaling, s.isEnabled)

end Sample

namespace Gauge

/-- The gauges before the first with a violation. -/
def sound (gs : List Gauge) : List Gauge := gs.takeWhile fun g => g.violation?.isNone

end Gauge

variable {κ : Type} [Source κ] {ms : List (Meter κ)} {g : Group κ} {mode : Mode}

def baselines (ms : List (Meter κ)) : List Count := (gauges ms).map Gauge.baseline

namespace Group

def shown (g : Group κ) : List (Float × Float × Bool) := g.latest.map Sample.shown

omit [Source κ] in
/-- Meters are scaled as far as their gauges are sound, each into a sample of its own, and the others
are left with the samples that they had. -/
theorem scaleMeters_state (mode : Mode) {latest : List Sample} (hlen : latest.length = ms.length) :
    gauges (scaleMeters mode ms latest).2.1 = (Gauge.sound (gauges ms)).map (Gauge.scaled mode) ++
        (gauges ms).drop (Gauge.sound (gauges ms)).length ∧
      (scaleMeters mode ms latest).2.2 =
        (Gauge.sound (gauges ms)).map (fun x => ⟨x.covered mode⟩) ++
          latest.drop (Gauge.sound (gauges ms)).length := by
  induction ms generalizing latest with
  | nil =>
    cases latest with
    | nil => exact ⟨rfl, rfl⟩
    | cons s ss => cases hlen
  | cons m ms ih =>
    cases latest with
    | nil => cases hlen
    | cons s ss =>
      obtain ⟨hgauges, hsamples⟩ := ih (Nat.succ.inj hlen)
      cases hv : m.gauge.violation? with
      | some cause =>
        have hsound : Gauge.sound (gauges (m :: ms)) = [] := by
          simp [Gauge.sound, gauges, hv]
        rw [hsound]
        simp only [scaleMeters, Meter.scale, Gauge.scale_refused hv]
        exact ⟨rfl, rfl⟩
      | none =>
        have hsound : Gauge.sound (gauges (m :: ms)) = m.gauge :: Gauge.sound (gauges ms) := by
          simp [Gauge.sound, gauges, hv]
        rw [hsound]
        simp only [scaleMeters, Meter.scale, Gauge.scale_sound hv]
        exact ⟨congrArg (_ :: ·) hgauges, congrArg (_ :: ·) hsamples⟩

/-- The gauges that a call comes to make samples of. There are none if it cannot read every counter. -/
def accepted (g : Group κ) : List Gauge :=
  if none ∈ found g.meters then [] else Gauge.sound g.taken

theorem openOn_latest {supply : Nat → κ} {pid : Os.Pid} {attach : Bool} {ordinal : Nat}
    {events : List Event} (h : (openOn supply pid attach ordinal events).result = .ok g) :
    g.latest = g.meters.map fun _ => Sample.none := by
  cases hr : (openMeters supply pid attach ordinal events).result with
  | error stop => simp [openOn, hr, Except.map] at h
  | ok ms =>
    simp only [openOn, hr, Except.map, Except.ok.injEq] at h
    subst h
    rfl

theorem taken_baselines (g : Group κ) : g.taken.map Gauge.baseline = baselines g.meters := by
  have hzip : ∀ (gs : List Gauge) (rs : List (Option Count)), gs.length = rs.length →
      (List.zipWith Gauge.take gs rs).map Gauge.baseline = gs.map Gauge.baseline := by
    intro gs
    induction gs with
    | nil => simp
    | cons x gs ih =>
      intro rs hlen
      cases rs with
      | nil => cases hlen
      | cons r rs => simp [ih rs (Nat.succ.inj hlen)]
  refine hzip _ _ ?_
  simp [gauges, found_length]

def Fails (mode : Mode) (g : Group κ) : Prop := ∃ stop, (g.sample mode).result = .error stop

theorem fails_of_unreadable (mode : Mode) (h : none ∈ found g.meters) : g.Fails mode := by
  cases hr : (readMeters g.meters).result with
  | ok u => exact absurd h ((readMeters_result _).mp hr)
  | error stop => exact ⟨stop, by simp only [sample, hr]⟩

theorem sample_unreadable (mode : Mode) (h : none ∈ found g.meters) :
    (g.sample mode).state.meters = (readMeters g.meters).state ∧
      (g.sample mode).state.latest = g.latest := by
  cases hr : (readMeters g.meters).result with
  | ok u => exact absurd h ((readMeters_result _).mp hr)
  | error stop =>
    simp only [sample, hr]
    exact ⟨trivial, trivial⟩

theorem sample_readable (mode : Mode) (h : none ∉ found g.meters) :
    (g.sample mode).state.meters = (scaleMeters mode (readMeters g.meters).state g.latest).2.1 ∧
      (g.sample mode).state.latest = (scaleMeters mode (readMeters g.meters).state g.latest).2.2 := by
  simp only [sample, (readMeters_result _).mpr h]
  split <;> exact ⟨rfl, rfl⟩

/-- What every call leaves, whether it fails or not. -/
theorem sample_state (mode : Mode) (hlen : g.latest.length = g.meters.length) :
    (g.sample mode).state.latest =
        g.accepted.map (fun x => ⟨x.covered mode⟩) ++ g.latest.drop g.accepted.length ∧
      baselines (g.sample mode).state.meters =
        g.accepted.map (fun x => (x.scaled mode).baseline) ++
          (baselines g.meters).drop g.accepted.length := by
  have hread : gauges (readMeters g.meters).state = g.taken := readMeters_gauges _
  by_cases h : none ∈ found g.meters
  · obtain ⟨hmeters, hlatest⟩ := sample_unreadable mode h
    refine ⟨by simp [accepted, h, hlatest], ?_⟩
    rw [hmeters, baselines, hread, taken_baselines]
    simp [accepted, h]
  · obtain ⟨hmeters, hlatest⟩ := sample_readable mode h
    have hreadLen : g.latest.length = (readMeters g.meters).state.length :=
      hlen.trans (readMeters_length _).symm
    obtain ⟨hgauges, hsamples⟩ := scaleMeters_state mode hreadLen
    rw [hread] at hgauges hsamples
    refine ⟨by rw [hlatest, hsamples]; simp [accepted, h], ?_⟩
    rw [hmeters, baselines, hgauges, List.map_append, List.map_drop, taken_baselines]
    simp [accepted, h, Function.comp_def]

/-- A call that leaves samples and baselines as they were: each of its new samples shows what the one
before it showed, and each baseline that it moves is already there. -/
def Untouched (mode : Mode) (g : Group κ) : Prop :=
  g.accepted.map (fun x => Sample.shown ⟨x.covered mode⟩) <+: g.shown ∧
    g.accepted.map (fun x => (x.scaled mode).baseline) <+: baselines g.meters

theorem untouched_iff (mode : Mode) (hlen : g.latest.length = g.meters.length) :
    ((g.sample mode).state.shown = g.shown ∧
      baselines (g.sample mode).state.meters = baselines g.meters) ↔ g.Untouched mode := by
  obtain ⟨hlatest, hbaselines⟩ := sample_state mode hlen
  rw [Untouched, List.prefix_iff_eq_append, List.prefix_iff_eq_append, List.length_map,
    List.length_map, hbaselines]
  simp only [shown, hlatest, List.map_append, List.map_map, List.map_drop, Function.comp_def]

theorem accepted_length_le (g : Group κ) : g.accepted.length ≤ g.meters.length := by
  rw [accepted]
  split
  · exact Nat.zero_le _
  · rw [← taken_length]
    exact (List.takeWhile_prefix _).length_le

theorem sample_length (mode : Mode) (hlen : g.latest.length = g.meters.length) :
    (g.sample mode).state.latest.length = (g.sample mode).state.meters.length := by
  obtain ⟨hlatest, hbaselines⟩ := sample_state mode hlen
  have hl := congrArg List.length hlatest
  have hb := congrArg List.length hbaselines
  have hle := g.accepted_length_le
  simp only [baselines, gauges, List.length_append, List.length_map, List.length_drop] at hl hb
  omega

theorem sample_given {latest : List Sample} (h : (g.sample mode).result = .ok latest) :
    (g.sample mode).state.latest = latest := by
  cases hr : (readMeters g.meters).result with
  | error stop => simp [sample, hr] at h
  | ok u =>
    rcases hs : scaleMeters mode (readMeters g.meters).state g.latest with ⟨r, ms', ss'⟩
    cases r with
    | error cause => simp [sample, hr, hs, Step.fail, Result.fail] at h
    | ok _ => simpa [sample, hr, hs, Step.done] using h

def run (modes : List Mode) (g : Group κ) : Group κ :=
  modes.foldl (fun g mode => (g.sample mode).state) g

/-- Each call, with the group as the call finds it. -/
def visits : List Mode → Group κ → List (Group κ × Mode)
  | [], _ => []
  | mode :: modes, g => (g, mode) :: visits modes (g.sample mode).state

/-- The samples that calls gave, as far as they succeeded. -/
def given (modes : List Mode) (g : Group κ) : List (List Sample) :=
  (visits modes g).filterMap fun c => (c.1.sample c.2).result.toOption

theorem visits_length {modes : List Mode} (hlen : g.latest.length = g.meters.length) :
    ∀ c ∈ visits modes g, c.1.latest.length = c.1.meters.length := by
  induction modes generalizing g with
  | nil => simp [visits]
  | cons mode modes ih =>
    intro c hc
    rcases List.mem_cons.mp hc with rfl | hc
    · exact hlen
    · exact ih (sample_length mode hlen) c hc

/-- While every call that fails leaves the samples as they were, those to be seen are those that the
last successful call gave. -/
theorem run_shown {modes : List Mode} {seen : List Sample}
    (hlen : g.latest.length = g.meters.length) (hseen : g.shown = seen.map Sample.shown)
    (hkeeps : ∀ c ∈ visits modes g, c.1.Fails c.2 → c.1.Untouched c.2) :
    (run modes g).shown = (((given modes g).getLast?).getD seen).map Sample.shown := by
  induction modes generalizing g seen with
  | nil => exact hseen
  | cons mode modes ih =>
    have hrest : ∀ c ∈ visits modes (g.sample mode).state, c.1.Fails c.2 → c.1.Untouched c.2 :=
      fun c hc => hkeeps c (List.mem_cons_of_mem _ hc)
    cases hr : (g.sample mode).result with
    | ok latest =>
      have hlatest : (g.sample mode).state.shown = latest.map Sample.shown := by
        rw [shown, sample_given hr]
      have hgiven : given (mode :: modes) g = latest :: given modes (g.sample mode).state := by
        simp [given, visits, hr, Except.toOption]
      rw [hgiven, List.getLast?_cons, Option.getD_some]
      exact ih (sample_length mode hlen) hlatest hrest
    | error stop =>
      have hsame := (untouched_iff mode hlen).mpr (hkeeps (g, mode) List.mem_cons_self ⟨stop, hr⟩)
      have hgiven : given (mode :: modes) g = given modes (g.sample mode).state := by
        simp [given, visits, hr, Except.toOption]
      rw [hgiven]
      exact ih (sample_length mode hlen) (hsame.1.trans hseen) hrest

theorem untouched_of_none_accepted (h : g.accepted = []) : g.Untouched mode := by
  rw [Untouched, h]
  exact ⟨List.nil_prefix, List.nil_prefix⟩

/-- A call that cannot read every counter fails and leaves samples and baselines. Any other that fails
leaves those of the counters from the refused one on, and all of them just when it is untouched. While
every call that fails is untouched, the samples to be seen are those of the last that succeeded. -/
theorem failed_call_leaves_rest {supply : Nat → κ} {pid : Os.Pid} {attach : Bool} {ordinal : Nat}
    {events : List Event} (hopen : (openOn supply pid attach ordinal events).result = .ok g)
    (modes : List Mode) :
    (∀ c ∈ visits modes g, none ∈ found c.1.meters → c.1.Fails c.2 ∧
      (c.1.sample c.2).state.latest = c.1.latest ∧
      baselines (c.1.sample c.2).state.meters = baselines c.1.meters) ∧
    (∀ c ∈ visits modes g, c.1.Fails c.2 →
      (c.1.sample c.2).state.latest =
        c.1.accepted.map (fun x => ⟨x.covered c.2⟩) ++ c.1.latest.drop c.1.accepted.length ∧
      baselines (c.1.sample c.2).state.meters =
        c.1.accepted.map (fun x => (x.scaled c.2).baseline) ++
          (baselines c.1.meters).drop c.1.accepted.length ∧
      ((c.1.sample c.2).state.shown = c.1.shown ∧
        baselines (c.1.sample c.2).state.meters = baselines c.1.meters ↔ c.1.Untouched c.2)) ∧
    ((∀ c ∈ visits modes g, c.1.Fails c.2 → c.1.Untouched c.2) → (run modes g).shown =
      (((given modes g).getLast?).getD (g.meters.map fun _ => Sample.none)).map Sample.shown) := by
  have hlatest : g.latest = g.meters.map fun _ => Sample.none := openOn_latest hopen
  have hlen : g.latest.length = g.meters.length := (openOn_fresh hopen).2
  refine ⟨?_, ?_, ?_⟩
  · intro c hc hnone
    obtain ⟨hkept, hbaselines⟩ := sample_state c.2 (visits_length hlen c hc)
    have haccepted : c.1.accepted = [] := if_pos hnone
    rw [haccepted] at hkept hbaselines
    exact ⟨fails_of_unreadable c.2 hnone, hkept, hbaselines⟩
  · intro c hc _
    obtain ⟨hkept, hbaselines⟩ := sample_state c.2 (visits_length hlen c hc)
    exact ⟨hkept, hbaselines, untouched_iff c.2 (visits_length hlen c hc)⟩
  · intro hkeeps
    exact run_shown hlen (congrArg (List.map Sample.shown) hlatest) hkeeps

/-- After a call that succeeds, one is refused the first counter and another cannot read it. -/
theorem failed_call_leaves_rest_of_two :
    let script : Nat → Script := fun
      | 0 => { reads := [.ok ⟨100, 10, 10⟩, .ok ⟨150, 20, 21⟩, Result.fail (.scripted "gone")] }
      | _ => { reads := [.ok ⟨7, 10, 5⟩, .ok ⟨9, 20, 9⟩] }
    ∃ g, (openOn script 1 true 0 [⟨.hardware, 0, .none⟩, ⟨.hardware, 1, .none⟩]).result = .ok g ∧
      (run [.relative, .relative, .aggregated] g).shown =
        [Sample.shown ⟨⟨100, 10, 10⟩⟩, Sample.shown ⟨⟨7, 10, 5⟩⟩] := by
  intro script
  let g : Group Script :=
    ⟨1, [⟨⟨.hardware, 0, .none⟩, 0, script 0, .fresh⟩, ⟨⟨.hardware, 1, .none⟩, 1, script 1, .fresh⟩],
      [.none, .none]⟩
  have hopen : (openOn script 1 true 0 [⟨.hardware, 0, .none⟩, ⟨.hardware, 1, .none⟩]).result = .ok g :=
    rfl
  obtain ⟨_, _, hlast⟩ := failed_call_leaves_rest hopen [.relative, .relative, .aggregated]
  refine ⟨g, hopen, hlast ?_⟩
  intro c hc hfails
  simp only [visits, List.mem_cons, List.not_mem_nil, or_false] at hc
  rcases hc with rfl | rfl | rfl
  · obtain ⟨stop, hstop⟩ := hfails
    cases hstop
  · exact untouched_of_none_accepted rfl
  · exact untouched_of_none_accepted rfl

/-- The second counter is refused, and by then the first has a new sample and a new baseline. -/
theorem refused_counter_changes_sample_before :
    let script : Nat → Script := fun
      | 0 => { reads := [.ok ⟨100, 10, 10⟩] }
      | _ => { reads := [.ok ⟨7, 5, 6⟩] }
    ∃ g, (openOn script 1 true 0 [⟨.hardware, 0, .none⟩, ⟨.hardware, 1, .none⟩]).result = .ok g ∧
      g.Fails .relative ∧ (g.sample .relative).state.shown ≠ g.shown ∧
      baselines (g.sample .relative).state.meters ≠ baselines g.meters := by
  refine ⟨_, rfl, ⟨_, rfl⟩, ?_, by decide⟩
  intro hsame
  -- The first sample is that of an enabled counter now.
  have henabled := congrArg (List.map fun s => s.2.2) hsame
  revert henabled
  decide

end Group

end Corun.Counter
