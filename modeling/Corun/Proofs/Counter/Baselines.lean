import Mathlib.Data.List.DropRight
import Corun.Counter.Group
import Corun.Proofs.Counter.Scaling

namespace Corun.Counter

namespace Gauge

variable {g : Gauge}

/-- What a request for a sample comes to by the latest reading alone, and by what it is to cover. -/
def judged (now covered : Count) : Except Cause Sample :=
  if now.enabled < now.running then .error (.counterOverrun now.running now.enabled)
  else if now.running = 0 ∧ now.value ≠ 0 then .error (.counterDrift 0 now.value)
  else .ok ⟨covered⟩

/-- Nothing was counted before the counter ran. -/
def Counted (c : Count) : Prop := c.running = 0 → c.value = 0

/-- A counter that has not run yet had not run at the baseline either, so that nothing was counted until
then: the baseline has no say in what is refused. -/
theorem scale_judged (hgrows : Count.Grows g.baseline g.current) (hcounted : Counted g.baseline)
    (mode : Mode) : (g.scale mode).1 = judged g.current (g.covered mode) := by
  have hzero : g.current.running = 0 → g.baseline.value = 0 := fun hr =>
    hcounted (Nat.eq_zero_of_le_zero (hr ▸ hgrows.running))
  by_cases hover : g.current.enabled < g.current.running
  · simp [scale, violation?, judged, hover]
  by_cases hr : g.current.running = 0
  · by_cases hv : g.current.value = 0 <;> simp [scale, violation?, judged, hr, hv, hzero hr]
  · simp [scale, violation?, judged, hover, hr]

theorem counted_of_judged {now covered : Count} {s : Sample} (h : judged now covered = .ok s) :
    Counted now := by
  intro hr
  by_contra hv
  simp [judged, hr, hv] at h

end Gauge

namespace Meter

/-- What can be asked of an open counter. -/
inductive Request where
  | read
  | scale (mode : Mode)

/-- What is seen of a request: the reading if there was one, or what came of the request for a
sample. -/
inductive Seen where
  | read (reading : Option Count)
  | scaled (mode : Mode) (outcome : Except Cause Sample)

namespace Seen

def request : Seen → Request
  | read _ => .read
  | scaled mode _ => .scale mode

def reading? : Seen → Option Count
  | read reading => reading
  | scaled .. => none

/-- A sample that later relative samples start from. -/
def movesBaseline : Seen → Bool
  | scaled .relative (.ok _) => true
  | _ => false

/-- Requests in aggregated mode, and those that fail. -/
inductive Passing : Seen → Prop where
  | aggregated (outcome : Except Cause Sample) : Passing (scaled .aggregated outcome)
  | failed (mode : Mode) (cause : Cause) : Passing (scaled mode (.error cause))

end Seen

/-- The readings that were taken, in order. -/
def readings (seen : List Seen) : List Count := seen.filterMap Seen.reading?

/-- The latest reading, zero before the first. -/
def latest (seen : List Seen) : Count := (readings seen).getLastD .zero

/-- The reading that the last relative sample was made of, zero if there was none. -/
def sampledAt (seen : List Seen) : Count := latest (seen.rdropWhile fun x => !x.movesBaseline)

/-- Some of the requests in a run are left out, all of them passing ones. -/
inductive Spares : List Seen → List Seen → Prop where
  | nil : Spares [] []
  | keep {kept seen : List Seen} (x : Seen) (rest : Spares kept seen) : Spares (x :: kept) (x :: seen)
  | drop {kept seen : List Seen} {x : Seen} (passing : x.Passing) (rest : Spares kept seen) :
    Spares kept (x :: seen)

variable {κ : Type} [Source κ] {m f : Meter κ} {event : Event} {ordinal : Nat} {source : κ}
  {requests : List Request} {seen kept : List Seen} {x : Seen}

/-- A meter answers every request. -/
def step : Machine (Meter κ) Request Seen
  | m, .read => some (m.read.state, [.read (Source.read m.source).1.toOption])
  | m, .scale mode => some ((m.scale mode).2, [.scaled mode (m.scale mode).1])

theorem readings_append (before after : List Seen) :
    readings (before ++ after) = readings before ++ readings after := List.filterMap_append ..

theorem latest_read (seen : List Seen) (reading : Option Count) :
    latest (seen ++ [.read reading]) = reading.getD (latest seen) := by
  cases reading <;> simp [latest, readings, Seen.reading?]

theorem latest_scaled (seen : List Seen) (mode : Mode) (outcome : Except Cause Sample) :
    latest (seen ++ [.scaled mode outcome]) = latest seen := by
  simp [latest, readings, Seen.reading?]

theorem Seen.Passing.stays (h : x.Passing) : x.movesBaseline = false := by
  cases h with
  | aggregated outcome => rfl
  | failed mode cause => cases mode <;> rfl

theorem sampledAt_stays (h : x.movesBaseline = false) : sampledAt (seen ++ [x]) = sampledAt seen := by
  rw [sampledAt, List.rdropWhile_concat_pos _ _ _ (by simp [h]), sampledAt]

theorem sampledAt_sampled (seen : List Seen) (s : Sample) :
    sampledAt (seen ++ [.scaled .relative (.ok s)]) = latest seen := by
  rw [sampledAt, List.rdropWhile_concat_neg _ _ _ (by simp [Seen.movesBaseline]), latest_scaled]

theorem read_gauge (m : Meter κ) :
    m.read.state.gauge = m.gauge.take (Source.read m.source).1.toOption := by
  simp only [read]
  cases (Source.read m.source).1 <;> rfl

/-- A gauge holds two of the readings that were seen, whatever they were. -/
theorem run_gauge (hr : Machine.run step (create event ordinal source) requests = some (m, seen)) :
    m.gauge = ⟨latest seen, sampledAt seen⟩ := by
  refine Machine.run_invariant (P := fun m _ seen => m.gauge = ⟨latest seen, sampledAt seen⟩) rfl ?_ hr
  intro _ m seen request u e _ ih hs
  cases request with
  | read =>
    cases hs
    rw [read_gauge, ih, sampledAt_stays rfl, latest_read]
    cases (Source.read m.source).1.toOption <;> rfl
  | scale mode =>
    cases hs
    simp only [Meter.scale]
    cases hv : m.gauge.violation? with
    | some cause =>
      have hpasses : Seen.Passing (.scaled mode (.error cause)) := .failed mode cause
      rw [Gauge.scale_refused hv, ih, latest_scaled, sampledAt_stays hpasses.stays]
    | none =>
      rw [Gauge.scale_sound hv, latest_scaled]
      cases mode with
      | relative => rw [sampledAt_sampled, Gauge.scaled, Gauge.settle, ih]
      | aggregated => rw [sampledAt_stays rfl, Gauge.scaled, ih]

/-- While readings do not shrink, the baseline is one of them, from when nothing was counted without the
counter running. -/
theorem run_reads (hr : Machine.run step (create event ordinal source) requests = some (m, seen))
    (hgrows : (readings seen).IsChain Count.Grows) :
    m.gauge.Reads (readings seen) ∧ Gauge.Counted m.gauge.baseline := by
  refine Machine.run_invariant (P := fun m _ seen => (readings seen).IsChain Count.Grows →
    m.gauge.Reads (readings seen) ∧ Gauge.Counted m.gauge.baseline)
    (fun _ => ⟨Gauge.fresh_reads, fun _ => rfl⟩) ?_ hr hgrows
  intro _ m seen request u e _ ih hs hchain
  rw [readings_append] at hchain
  obtain ⟨hreads, hcounted⟩ := ih hchain.left_of_append
  cases request with
  | read =>
    cases hs
    rw [read_gauge, readings_append]
    cases hfound : (Source.read m.source).1.toOption with
    | none => exact ⟨(List.append_nil _).symm ▸ hreads, hcounted⟩
    | some reading =>
      rw [hfound] at hchain
      exact ⟨hreads.observe_next hchain, hcounted⟩
  | scale mode =>
    cases hs
    simp only [Meter.scale]
    refine ⟨?_, ?_⟩
    · rw [readings_append]
      exact (List.append_nil _).symm ▸ hreads.scale mode
    · cases hv : m.gauge.violation? with
      | some cause =>
        rw [Gauge.scale_refused hv]
        exact hcounted
      | none =>
        have hjudged := Gauge.scale_judged hreads.grows hcounted mode
        rw [Gauge.scale_sound hv] at hjudged ⊢
        cases mode with
        | relative => exact Gauge.counted_of_judged hjudged.symm
        | aggregated => exact hcounted

/-- While readings do not shrink, a request for a sample is judged by the latest one. -/
theorem run_judged (hr : Machine.run step (create event ordinal source) requests = some (m, seen))
    (hgrows : (readings seen).IsChain Count.Grows) (mode : Mode) :
    (m.scale mode).1 =
      Gauge.judged (latest seen) (Gauge.covered mode ⟨latest seen, sampledAt seen⟩) := by
  obtain ⟨hreads, hcounted⟩ := run_reads hr hgrows
  have hjudged : (m.scale mode).1 = Gauge.judged m.gauge.current (m.gauge.covered mode) :=
    Gauge.scale_judged hreads.grows hcounted mode
  rwa [run_gauge hr] at hjudged

theorem step_one {r : Request} {e : List Seen} (hs : step m r = some (f, e)) :
    ∃ x : Seen, e = [x] ∧ x.request = r ∧ (x.Passing → f = m) := by
  cases r with
  | read =>
    cases hs
    exact ⟨_, rfl, rfl, fun h => nomatch h⟩
  | scale mode =>
    cases hs
    refine ⟨_, rfl, rfl, ?_⟩
    simp only [Meter.scale]
    cases hv : m.gauge.violation? with
    | some cause =>
      rw [Gauge.scale_refused hv]
      exact fun _ => rfl
    | none =>
      rw [Gauge.scale_sound hv]
      intro h
      cases h
      rfl

theorem run_requests (hr : Machine.run step m requests = some (f, seen)) :
    seen.map Seen.request = requests := by
  induction requests generalizing m seen with
  | nil =>
    obtain ⟨_, rfl⟩ := Machine.run_nil.mp hr
    rfl
  | cons r requests ih =>
    obtain ⟨u, _, rest, hs, hrest, rfl⟩ := Machine.run_cons.mp hr
    obtain ⟨x, rfl, hx, _⟩ := step_one hs
    rw [List.singleton_append, List.map_cons, hx, ih hrest]

/-- Without some of the requests that passed, a run leads to the same meter, and all that is seen of the
others is the same. -/
theorem run_spared (hr : Machine.run step m requests = some (f, seen)) (hspares : Spares kept seen) :
    Machine.run step m (kept.map Seen.request) = some (f, kept) := by
  induction requests generalizing m seen kept with
  | nil =>
    obtain ⟨rfl, rfl⟩ := Machine.run_nil.mp hr
    cases hspares
    rfl
  | cons r requests ih =>
    obtain ⟨u, _, rest, hs, hrest, rfl⟩ := Machine.run_cons.mp hr
    obtain ⟨x, rfl, rfl, hstays⟩ := step_one hs
    cases hspares with
    | keep _ hspares => exact Machine.run_cons.mpr ⟨u, [x], _, hs, ih hrest hspares, rfl⟩
    | drop passing hspares =>
      obtain rfl := hstays passing
      exact ih hrest hspares

/-- A meter that was only read has moved no baseline. -/
theorem sampledAt_replicate {n : Nat}
    (hr : Machine.run step m (List.replicate n .read) = some (f, seen)) : sampledAt seen = .zero := by
  have hreads : ∀ x ∈ seen, (!x.movesBaseline) = true := by
    intro x hx
    have hrequest : x.request = .read :=
      List.eq_of_mem_replicate (run_requests hr ▸ List.mem_map_of_mem hx)
    cases x with
    | read reading => rfl
    | scaled mode outcome => cases hrequest
  rw [sampledAt, List.rdropWhile_eq_nil_iff.mpr hreads]
  rfl

/-- However requests in both modes alternate, while readings do not shrink: in aggregated mode a meter
answers what any other answers that has the same latest reading and was never asked before. In relative
mode it goes by the latest reading, and covers what was added to the one that the last relative sample
was made of. Requests in aggregated mode and requests that fail make no difference to any other. -/
theorem answers_told_by_two_readings
    (hr : Machine.run step (create event ordinal source) requests = some (m, seen))
    (hgrows : (readings seen).IsChain Count.Grows) :
    (∀ (e : Event) (k : Nat) (s : κ) (n : Nat) (f : Meter κ) (fresh : List Seen),
      Machine.run step (create e k s) (List.replicate n .read) = some (f, fresh) →
      latest fresh = latest seen → (m.scale .aggregated).1 = (f.scale .aggregated).1) ∧
    (m.scale .relative).1 =
      Gauge.judged (latest seen) ((latest seen).since (sampledAt seen)) ∧
    ∀ kept, Spares kept seen →
      Machine.run step (create event ordinal source) (kept.map Seen.request) = some (m, kept) := by
  refine ⟨?_, run_judged hr hgrows .relative, fun kept hspares => run_spared hr hspares⟩
  intro e k s n f fresh hf hlatest
  have hgauge : f.gauge = ⟨latest seen, .zero⟩ := by
    rw [run_gauge hf, hlatest, sampledAt_replicate hf]
  have hjudged : (f.scale .aggregated).1 = Gauge.judged f.gauge.current (f.gauge.covered .aggregated) :=
    Gauge.scale_judged (hgauge ▸ Count.zero_grows _) (hgauge ▸ fun _ => rfl) .aggregated
  rw [run_judged hr hgrows, hjudged, hgauge]
  rfl

/-- The second reading is refused, so the sample after the third covers both intervals. The meter would
have come to it as well without the refused request and without the aggregated one. -/
theorem answers_told_after_refusal :
    let script : Script := { reads := [.ok ⟨100, 10, 10⟩, .ok ⟨100, 20, 21⟩, .ok ⟨150, 30, 25⟩] }
    ∃ m seen, Machine.run step (create ⟨.hardware, 0, .none⟩ 0 script)
        [.read, .scale .relative, .scale .aggregated, .read, .scale .relative, .read] =
          some (m, seen) ∧
      (readings seen).IsChain Count.Grows ∧
      (m.scale .aggregated).1 = ((create ⟨.raw, 7, .none⟩ 0
        ({ reads := [.ok ⟨150, 30, 25⟩] } : Script)).read.state.scale .aggregated).1 ∧
      (m.scale .relative).1 = .ok ⟨⟨50, 20, 15⟩⟩ ∧
      ∃ kept, Machine.run step (create ⟨.hardware, 0, .none⟩ 0 script)
        [.read, .scale .relative, .read, .read] = some (m, kept) := by
  intro script
  let seen : List Seen := [.read (some ⟨100, 10, 10⟩), .scaled .relative (.ok ⟨⟨100, 10, 10⟩⟩),
    .scaled .aggregated (.ok ⟨⟨100, 10, 10⟩⟩), .read (some ⟨100, 20, 21⟩),
    .scaled .relative (.error (.counterOverrun 21 20)), .read (some ⟨150, 30, 25⟩)]
  have hrun : Machine.run step (create ⟨.hardware, 0, .none⟩ 0 script)
      [.read, .scale .relative, .scale .aggregated, .read, .scale .relative, .read] =
        some (⟨⟨.hardware, 0, .none⟩, 0, { reads := [] }, ⟨⟨150, 30, 25⟩, ⟨100, 10, 10⟩⟩⟩, seen) := rfl
  have hgrows : (readings seen).IsChain Count.Grows := by decide
  let kept : List Seen := [.read (some ⟨100, 10, 10⟩), .scaled .relative (.ok ⟨⟨100, 10, 10⟩⟩),
    .read (some ⟨100, 20, 21⟩), .read (some ⟨150, 30, 25⟩)]
  have hspares : Spares kept seen :=
    .keep _ (.keep _ (.drop (.aggregated _) (.keep _ (.drop (.failed _ _) (.keep _ .nil)))))
  obtain ⟨hfresh, hrelative, hspared⟩ := answers_told_by_two_readings hrun hgrows
  exact ⟨_, seen, hrun, hgrows, hfresh _ _ _ 1 _ _ rfl rfl, hrelative, kept, hspared kept hspares⟩

end Meter

end Corun.Counter
