import Mathlib.Data.List.TakeWhile
import Corun.Proofs.Counter.Sampling

namespace Corun.Counter
open Os

namespace Gauge

variable {g : Gauge} {cause : Cause}

theorem violation_invariant (h : g.violation? = some cause) : cause.isCounterInvariant = true := by
  unfold violation? at h
  split at h
  · cases h
    rfl
  · split at h
    · cases h
      rfl
    · cases h

end Gauge

variable {κ : Type} [Source κ]

namespace Group

variable {g : Group κ} {ms : List (Meter κ)} {mode : Mode} {latest : List Sample} {cause : Cause}
  {stop : Stop}

/-- The first invariant that the counters break, if all of them can be read. -/
def broken? (g : Group κ) : Option Cause :=
  if (found g.meters).contains none then none else g.taken.findSome? Gauge.violation?

/-- Counters that cannot be read fail for a reason of their own, which is not a broken invariant. -/
def Plain (g : Group κ) : Prop :=
  ∀ m ∈ g.meters, ∀ stop, (Source.read m.source).1 = .error stop →
    ∃ f, stop = .failed f ∧ f.cause.isCounterInvariant = false

theorem broken_invariant (h : g.broken? = some cause) : cause.isCounterInvariant = true := by
  unfold broken? at h
  split at h
  · cases h
  · obtain ⟨x, -, hx⟩ := List.exists_of_findSome?_eq_some h
    exact Gauge.violation_invariant hx

omit [Source κ] in
/-- Scaling ends with the first gauge that objects to its reading. -/
theorem scaleMeters_result (mode : Mode) (hlen : latest.length = ms.length) :
    (scaleMeters mode ms latest).1 =
      match (gauges ms).findSome? Gauge.violation? with
      | some cause => .error cause
      | none => .ok () := by
  induction ms generalizing latest with
  | nil =>
    cases latest with
    | nil => rfl
    | cons s ss => cases hlen
  | cons m ms ih =>
    cases latest with
    | nil => cases hlen
    | cons s ss =>
      have hrest := ih (Nat.succ.inj hlen)
      cases hv : m.gauge.violation? with
      | some cause => simp [scaleMeters, Meter.scale, Gauge.scale_refused hv, gauges, hv]
      | none =>
        simp only [scaleMeters, Meter.scale, Gauge.scale_sound hv, gauges, List.map_cons,
          List.findSome?_cons, hv] at hrest ⊢
        exact hrest

theorem readMeters_failed (h : (readMeters ms).result = .error stop) :
    ∃ m ∈ ms, (Source.read m.source).1 = .error stop := by
  induction ms with
  | nil => cases h
  | cons m ms ih =>
    cases hr : (Source.read m.source).1 with
    | error own =>
      simp only [readMeters, Meter.read, hr] at h
      cases h
      exact ⟨m, List.mem_cons_self, hr⟩
    | ok count =>
      simp only [readMeters, Meter.read, hr] at h
      obtain ⟨m', hm, hfails⟩ := ih h
      exact ⟨m', List.mem_cons_of_mem _ hm, hfails⟩

/-- Reading counters is not written down. -/
theorem readMeters_silent (ms : List (Meter κ)) : Note.logs (readMeters ms).notes = [] := by
  induction ms with
  | nil => rfl
  | cons m ms ih =>
    cases hr : (Source.read m.source).1 with
    | error own => simp [readMeters, Meter.read, hr, Note.logs, Note.logLine?]
    | ok count =>
      simp only [readMeters, Meter.read, hr, Note.logs, List.filterMap_append] at ih ⊢
      rw [ih]
      rfl

theorem sample_notes (mode : Mode) (g : Group κ) : (g.sample mode).notes = (readMeters g.meters).notes := by
  unfold sample
  cases hr : (readMeters g.meters).result with
  | error own => simp only [hr]
  | ok u =>
    simp only [hr]
    split <;> rfl

/-- The three ways that a call can go. -/
theorem sample_cases (mode : Mode) (hlen : g.latest.length = g.meters.length) (hplain : g.Plain) :
    (none ∉ found g.meters ∧ g.broken? = none ∧
      (g.sample mode).result = .ok (g.taken.map fun x => ⟨x.covered mode⟩) ∧
      (g.sample mode).state.latest = g.taken.map fun x => ⟨x.covered mode⟩) ∨
    (∃ f, (∃ m ∈ g.meters, (Source.read m.source).1 = .error (.failed f)) ∧ g.broken? = none ∧
      f.cause.isCounterInvariant = false ∧ (g.sample mode).result = .error (.failed f) ∧
      (g.sample mode).state.latest = g.latest) ∨
    ∃ cause, g.broken? = some cause ∧ (g.sample mode).result = Result.fail cause := by
  by_cases hread : none ∈ found g.meters
  · have hwhole : g.broken? = none := if_pos (List.contains_iff_mem.mpr hread)
    cases hr : (readMeters g.meters).result with
    | ok u => exact absurd hread ((readMeters_result _).mp hr)
    | error stop =>
      obtain ⟨m, hm, hfails⟩ := readMeters_failed hr
      obtain ⟨f, rfl, hf⟩ := hplain m hm stop hfails
      refine .inr (.inl ⟨f, ⟨m, hm, hfails⟩, hwhole, hf, ?_, (sample_unreadable mode hread).2⟩)
      simp only [sample, hr]
  · have hbroken : g.broken? = g.taken.findSome? Gauge.violation? :=
      if_neg (mt List.contains_iff_mem.mp hread)
    have hscaled := scaleMeters_result mode (hlen.trans (readMeters_length _).symm)
    rw [readMeters_gauges, ← taken] at hscaled
    cases hv : g.taken.findSome? Gauge.violation? with
    | none =>
      have hsound : Gauge.sound g.taken = g.taken := by
        apply List.takeWhile_eq_self_iff.mpr
        intro x hx
        rw [List.findSome?_eq_none_iff.mp hv x hx]
        rfl
      have haccepted : g.accepted = g.taken := (if_neg hread).trans hsound
      obtain ⟨hlatest, -⟩ := sample_state mode hlen
      rw [haccepted, taken_length, ← hlen, List.drop_length, List.append_nil] at hlatest
      refine .inl ⟨hread, hbroken.trans hv, ?_, hlatest⟩
      rw [hv] at hscaled
      rw [← hlatest]
      simp only [sample, (readMeters_result _).mpr hread, hscaled]
      rfl
    | some cause =>
      refine .inr (.inr ⟨cause, hbroken.trans hv, ?_⟩)
      rw [hv] at hscaled
      simp only [sample, (readMeters_result _).mpr hread, hscaled]
      rfl

end Group

namespace Sampler

variable {g : Group κ} {groups more : PidMap (Group κ)} {mode : Mode} {pid : Pid} {s : Sampler κ}

/-- What a sample makes of the processes that it comes to, one after another. -/
inductive Sweep (mode : Mode) : PidMap (Group κ) → Step (PidMap (Group κ)) Unit → Prop where
  | nil : Sweep mode [] (.done [] () [])
  /-- All counters can be read and keep their invariants. -/
  | sampled (pid : Pid) (g g' : Group κ) (notes : List Note) (more : PidMap (Group κ))
      (rest : Step (PidMap (Group κ)) Unit) (readable : none ∉ Group.found g.meters)
      (sound : g.broken? = none) (latest : g'.latest = g.taken.map fun x => ⟨x.covered mode⟩)
      (reads : ReadsOf (ordinals g.meters) notes)
      (logged : Note.logs notes = sampleLines pid g'.latest) (onward : Sweep mode more rest) :
    Sweep mode ((pid, g) :: more) ⟨rest.result, (pid, g') :: rest.state, notes ++ rest.notes⟩
  /-- A counter cannot be read. That is warned of once, and the samples stay. -/
  | skipped (pid : Pid) (g g' : Group κ) (f : Failure) (notes : List Note) (more : PidMap (Group κ))
      (rest : Step (PidMap (Group κ)) Unit)
      (unreadable : ∃ m ∈ g.meters, (Source.read m.source).1 = .error (.failed f))
      (sound : g.broken? = none) (latest : g'.latest = g.latest)
      (reads : ReadsOf (ordinals g.meters) notes)
      (logged : Note.logs notes = [.warn s!"failed to sample process {pid}: {f.message}"])
      (onward : Sweep mode more rest) :
    Sweep mode ((pid, g) :: more) ⟨rest.result, (pid, g') :: rest.state, notes ++ rest.notes⟩
  /-- The counters break an invariant. What is behind them stays as it is. -/
  | stops (pid : Pid) (g g' : Group κ) (cause : Cause) (notes : List Note) (more : PidMap (Group κ))
      (broken : g.broken? = some cause) (reads : ReadsOf (ordinals g.meters) notes)
      (logged : Note.logs notes = []) :
    Sweep mode ((pid, g) :: more)
      ⟨Result.within (.inconsistentCounters pid) (Result.fail cause), (pid, g') :: more, notes⟩

theorem logs_append (notes more : List Note) :
    Note.logs (notes ++ more) = Note.logs notes ++ Note.logs more := List.filterMap_append

theorem logs_lines (lines : List LogLine) : Note.logs (lines.map Note.log) = lines := by
  induction lines with
  | nil => rfl
  | cons line lines ih => exact congrArg (line :: ·) ih

theorem sampleGroups_sweep (mode : Mode)
    (hlen : ∀ e ∈ groups, e.2.latest.length = e.2.meters.length) (hplain : ∀ e ∈ groups, e.2.Plain) :
    Sweep mode groups (sampleGroups mode groups) := by
  induction groups with
  | nil => exact .nil
  | cons e more ih =>
    obtain ⟨pid, g⟩ := e
    have honward := ih (fun e he => hlen e (List.mem_cons_of_mem _ he))
      fun e he => hplain e (List.mem_cons_of_mem _ he)
    obtain ⟨-, hreads⟩ := sampleOne_reads mode pid g
    have hsilent : Note.logs (g.sample mode).notes = [] := by
      rw [Group.sample_notes]
      exact Group.readMeters_silent _
    rcases Group.sample_cases mode (hlen _ List.mem_cons_self) (hplain _ List.mem_cons_self) with
      ⟨hreadable, hsound, hresult, hlatest⟩ | ⟨f, hunreadable, hsound, hf, hresult, hlatest⟩ |
      ⟨cause, hbroken, hresult⟩
    · have hone : sampleOne mode pid g = .done (g.sample mode).state ()
          ((g.sample mode).notes ++ (sampleLines pid (g.sample mode).state.latest).map Note.log) := by
        simp only [sampleOne, hresult, hlatest]
      have hlogged : Note.logs (sampleOne mode pid g).notes =
          sampleLines pid (g.sample mode).state.latest := by
        rw [hone]
        exact (logs_append ..).trans (by rw [hsilent, logs_lines, List.nil_append])
      have hall := Sweep.sampled pid g (g.sample mode).state _ more _ hreadable hsound hlatest hreads
        hlogged honward
      simpa only [sampleGroups, hone, Step.done] using hall
    · have hone : sampleOne mode pid g = .done (g.sample mode).state ()
          ((g.sample mode).notes ++ [.warn s!"failed to sample process {pid}: {f.message}"]) := by
        simp only [sampleOne, hresult, hf]
        rfl
      have hlogged : Note.logs (sampleOne mode pid g).notes =
          [.warn s!"failed to sample process {pid}: {f.message}"] := by
        rw [hone]
        exact (logs_append ..).trans (by rw [hsilent]; rfl)
      have hall := Sweep.skipped pid g (g.sample mode).state f _ more _ hunreadable hsound hlatest hreads
        hlogged honward
      simpa only [sampleGroups, hone, Step.done] using hall
    · have hinvariant : (Failure.ofCause cause).cause.isCounterInvariant = true :=
        Group.broken_invariant hbroken
      have hone : sampleOne mode pid g =
          ⟨Result.within (.inconsistentCounters pid) (Result.fail cause), (g.sample mode).state,
            (g.sample mode).notes⟩ := by
        simp only [sampleOne, hresult, Result.fail, hinvariant]
        rfl
      have hgroups : sampleGroups mode ((pid, g) :: more) =
          ⟨Result.within (.inconsistentCounters pid) (Result.fail cause),
            (pid, (g.sample mode).state) :: more, (g.sample mode).notes⟩ := by
        simp only [sampleGroups, hone]
        rfl
      rw [hone] at hreads
      rw [hgroups]
      exact .stops pid g _ cause _ more hbroken hreads hsilent

/-- The process at which a sample ends: the first whose counters break an invariant. Those behind it are
not read. -/
structure Stopped (groups : PidMap (Group κ)) (swept : Step (PidMap (Group κ)) Unit)
    (done larger : PidMap (Group κ)) (pid : Pid) (g : Group κ) (cause : Cause) : Prop where
  order : groups = done ++ (pid, g) :: larger
  before : ∀ e ∈ done, e.1 < pid ∧ e.2.broken? = none
  broken : g.broken? = some cause
  result : swept.result = .error (.failed ((Failure.ofCause cause).within (.inconsistentCounters pid)))
  behind : ∀ e ∈ larger, pid < e.1 ∧ e ∈ swept.state ∧
    ∀ k ∈ ordinals e.2.meters, history k swept.notes = []

omit [Source κ] in
theorem Ascending.tail_above {e : Pid × Group κ} (h : PidMap.Ascending (e :: more)) :
    (∀ e' ∈ more, e.1 < e'.1) ∧ PidMap.Ascending more := by
  obtain ⟨hlt, htail⟩ := List.pairwise_cons.mp h
  exact ⟨fun e' he' => hlt e'.1 (List.mem_map_of_mem he'), htail⟩

omit [Source κ] in
theorem counters_cons_nodup {e : Pid × Group κ} (h : (counters (e :: more)).Nodup) :
    (∀ e' ∈ more, ∀ k ∈ ordinals e'.2.meters, k ∉ ordinals e.2.meters) ∧ (counters more).Nodup := by
  rw [counters, List.flatMap_cons] at h
  obtain ⟨-, hrest, hapart⟩ := List.nodup_append.mp h
  refine ⟨?_, hrest⟩
  intro e' he' k hk hown
  exact hapart k hown k (List.mem_flatMap.mpr ⟨e', he', hk⟩) rfl

/-- A process that went well is one more before the one at which the sample ends. -/
theorem Stopped.later {rest : Step (PidMap (Group κ)) Unit} {done larger : PidMap (Group κ)} {q : Pid}
    {g' h : Group κ} {notes : List Note} {cause : Cause} (hs : Stopped more rest done larger q h cause)
    (hasc : PidMap.Ascending ((pid, g) :: more)) (hd : (counters ((pid, g) :: more)).Nodup)
    (hsound : g.broken? = none) (hreads : ReadsOf (ordinals g.meters) notes) :
    Stopped ((pid, g) :: more) ⟨rest.result, (pid, g') :: rest.state, notes ++ rest.notes⟩
      ((pid, g) :: done) larger q h cause := by
  obtain ⟨habove, -⟩ := Ascending.tail_above hasc
  obtain ⟨hapart, -⟩ := counters_cons_nodup hd
  refine ⟨by rw [hs.order, List.cons_append], ?_, hs.broken, hs.result, ?_⟩
  · intro e he
    rcases List.mem_cons.mp he with rfl | he
    · have hq : (q, h) ∈ more := by simp [hs.order]
      exact ⟨habove (q, h) hq, hsound⟩
    · exact hs.before e he
  · intro e he
    obtain ⟨hlt, hkept, hunread⟩ := hs.behind e he
    refine ⟨hlt, List.mem_cons_of_mem _ hkept, ?_⟩
    intro k hk
    have hmore : e ∈ more := by simp [hs.order, he]
    rw [history_append, hunread k hk, (hreads k).2 (hapart e hmore k hk), List.append_nil]

theorem Sweep.stopped {swept : Step (PidMap (Group κ)) Unit} {stop : Stop}
    (h : Sweep mode groups swept) (hasc : PidMap.Ascending groups) (hd : (counters groups).Nodup)
    (hstop : swept.result = .error stop) :
    ∃ done pid g larger cause, Stopped groups swept done larger pid g cause := by
  induction h with
  | nil => cases hstop
  | sampled pid g g' notes more rest readable sound latest reads logged onward ih =>
    obtain ⟨done, q, h, larger, cause, hs⟩ :=
      ih (Ascending.tail_above hasc).2 (counters_cons_nodup hd).2 hstop
    exact ⟨_, q, h, larger, cause, hs.later hasc hd sound reads⟩
  | skipped pid g g' f notes more rest unreadable sound latest reads logged onward ih =>
    obtain ⟨done, q, h, larger, cause, hs⟩ :=
      ih (Ascending.tail_above hasc).2 (counters_cons_nodup hd).2 hstop
    exact ⟨_, q, h, larger, cause, hs.later hasc hd sound reads⟩
  | stops pid g g' cause notes more broken reads logged =>
    refine ⟨[], pid, g, more, cause, rfl, by simp, broken, rfl, ?_⟩
    intro e he
    refine ⟨(Ascending.tail_above hasc).1 e he, List.mem_cons_of_mem _ he, ?_⟩
    intro k hk
    exact (reads k).2 ((counters_cons_nodup hd).1 e he k hk)

theorem Sweep.unstopped {swept : Step (PidMap (Group κ)) Unit} (h : Sweep mode groups swept)
    (hok : swept.result = .ok ()) : ∀ e ∈ groups, e.2.broken? = none := by
  induction h with
  | nil => simp
  | sampled pid g g' notes more rest readable sound latest reads logged onward ih =>
    exact List.forall_mem_cons.mpr ⟨sound, ih hok⟩
  | skipped pid g g' f notes more rest unreadable sound latest reads logged onward ih =>
    exact List.forall_mem_cons.mpr ⟨sound, ih hok⟩
  | stops => cases hok

/-- The processes are in order, and each counter has its sample. -/
structure Sound (s : Sampler κ) : Prop where
  ascending : PidMap.Ascending s.groups
  complete : ∀ e ∈ s.groups, e.2.latest.length = e.2.meters.length

theorem sampleGroups_pids (mode : Mode) (groups : PidMap (Group κ)) :
    PidMap.pids (sampleGroups mode groups).state = PidMap.pids groups := by
  induction groups with
  | nil => rfl
  | cons e more ih =>
    obtain ⟨pid, g⟩ := e
    simp only [sampleGroups]
    cases (sampleOne mode pid g).result with
    | error stop => rfl
    | ok u => exact congrArg (pid :: ·) ih

theorem sampleGroups_complete (mode : Mode)
    (h : ∀ e ∈ groups, e.2.latest.length = e.2.meters.length) :
    ∀ e ∈ (sampleGroups mode groups).state, e.2.latest.length = e.2.meters.length := by
  induction groups with
  | nil => exact h
  | cons e more ih =>
    obtain ⟨pid, g⟩ := e
    obtain ⟨hfirst, hmore⟩ := List.forall_mem_cons.mp h
    have hone : (sampleOne mode pid g).state.latest.length =
        (sampleOne mode pid g).state.meters.length := by
      rw [(sampleOne_logs mode pid g).1]
      exact Group.sample_length mode hfirst
    simp only [sampleGroups]
    cases (sampleOne mode pid g).result with
    | error stop => exact List.forall_mem_cons.mpr ⟨hone, hmore⟩
    | ok u => exact List.forall_mem_cons.mpr ⟨hone, ih hmore⟩

theorem add_cases (pid : Pid) (s : Sampler κ) :
    (s.add pid).state.groups = s.groups ∨
    ∃ g, PidMap.find? pid s.groups = none ∧ g.latest.length = g.meters.length ∧
      (s.add pid).state.groups = PidMap.insert pid g s.groups := by
  by_cases hc : PidMap.contains pid s.groups
  · simp [add, hc, Step.fail]
  · have hnone := PidMap.contains_eq_false_iff.mp (Bool.eq_false_of_not_eq_true hc)
    cases ho : (Group.openOn s.supply pid s.attach s.created s.generic.events).result with
    | error stop => simp [add, hc, ho]
    | ok g =>
      refine .inr ⟨g, hnone, (Group.openOn_fresh ho).2, ?_⟩
      simp [add, hc, ho, Step.done]

theorem Sound.call (h : Sound s) (c : Call) : Sound (s.call c).state := by
  have hadd : ∀ pid, Sound (s.add pid).state := by
    intro pid
    rcases add_cases pid s with hsame | ⟨g, hnone, hlen, hinsert⟩
    · exact ⟨hsame ▸ h.ascending, hsame ▸ h.complete⟩
    · refine ⟨hinsert ▸ h.ascending.insert, ?_⟩
      intro e he
      rw [hinsert, (PidMap.insert_perm hnone).mem_iff] at he
      rcases List.mem_cons.mp he with rfl | he
      · exact hlen
      · exact h.complete e he
  have hsample : Sound s.sample.state := by
    have hpids := sampleGroups_pids s.mode s.groups
    refine ⟨?_, sampleGroups_complete s.mode h.complete⟩
    unfold PidMap.Ascending
    exact hpids ▸ h.ascending
  cases c with
  | add pid => exact hadd pid
  | announce a => exact hadd a.pid
  | sample | tick => exact hsample

theorem Sound.after (h : Sound s) (calls : List Call) : Sound (s.after calls) := by
  induction calls generalizing s with
  | nil => exact h
  | cons c calls ih => exact ih (h.call c)

/-- How a sample goes. -/
structure Orderly (s : Sampler κ) : Prop where
  ascending : PidMap.Ascending s.groups
  sweep : Sweep s.mode s.groups ⟨s.sample.result, s.sample.state.groups, s.sample.notes⟩
  stopped : ∀ stop, s.sample.result = .error stop → ∃ done pid g larger cause,
    Stopped s.groups ⟨s.sample.result, s.sample.state.groups, s.sample.notes⟩ done larger pid g cause
  unstopped : s.sample.result = .ok () → ∀ e ∈ s.groups, e.2.broken? = none

theorem Sound.orderly (h : Sound s) (hd : (counters s.groups).Nodup)
    (hplain : ∀ e ∈ s.groups, e.2.Plain) : Orderly s := by
  have hsweep : Sweep s.mode s.groups ⟨s.sample.result, s.sample.state.groups, s.sample.notes⟩ :=
    sampleGroups_sweep s.mode h.complete hplain
  exact ⟨h.ascending, hsweep, fun stop hstop => hsweep.stopped h.ascending hd hstop, hsweep.unstopped⟩

end Sampler

end Corun.Counter
