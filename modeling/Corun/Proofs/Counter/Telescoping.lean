import Mathlib.Algebra.BigOperators.Group.List.Basic
import Corun.Proofs.Counter.Readings

namespace Corun.Counter.Group

variable {κ : Type} [Source κ] {g c : Group κ} {n i : Nat} {x y : Gauge} {s : Sample}

/-- The group as each of a number of calls in relative mode finds it. -/
def starts : Nat → Group κ → List (Group κ)
  | 0, _ => []
  | n + 1, g => g :: starts n g.next

/-- What calls read of one counter. -/
def readings (i : Nat) (calls : List (Group κ)) : List Count :=
  calls.filterMap fun g => (found g.meters)[i]?.join

/-- What a call gives for one counter, if it gives anything. -/
def sample? (i : Nat) (g : Group κ) : Option Sample :=
  match (g.sample .relative).result with
  | .ok latest => latest[i]?
  | .error _ => none

def samples (i : Nat) (calls : List (Group κ)) : List Sample := calls.filterMap (sample? i)

/-- The sum of the intervals that the samples of one counter cover. -/
def total (i : Nat) (calls : List (Group κ)) : Count := ((samples i calls).map Sample.covered).sum

def Succeeds (g : Group κ) : Prop := ∃ latest, (g.sample .relative).result = .ok latest

/-- The readings of each counter follow each other, both those that a gauge holds and those that it is
still to take in the next calls. -/
structure Steady (n : Nat) (g : Group κ) : Prop where
  sampled : g.latest.length = g.meters.length
  follows : ∀ (i : Nat) (x : Gauge), (gauges g.meters)[i]? = some x → Count.Follows x.baseline x.current
  ahead : ∀ (i : Nat) (x : Gauge), (gauges g.meters)[i]? = some x →
    (x.current :: readings i (starts n g)).IsChain Count.Follows

theorem taken_at (h : (gauges g.meters)[i]? = some x) :
    ∃ reading, (found g.meters)[i]? = some reading ∧ g.taken[i]? = some (x.take reading) := by
  have hlt : i < (found g.meters).length := by
    have := (List.getElem?_eq_some_iff.mp h).1
    rw [found_length]
    simpa [gauges] using this
  have hr := List.getElem?_eq_getElem hlt
  exact ⟨_, hr, by simp [taken, List.getElem?_zipWith, h, hr]⟩

theorem of_taken_at (h : g.taken[i]? = some y) :
    ∃ x reading, (gauges g.meters)[i]? = some x ∧ (found g.meters)[i]? = some reading ∧
      y = x.take reading := by
  obtain ⟨x, reading, hx, hr, rfl⟩ := List.getElem?_zipWith_eq_some.mp h
  exact ⟨x, reading, hx, hr, rfl⟩

namespace Steady

theorem taken (hs : Steady (n + 1) g) (h : g.taken[i]? = some y) :
    Count.Follows y.baseline y.current ∧
      (y.current :: readings i (starts n g.next)).IsChain Count.Follows := by
  obtain ⟨x, reading, hx, hr, rfl⟩ := of_taken_at h
  have hfollows := hs.follows i x hx
  have hahead := hs.ahead i x hx
  cases reading with
  | none =>
    simp only [starts, readings, List.filterMap_cons, hr, Option.join_some] at hahead
    exact ⟨hfollows, hahead⟩
  | some count =>
    simp only [starts, readings, List.filterMap_cons, hr, Option.join_some] at hahead
    obtain ⟨hnow, hlater⟩ := List.isChain_cons_cons.mp hahead
    exact ⟨hfollows.trans hnow, hlater⟩

theorem taken_follows (hs : Steady (n + 1) g) : ∀ x ∈ g.taken, Count.Follows x.baseline x.current := by
  intro x hx
  obtain ⟨i, hi⟩ := List.getElem?_of_mem hx
  exact (hs.taken hi).1

/-- A call that cannot read every counter changes no baseline, and one that can moves all of them up to
what was read. -/
theorem next (hs : Steady (n + 1) g) : Steady n g.next := by
  by_cases hread : none ∈ found g.meters
  · obtain ⟨_, hgauges, hlatest⟩ := sample_unread hread
    have hlen : g.next.meters.length = g.meters.length := by
      have := congrArg List.length hgauges
      rwa [gauges, List.length_map, taken_length] at this
    refine ⟨by rw [hlatest, hlen, hs.sampled], ?_, ?_⟩
    · intro i x hx
      exact (hs.taken (hgauges ▸ hx)).1
    · intro i x hx
      exact (hs.taken (hgauges ▸ hx)).2
  · obtain ⟨_, hgauges, hlatest⟩ := sample_read hread hs.sampled hs.taken_follows
    have hlen : g.next.meters.length = g.taken.length := by
      have := congrArg List.length hgauges
      rwa [gauges, List.length_map, List.length_map] at this
    refine ⟨by rw [hlatest, hlen, List.length_map], ?_, ?_⟩
    · intro i x hx
      rw [hgauges, List.getElem?_map] at hx
      obtain ⟨y, hy, rfl⟩ := Option.map_eq_some_iff.mp hx
      exact .refl (hs.taken hy).1.bounded
    · intro i x hx
      rw [hgauges, List.getElem?_map] at hx
      obtain ⟨y, hy, rfl⟩ := Option.map_eq_some_iff.mp hx
      exact (hs.taken hy).2

theorem of_mem (hs : Steady n g) (hc : c ∈ starts n g) : ∃ k, Steady (k + 1) c := by
  induction n generalizing g with
  | zero => cases hc
  | succ n ih =>
    rcases List.mem_cons.mp hc with rfl | hc
    · exact ⟨n, hs⟩
    · exact ih hs.next hc

/-- A call fails only where a counter cannot be read. -/
theorem succeeds_iff (hs : Steady (n + 1) g) : g.Succeeds ↔ none ∉ found g.meters := by
  constructor
  · rintro ⟨latest, hl⟩ hnone
    obtain ⟨⟨stop, hstop⟩, _⟩ := sample_unread hnone
    cases hl.symm.trans hstop
  · intro hread
    exact ⟨_, (sample_read hread hs.sampled hs.taken_follows).1⟩

theorem sample?_at (hs : Steady (n + 1) g) (hread : none ∉ found g.meters) :
    sample? i g = (g.taken[i]?).map fun x => ⟨x.current.since x.baseline⟩ := by
  simp only [sample?, (sample_read hread hs.sampled hs.taken_follows).1, List.getElem?_map]

end Steady

theorem sample?_failed (h : ¬g.Succeeds) : sample? i g = none := by
  cases hr : (g.sample .relative).result with
  | ok latest => exact absurd ⟨latest, hr⟩ h
  | error stop => simp [sample?, hr]

theorem total_cons (calls : List (Group κ)) :
    total i (g :: calls) = ((sample? i g).map Sample.covered).getD 0 + total i calls := by
  cases hs : sample? i g with
  | none => simp [total, samples, hs]
  | some s => simp [total, samples, hs]

theorem total_failed {calls : List (Group κ)} (h : ∀ c ∈ calls, ¬c.Succeeds) :
    total i calls = 0 := by
  induction calls with
  | nil => rfl
  | cons c calls ih =>
    rw [total_cons, sample?_failed (h c List.mem_cons_self),
      ih fun b hb => h b (List.mem_cons_of_mem _ hb)]
    rfl

/-- A call moves the baseline of a counter on by what its sample covers, and not at all if it fails. -/
theorem Steady.step (hs : Steady (n + 1) g) (hx : (gauges g.meters)[i]? = some x) :
    ∃ y : Gauge, (gauges g.next.meters)[i]? = some y ∧
      x.baseline + ((sample? i g).map Sample.covered).getD 0 = y.baseline ∧
      (g.Succeeds → (found g.meters)[i]? = some (some y.current) ∧ y.baseline = y.current) := by
  obtain ⟨reading, hr, ht⟩ := taken_at hx
  by_cases hread : none ∈ found g.meters
  · have hfails : ¬g.Succeeds := fun hok => hs.succeeds_iff.mp hok hread
    obtain ⟨_, hgauges, _⟩ := sample_unread hread
    refine ⟨x.take reading, hgauges ▸ ht, ?_, fun hok => absurd hok hfails⟩
    rw [sample?_failed hfails, Gauge.take_baseline]
    exact add_zero _
  · obtain ⟨_, hgauges, _⟩ := sample_read hread hs.sampled hs.taken_follows
    cases reading with
    | none => exact absurd (List.mem_of_getElem? hr) hread
    | some count =>
      refine ⟨(x.take (some count)).settle, ?_, ?_, fun _ => ⟨hr, rfl⟩⟩
      · rw [hgauges, List.getElem?_map, ht]
        rfl
      · rw [hs.sample?_at hread, ht]
        exact (hs.taken ht).1.add_since

/-- From the baseline that a counter starts with, its samples lead to what the last call that succeeded
read of it. -/
theorem Steady.total_reaches {before after : List (Group κ)} (hs : Steady n g)
    (hcalls : starts n g = before ++ c :: after) (hok : c.Succeeds)
    (hafter : ∀ b ∈ after, ¬b.Succeeds) (hx : (gauges g.meters)[i]? = some x) :
    ∃ y : Gauge, (gauges c.next.meters)[i]? = some y ∧
      (found c.meters)[i]? = some (some y.current) ∧ y.baseline = y.current ∧
      x.baseline + total i (starts n g) = y.current := by
  induction before generalizing n g x with
  | nil =>
    cases n with
    | zero => cases hcalls
    | succ n =>
      obtain ⟨rfl, hrest⟩ := List.cons.inj hcalls
      obtain ⟨y, hy, hsum, hlast⟩ := hs.step hx
      obtain ⟨hfound, hsettled⟩ := hlast hok
      refine ⟨y, hy, hfound, hsettled, ?_⟩
      rw [starts, total_cons, hrest, total_failed hafter, add_zero, hsum, hsettled]
  | cons b before ih =>
    cases n with
    | zero => cases hcalls
    | succ n =>
      obtain ⟨rfl, hrest⟩ := List.cons.inj hcalls
      obtain ⟨y, hy, hsum, _⟩ := hs.step hx
      obtain ⟨z, hz, hfound, hsettled, hreach⟩ := ih hs.next hrest hy
      refine ⟨z, hz, hfound, hsettled, ?_⟩
      rw [starts, total_cons, ← add_assoc, hsum, hreach]

theorem Steady.opened {supply : Nat → κ} {pid : Os.Pid} {attach : Bool} {ordinal : Nat}
    {events : List Event} (hopen : (openOn supply pid attach ordinal events).result = .ok g)
    (hread : ∀ i < g.meters.length, (.zero :: readings i (starts n g)).IsChain Count.Follows) :
    Steady n g := by
  obtain ⟨hfresh, hlen⟩ := openOn_fresh hopen
  refine ⟨hlen, ?_, ?_⟩
  · intro i x hx
    rw [hfresh x (List.mem_of_getElem? hx)]
    exact .refl (Nat.le_refl _)
  · intro i x hx
    have hlt := (List.getElem?_eq_some_iff.mp hx).1
    rw [hfresh x (List.mem_of_getElem? hx)]
    exact hread i (by simpa [gauges] using hlt)

/-- A sample covers what lies between two readings that follow each other. -/
theorem Steady.covers (hs : Steady n g) (h : s ∈ samples i (starts n g)) :
    ∃ y : Gauge, Count.Follows y.baseline y.current ∧ s = ⟨y.current.since y.baseline⟩ := by
  obtain ⟨c, hc, hsample⟩ := List.mem_filterMap.mp h
  obtain ⟨k, hk⟩ := hs.of_mem hc
  by_cases hread : none ∈ found c.meters
  · have hfails : ¬c.Succeeds := fun hok => hk.succeeds_iff.mp hok hread
    rw [sample?_failed hfails] at hsample
    cases hsample
  · rw [hk.sample?_at hread] at hsample
    obtain ⟨y, hy, rfl⟩ := Option.map_eq_some_iff.mp hsample
    exact ⟨y, (hk.taken hy).1, rfl⟩

/-- While the readings of every counter follow each other, a call fails only where one cannot be read.
What the samples of a counter cover, over all calls that succeed, is what the last of them read, and
what a sample since the opening would cover then. Each sample is an exact extrapolation of what it
covers, unless the counter ran in no enabled time. -/
theorem intervals_add_up {supply : Nat → κ} {pid : Os.Pid} {attach : Bool} {ordinal : Nat}
    {events : List Event} (hopen : (openOn supply pid attach ordinal events).result = .ok g)
    (hread : ∀ i < g.meters.length, (.zero :: readings i (starts n g)).IsChain Count.Follows) :
    (∀ c ∈ starts n g, c.Succeeds ↔ none ∉ found c.meters) ∧
    (∀ before c after, starts n g = before ++ c :: after → c.Succeeds →
      (∀ b ∈ after, ¬b.Succeeds) → ∀ i < g.meters.length,
        (found c.meters)[i]? = some (some (total i (starts n g))) ∧
        ∃ m, c.next.meters[i]? = some m ∧
          m.scale .aggregated = (.ok ⟨total i (starts n g)⟩, m)) ∧
    ∀ i, ∀ s ∈ samples i (starts n g),
      (s.covered.running = 0 → s.covered.value = 0) ∧
      (s.covered.running = 0 ∨ 0 < s.covered.enabled →
        s.valueIn (Nat.cast : Nat → ℚ) * s.scalingIn Nat.cast = s.covered.value) := by
  have hs : Steady n g := .opened hopen hread
  refine ⟨?_, ?_, ?_⟩
  · intro c hc
    obtain ⟨k, hk⟩ := hs.of_mem hc
    exact hk.succeeds_iff
  · intro before c after hcalls hok hafter i hi
    obtain ⟨hfresh, _⟩ := openOn_fresh hopen
    have hx : (gauges g.meters)[i]? = some .fresh := by
      have hlt : i < (gauges g.meters).length := by simpa [gauges] using hi
      rw [List.getElem?_eq_getElem hlt, hfresh _ (List.getElem_mem hlt)]
    obtain ⟨y, hy, hfound, hsettled, hreach⟩ := hs.total_reaches hcalls hok hafter hx
    have htotal : total i (starts n g) = y.current := (zero_add _).symm.trans hreach
    obtain ⟨m, hm, rfl⟩ := Option.map_eq_some_iff.mp ((List.getElem?_map ..).symm.trans hy)
    obtain ⟨k, hk⟩ := hs.of_mem (hcalls ▸ List.mem_append_right _ List.mem_cons_self)
    refine ⟨htotal ▸ hfound, m, hm, ?_⟩
    rw [Meter.scale, Gauge.scale_aggregated (hk.next.follows i _ hy), htotal]
  · intro i s hsample
    obtain ⟨y, hy, rfl⟩ := hs.covers hsample
    exact ⟨hy.since_idle, Sample.value_mul_scaling hy.since_idle⟩

/-- The second of two counters is not read in the second of three calls. The samples of the third call
cover the intervals that this leaves open, that of the first counter as well. -/
theorem intervals_add_up_across_failure :
    let script : Nat → Script := fun
      | 0 => { reads := [.ok ⟨100, 10, 10⟩, .ok ⟨150, 20, 15⟩, .ok ⟨230, 30, 24⟩] }
      | _ => { reads := [.ok ⟨7, 10, 5⟩, Result.fail (.scripted "refused"), .ok ⟨19, 30, 9⟩] }
    let events : List Event := [⟨.hardware, 0, .none⟩, ⟨.hardware, 1, .none⟩]
    let g : Group Script :=
      ⟨1, [⟨⟨.hardware, 0, .none⟩, 0, script 0, .fresh⟩, ⟨⟨.hardware, 1, .none⟩, 1, script 1, .fresh⟩],
        [.none, .none]⟩
    (openOn script 1 true 0 events).result = .ok g ∧
      (∀ i < g.meters.length, (.zero :: readings i (starts 3 g)).IsChain Count.Follows) ∧
      samples 0 (starts 3 g) = [⟨⟨100, 10, 10⟩⟩, ⟨⟨130, 20, 14⟩⟩] ∧
      samples 1 (starts 3 g) = [⟨⟨7, 10, 5⟩⟩, ⟨⟨12, 20, 4⟩⟩] ∧
      ∀ i < g.meters.length, (found g.next.next.meters)[i]? = some (some (total i (starts 3 g))) := by
  intro script events g
  have hopen : (openOn script 1 true 0 events).result = .ok g := rfl
  have hread : ∀ i < g.meters.length, (.zero :: readings i (starts 3 g)).IsChain Count.Follows := by
    decide
  refine ⟨hopen, hread, by decide, by decide, ?_⟩
  obtain ⟨_, hcovered, _⟩ := intervals_add_up hopen hread
  intro i hi
  exact (hcovered [g, g.next] g.next.next [] rfl ⟨_, rfl⟩ (by simp) i hi).1

end Corun.Counter.Group
