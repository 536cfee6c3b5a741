import Corun.Proofs.Counter.Ledger

namespace Corun.Counter
open Os

variable {κ : Type} [Source κ] {created : Nat} {steps : List (List Note)}

namespace Group

variable {g : Group κ}

/-- What is seen of calls one after another. -/
def noted (modes : List Mode) (g : Group κ) : List (List Note) :=
  (visits modes g).map fun c => (c.1.sample c.2).notes

theorem openOn_row (supply : Nat → κ) (pid : Pid) (attach : Bool) (next : Nat) (events : List Event) :
    (∃ g, (openOn supply pid attach next events).result = .ok g ∧
      ordinals g.meters = List.range' next g.meters.length ∧
      (openOn supply pid attach next events).state = next + g.meters.length ∧
      Whole next (next + g.meters.length) (openOn supply pid attach next events).notes) ∨
    ∃ stop last, (openOn supply pid attach next events).result = .error stop ∧
      (openOn supply pid attach next events).state = last + 1 ∧
      Broken next last (openOn supply pid attach next events).notes := by
  rcases openMeters_row supply pid attach next events with
    ⟨ms, hms, hrow⟩ | ⟨stop, last, hstop, hrow⟩
  · exact .inl ⟨⟨pid, ms, ms.map fun _ => Sample.none⟩, by rw [openOn, hms]; rfl, hrow⟩
  · exact .inr ⟨stop, last, by rw [openOn, hstop]; rfl, hrow⟩

section Opening

variable {supply : Nat → κ} {pid : Pid} {attach : Bool} {events : List Event}

theorem openOn_held (h : (openOn supply pid attach 0 events).result = .ok g) :
    (∀ k < (openOn supply pid attach 0 events).state, k ∈ ordinals g.meters) ∧
      Ledger (ordinals g.meters) (openOn supply pid attach 0 events).state
        [(openOn supply pid attach 0 events).notes] := by
  rcases openOn_row supply pid attach 0 events with
    ⟨g', hg, hord, hstate, hwhole⟩ | ⟨stop, last, hstop, _, _⟩
  · cases hg.symm.trans h
    rw [hstate, hord]
    refine ⟨fun k hk => List.mem_range'_1.mpr ⟨Nat.zero_le k, hk⟩, Ledger.start.opens hwhole ?_⟩
    rw [Nat.zero_add, List.append_nil]
    exact .refl _
  · cases hstop.symm.trans h

theorem openOn_broken {stop : Stop}
    (h : (openOn supply pid attach 0 events).result = .error stop) :
    Ledger [] (openOn supply pid attach 0 events).state
      [(openOn supply pid attach 0 events).notes] := by
  rcases openOn_row supply pid attach 0 events with
    ⟨g', hg, _, _, _⟩ | ⟨stop', last, _, hstate, hbroken⟩
  · cases hg.symm.trans h
  · rw [hstate]
    exact Ledger.start.breaks hbroken

end Opening

theorem run_ledger (modes : List Mode) (h : Ledger (ordinals g.meters) created steps) :
    ordinals (run modes g).meters = ordinals g.meters ∧
      Ledger (ordinals g.meters) created (steps ++ noted modes g) := by
  induction modes generalizing g steps with
  | nil => exact ⟨rfl, by rwa [noted, visits, List.map_nil, List.append_nil]⟩
  | cons mode modes ih =>
    obtain ⟨hord, hreads⟩ := sample_reads mode g
    have hnext : Ledger (ordinals (g.sample mode).state.meters) created
        (steps ++ [(g.sample mode).notes]) := hord ▸ h.move (.reads hreads)
    obtain ⟨hordinals, hledger⟩ := ih hnext
    rw [hord] at hordinals hledger
    refine ⟨hordinals, ?_⟩
    rwa [List.append_assoc] at hledger

end Group

namespace Sampler

variable {s : Sampler κ}

/-- What can be asked of a sampler, by itself and as the strategy that it is. -/
inductive Call where
  | add (pid : Pid)
  | announce (a : Announcement)
  | sample
  | tick

def call (c : Call) (s : Sampler κ) : Step (Sampler κ) Unit :=
  match c with
  | .add pid => s.add pid
  | .announce a =>
    let handled := Strategy.handle a s
    ⟨handled.result.map fun _ => (), handled.state, handled.notes⟩
  | .sample => s.sample
  | .tick => Strategy.tick s

/-- The sampler after calls one after another, those that fail included. -/
def after (calls : List Call) (s : Sampler κ) : Sampler κ :=
  calls.foldl (fun s c => (s.call c).state) s

/-- What is seen of each call. -/
def noted : List Call → Sampler κ → List (List Note)
  | [], _ => []
  | c :: calls, s => (s.call c).notes :: noted calls (s.call c).state

/-- The counters of some groups. -/
def counters (groups : PidMap (Group κ)) : List Nat := groups.flatMap fun e => ordinals e.2.meters

theorem sampleOne_logs (mode : Mode) (pid : Pid) (g : Group κ) :
    (sampleOne mode pid g).state = (g.sample mode).state ∧ ∃ lines : List LogLine,
      (sampleOne mode pid g).notes = (g.sample mode).notes ++ lines.map Note.log := by
  simp only [sampleOne]
  cases (g.sample mode).result with
  | ok samples => exact ⟨rfl, sampleLines pid samples, rfl⟩
  | error stop =>
    cases stop with
    | panicked p => exact ⟨rfl, [], (List.append_nil _).symm⟩
    | failed f =>
      by_cases hf : f.cause.isCounterInvariant
      · simp only [hf, if_true]
        exact ⟨trivial, [], (List.append_nil _).symm⟩
      · simp only [hf]
        exact ⟨rfl, [_], rfl⟩

theorem sampleOne_reads (mode : Mode) (pid : Pid) (g : Group κ) :
    ordinals (sampleOne mode pid g).state.meters = ordinals g.meters ∧
      ReadsOf (ordinals g.meters) (sampleOne mode pid g).notes := by
  obtain ⟨hord, hreads⟩ := g.sample_reads mode
  obtain ⟨hstate, lines, hnotes⟩ := sampleOne_logs mode pid g
  rw [hstate, hnotes]
  exact ⟨hord, hreads.logged lines⟩

theorem sampleGroups_reads (mode : Mode) (groups : PidMap (Group κ)) :
    counters (sampleGroups mode groups).state = counters groups ∧
      ReadsOf (counters groups) (sampleGroups mode groups).notes := by
  induction groups with
  | nil => exact ⟨rfl, .nil _⟩
  | cons e groups ih =>
    obtain ⟨pid, g⟩ := e
    obtain ⟨hord, hreads⟩ := sampleOne_reads mode pid g
    obtain ⟨hrest, hreadsRest⟩ := ih
    simp only [sampleGroups]
    cases (sampleOne mode pid g).result with
    | error stop =>
      refine ⟨?_, hreads.mono ?_⟩
      · simp only [counters, List.flatMap_cons, hord]
      · simp only [counters, List.flatMap_cons]
        exact List.subset_append_left _ _
    | ok u =>
      refine ⟨?_, ?_⟩
      · simp only [counters, List.flatMap_cons] at hrest ⊢
        rw [hord, hrest]
      · simp only [counters, List.flatMap_cons]
        exact hreads.append hreadsRest

theorem add_move (pid : Pid) (s : Sampler κ) :
    Move (counters s.groups) s.created (s.add pid).notes (counters (s.add pid).state.groups)
      (s.add pid).state.created := by
  by_cases hc : PidMap.contains pid s.groups
  · simp only [add, hc, if_true]
    exact .reads (.nil _)
  rcases Group.openOn_row s.supply pid s.attach s.created s.generic.events with
    ⟨g, hg, hord, hstate, hwhole⟩ | ⟨stop, last, hstop, hstate, hbroken⟩
  · simp only [add, hc, hg, hstate, Bool.false_eq_true, if_false, Step.done]
    refine .opens hwhole.logged ?_
    have hnone := PidMap.contains_eq_false_iff.mp (Bool.eq_false_of_not_eq_true hc)
    have hperm := (PidMap.insert_perm (a := g) hnone).flatMap_right fun e => ordinals e.2.meters
    rw [List.flatMap_cons, hord] at hperm
    rwa [Nat.add_sub_cancel_left]
  · simp only [add, hc, hstop, hstate, Bool.false_eq_true, if_false]
    exact .breaks hbroken.logged

theorem sample_move (s : Sampler κ) :
    Move (counters s.groups) s.created s.sample.notes (counters s.sample.state.groups)
      s.sample.state.created := by
  obtain ⟨hcounters, hreads⟩ := sampleGroups_reads s.mode s.groups
  have hmove : Move (counters s.groups) s.created s.sample.notes (counters s.groups) s.created :=
    .reads hreads
  exact hcounters.symm ▸ hmove

theorem call_move (c : Call) (s : Sampler κ) :
    Move (counters s.groups) s.created (s.call c).notes (counters (s.call c).state.groups)
      (s.call c).state.created := by
  cases c with
  | add pid => exact add_move pid s
  | announce a => exact add_move a.pid s
  | sample | tick => exact sample_move s

/-- What is the same of every new sampler with one backend. -/
structure New (backend : String) (supply : Nat → κ) (s : Sampler κ) : Prop where
  supply : s.supply = supply
  generic : Generic.ofBackend backend = .ok s.generic
  created : s.created = 0
  groups : s.groups = []

omit [Source κ] in
theorem create_new {name backend : String} {supply : Nat → κ} (h : create name backend supply = .ok s)
    (interval : Nat) (mode : Mode) (attach : Bool) :
    New backend supply { s with interval, mode, attach } := by
  rw [create] at h
  cases hg : Generic.ofBackend backend with
  | error f =>
    rw [hg] at h
    cases h
  | ok generic =>
    rw [hg] at h
    cases h
    exact ⟨rfl, hg, rfl, rfl⟩

omit [Source κ] in
theorem New.ledger {backend : String} {supply : Nat → κ} (h : New backend supply s) :
    Ledger (counters s.groups) s.created [] := by
  rw [h.groups, h.created]
  exact .start

theorem run_ledger (calls : List Call) (h : Ledger (counters s.groups) s.created steps) :
    Ledger (counters (s.after calls).groups) (s.after calls).created (steps ++ noted calls s) := by
  induction calls generalizing s steps with
  | nil => rwa [noted, List.append_nil]
  | cons c calls ih =>
    have hledger := ih (h.move (call_move c s))
    rwa [List.append_assoc] at hledger

/-- The end of some groups, one after another. -/
theorem closeGroups_closes {groups : PidMap (Group κ)} (hd : (counters groups).Nodup)
    (hok : ∀ e ∈ groups, e.2.close.1 = .ok ()) :
    Closes (counters groups) (groups.flatMap fun e => e.2.close.2) := by
  induction groups with
  | nil => exact .nil
  | cons e groups ih =>
    rw [counters, List.flatMap_cons] at hd ⊢
    rw [List.flatMap_cons]
    obtain ⟨hfirst, hrest, _⟩ := List.nodup_append.mp hd
    exact (Group.closeMeters_closes hfirst (hok e List.mem_cons_self)).append
      (ih hrest fun e he => hok e (List.mem_cons_of_mem _ he)) hd

/-- One group is closed after others. -/
def closeNext (done : Result Unit × List Note) (e : Pid × Group κ) : Result Unit × List Note :=
  (done.1.bind fun _ => e.2.close.1, done.2 ++ e.2.close.2)

theorem closeNext_all (groups : PidMap (Group κ)) (done : Result Unit × List Note) :
    (groups.foldl closeNext done).2 = done.2 ++ groups.flatMap (fun e => e.2.close.2) ∧
      ((groups.foldl closeNext done).1 = .ok () →
        done.1 = .ok () ∧ ∀ e ∈ groups, e.2.close.1 = .ok ()) := by
  induction groups generalizing done with
  | nil => exact ⟨(List.append_nil _).symm, fun h => ⟨h, nofun⟩⟩
  | cons e groups ih =>
    obtain ⟨hnotes, hok⟩ := ih (closeNext done e)
    rw [List.foldl_cons, List.flatMap_cons]
    refine ⟨by rw [hnotes, closeNext, List.append_assoc], ?_⟩
    intro h
    obtain ⟨hnext, hrest⟩ := hok h
    rcases done with ⟨r | _, seen⟩
    · cases hnext
    · exact ⟨rfl, List.forall_mem_cons.mpr ⟨hnext, hrest⟩⟩

/-- A sampler that is given up closes each counter it holds, unless closing one panics. -/
theorem close_closes (hd : (counters s.groups).Nodup) (hok : s.close.1 = .ok ()) :
    Closes (counters s.groups) s.close.2 := by
  obtain ⟨hnotes, hall⟩ := closeNext_all s.groups (.ok (), [])
  have hclosed : Closes (counters s.groups) (s.groups.foldl closeNext (.ok (), [])).2 := by
    rw [hnotes]
    exact closeGroups_closes hd (hall hok).2
  exact hclosed

end Sampler

/-- When all is given up in the end, and closing a counter does not panic, every counter was opened, then
read, then closed once, or was refused and left alone. The exception are those that were opened in a row
that then breaks off, which stay open. A group that was opened whole has none of them. -/
theorem counters_balanced_unless_row_breaks (supply : Nat → κ) :
    (∀ name backend s, Sampler.create name backend supply = .ok s →
      ∀ interval mode attach calls,
        let s : Sampler κ := { s with interval, mode, attach }
        (s.after calls).close.1 = .ok () →
          Balanced (s.after calls).created (s.noted calls) (s.after calls).close.2) ∧
    ∀ pid attach events,
      let opened := Group.openOn supply pid attach 0 events
      (∀ stop, opened.result = .error stop → Balanced opened.state [opened.notes] []) ∧
      ∀ g, opened.result = .ok g → ∀ modes, (g.run modes).close.1 = .ok () →
        Balanced opened.state (opened.notes :: g.noted modes) (g.run modes).close.2 ∧
          ∀ k, ¬Spoilt k (opened.notes :: g.noted modes) := by
  refine ⟨?_, ?_⟩
  · intro name backend s hs interval mode attach calls s' hok
    have hnew : Sampler.New backend supply s' := Sampler.create_new hs interval mode attach
    have hledger := Sampler.run_ledger calls hnew.ledger
    exact hledger.balanced (Sampler.close_closes hledger.nodup hok)
  · intro pid attach events opened
    refine ⟨fun stop hstop => (Group.openOn_broken hstop).balanced .nil, ?_⟩
    intro g hg modes hok
    obtain ⟨hall, hopened⟩ := Group.openOn_held hg
    obtain ⟨hsame, hledger⟩ := Group.run_ledger modes hopened
    have hcloses := Group.closeMeters_closes (hsame ▸ hledger.nodup) hok
    exact ⟨hledger.balanced (hsame ▸ hcloses), hledger.none_spoilt hall⟩

/-- The first row breaks off at its second counter, the next row is whole. -/
theorem counters_balanced_after_broken_row :
    let script : Nat → Script := fun
      | 1 => { opening := .fails "no pmu" }
      | _ => { reads := [.ok ⟨100, 10, 10⟩] }
    (∃ s, Sampler.create "pmc" "linux" script = .ok s ∧
      Balanced 4 (s.noted [.add 100, .add 100, .sample])
        (s.after [.add 100, .add 100, .sample]).close.2) ∧
    ∃ g, (Group.openOn (fun _ => script 2) 100 true 0 [⟨.hardware, 0, .none⟩]).result = .ok g ∧
      Tidy (history 0 (.counter 0 (.opened ⟨.hardware, 0, .none⟩ 100 true true) ::
        (g.noted [.relative]).flatten ++ (g.run [.relative]).close.2)) := by
  intro script
  refine ⟨⟨_, rfl, ?_⟩, ⟨_, rfl, ?_⟩⟩
  · exact (counters_balanced_unless_row_breaks script).1 "pmc" "linux" _ rfl 1000 .relative true
      [.add 100, .add 100, .sample] rfl
  · obtain ⟨hbalanced, hwhole⟩ := ((counters_balanced_unless_row_breaks fun _ => script 2).2 100 true
      [⟨.hardware, 0, .none⟩]).2 _ rfl [.relative] rfl
    exact (hbalanced.tidy 0 Nat.zero_lt_one).mpr (hwhole 0)

/-- The counter that was opened first in the row that broke off is not closed with the sampler. -/
theorem broken_row_leaves_counter_open :
    let script : Nat → Script := fun
      | 1 => { opening := .fails "no pmu" }
      | _ => {}
    ∃ s, Sampler.create "pmc" "linux" script = .ok s ∧ (s.after [.add 100]).close.1 = .ok () ∧
      history 0 ((s.noted [.add 100]).flatten ++ (s.after [.add 100]).close.2) =
        [.opened ⟨.hardware, 0, .none⟩ 100 true true] ∧
      ¬Tidy (history 0 ((s.noted [.add 100]).flatten ++ (s.after [.add 100]).close.2)) :=
  ⟨_, rfl, rfl, rfl, not_tidy_opened ⟨.hardware, 0, .none⟩ 100 true⟩

end Corun.Counter
