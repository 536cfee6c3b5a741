import Corun.Counter.Sampler
import Corun.Proofs.Counter.Refusals
import Corun.Proofs.PidMap

namespace Corun.Counter

/-- The calls to the counter with this place in the order of creation. -/
def history (k : Nat) (notes : List Note) : List Call :=
  notes.filterMap fun
    | .counter ordinal call => if ordinal = k then some call else none
    | _ => none

variable {k first next last : Nat} {notes more : List Note} {live others : List Nat} {call : Call}

theorem history_append : history k (notes ++ more) = history k notes ++ history k more :=
  List.filterMap_append

theorem history_counter (k ordinal : Nat) (call : Call) :
    history k [.counter ordinal call] = if ordinal = k then [call] else [] := by
  by_cases h : ordinal = k <;> simp [history, h]

theorem history_other {ordinal : Nat} (h : ordinal ≠ k) :
    history k ([.counter ordinal call] ++ more) = history k more := by
  rw [history_append, history_counter, if_neg h, List.nil_append]

theorem history_flatten (k : Nat) (steps : List (List Note)) :
    history k steps.flatten = (steps.map (history k)).flatten := by
  induction steps with
  | nil => rfl
  | cons notes steps ih => rw [List.flatten_cons, history_append, ih, List.map_cons, List.flatten_cons]

theorem history_logs (k : Nat) (lines : List LogLine) : history k (lines.map Note.log) = [] := by
  simp [history, List.filterMap_map]

/-- The counter is opened, with this outcome, and nothing else is asked of it. -/
def OpenedAs (ok : Bool) (k : Nat) (notes : List Note) : Prop :=
  ∃ event pid attach, history k notes = [.opened event pid attach ok]

/-- Nothing but reads, of these counters. -/
def ReadsOf (live : List Nat) (notes : List Note) : Prop :=
  ∀ k, (∃ oks : List Bool, history k notes = oks.map Call.read) ∧ (k ∉ live → history k notes = [])

/-- Each of these counters is closed once, and nothing else happens. -/
def Closes (live : List Nat) (notes : List Note) : Prop :=
  ∀ k, (k ∈ live → ∃ ok, history k notes = [.closed ok]) ∧ (k ∉ live → history k notes = [])

/-- Counters are opened one after another, from the first on. -/
structure Row (first next : Nat) (notes : List Note) : Prop where
  le : first ≤ next
  before : ∀ k < first, history k notes = []
  opened : ∀ k, first ≤ k → k < next → OpenedAs true k notes

structure Whole (first next : Nat) (notes : List Note) : Prop extends Row first next notes where
  after : ∀ k, next ≤ k → history k notes = []

/-- The row ends with a counter that is not opened. -/
structure Broken (first last : Nat) (notes : List Note) : Prop extends Row first last notes where
  refused : OpenedAs false last notes
  after : ∀ k, last < k → history k notes = []

theorem ReadsOf.nil (live : List Nat) : ReadsOf live [] := fun _ => ⟨⟨[], rfl⟩, fun _ => rfl⟩

theorem ReadsOf.append (ha : ReadsOf live notes) (hb : ReadsOf others more) :
    ReadsOf (live ++ others) (notes ++ more) := by
  intro k
  obtain ⟨⟨as, has⟩, hanone⟩ := ha k
  obtain ⟨⟨bs, hbs⟩, hbnone⟩ := hb k
  refine ⟨⟨as ++ bs, by rw [history_append, has, hbs, List.map_append]⟩, ?_⟩
  intro hk
  rw [List.mem_append, not_or] at hk
  rw [history_append, hanone hk.1, hbnone hk.2, List.append_nil]

/-- Log lines do not matter. -/
theorem ReadsOf.logged (h : ReadsOf live notes) (lines : List LogLine) :
    ReadsOf live (notes ++ lines.map Note.log) := by
  intro k
  rw [history_append, history_logs, List.append_nil]
  exact h k

theorem ReadsOf.one (k : Nat) (ok : Bool) : ReadsOf [k] [.counter k (.read ok)] := by
  intro j
  rw [history_counter]
  by_cases hj : k = j
  · exact ⟨⟨[ok], by rw [if_pos hj, List.map_singleton]⟩, fun hn => absurd (by simp [hj]) hn⟩
  · exact ⟨⟨[], by rw [if_neg hj, List.map_nil]⟩, fun _ => if_neg hj⟩

theorem ReadsOf.mono (h : ReadsOf live notes) (hsub : live ⊆ others) : ReadsOf others notes :=
  fun k => ⟨(h k).1, fun hk => (h k).2 fun hm => hk (hsub hm)⟩

theorem Closes.nil : Closes [] [] := fun _ => ⟨nofun, fun _ => rfl⟩

theorem Closes.append (ha : Closes live notes) (hb : Closes others more)
    (hd : (live ++ others).Nodup) : Closes (live ++ others) (notes ++ more) := by
  intro k
  rw [history_append]
  refine ⟨?_, ?_⟩
  · intro hk
    rcases List.mem_append.mp hk with hk | hk
    · have hne : k ∉ others := fun ho => (List.nodup_append.mp hd).2.2 k hk k ho rfl
      obtain ⟨ok, hok⟩ := (ha k).1 hk
      exact ⟨ok, by rw [hok, (hb k).2 hne, List.append_nil]⟩
    · have hne : k ∉ live := fun hl => (List.nodup_append.mp hd).2.2 k hl k hk rfl
      obtain ⟨ok, hok⟩ := (hb k).1 hk
      exact ⟨ok, by rw [hok, (ha k).2 hne, List.nil_append]⟩
  · intro hk
    rw [List.mem_append, not_or] at hk
    rw [(ha k).2 hk.1, (hb k).2 hk.2, List.append_nil]

theorem Closes.one (k : Nat) (ok : Bool) : Closes [k] [.counter k (.closed ok)] := by
  intro j
  rw [history_counter]
  by_cases hj : k = j
  · exact ⟨fun _ => ⟨ok, if_pos hj⟩, fun hn => absurd (by simp [hj]) hn⟩
  · exact ⟨fun hm => absurd (List.mem_singleton.mp hm).symm hj, fun _ => if_neg hj⟩

theorem Row.nil (first : Nat) (h : ∀ k < first, history k notes = []) : Row first first notes where
  le := Nat.le_refl _
  before := h
  opened := fun _ hle hlt => absurd hlt (Nat.not_lt.mpr hle)

theorem Whole.nil (first : Nat) : Whole first first [] where
  toRow := .nil first fun _ _ => rfl
  after := fun _ _ => rfl

theorem openedAs_one {event : Event} {pid : Os.Pid} {attach ok : Bool} :
    OpenedAs ok first [.counter first (.opened event pid attach ok)] :=
  ⟨event, pid, attach, by rw [history_counter, if_pos rfl]⟩

theorem OpenedAs.ne_nil {ok : Bool} (h : OpenedAs ok k notes) : history k notes ≠ [] := by
  obtain ⟨event, pid, attach, hk⟩ := h
  rw [hk]
  exact List.cons_ne_nil _ _

theorem OpenedAs.unique {ok ok' : Bool} (h : OpenedAs ok k notes) (h' : OpenedAs ok' k notes) :
    ok = ok' := by
  obtain ⟨_, _, _, hk⟩ := h
  obtain ⟨_, _, _, hk'⟩ := h'
  cases hk.symm.trans hk'
  rfl

theorem OpenedAs.append_left {ok : Bool} (h : OpenedAs ok k more) (hn : history k notes = []) :
    OpenedAs ok k (notes ++ more) := by
  obtain ⟨event, pid, attach, hk⟩ := h
  exact ⟨event, pid, attach, by rw [history_append, hn, hk, List.nil_append]⟩

theorem OpenedAs.append_right {ok : Bool} (h : OpenedAs ok k notes) (hn : history k more = []) :
    OpenedAs ok k (notes ++ more) := by
  obtain ⟨event, pid, attach, hk⟩ := h
  exact ⟨event, pid, attach, by rw [history_append, hn, hk, List.append_nil]⟩

theorem Whole.logged {line : LogLine} (h : Whole first next notes) :
    Whole first next (.log line :: notes) :=
  ⟨⟨h.le, h.before, h.opened⟩, h.after⟩

theorem Broken.logged {line : LogLine} (h : Broken first last notes) :
    Broken first last (.log line :: notes) :=
  ⟨⟨h.le, h.before, h.opened⟩, h.refused, h.after⟩

section Opened

variable {event : Event} {pid : Os.Pid} {attach : Bool}

theorem Row.cons (h : Row (first + 1) next more) :
    Row first next ([.counter first (.opened event pid attach true)] ++ more) where
  le := Nat.le_of_succ_le h.le
  before := by
    intro k hk
    rw [history_other (Nat.ne_of_gt hk), h.before k (Nat.lt_succ_of_lt hk)]
  opened := by
    intro k hle hlt
    rcases Nat.eq_or_lt_of_le hle with rfl | hgt
    · exact openedAs_one.append_right (h.before _ (Nat.lt_succ_self _))
    · exact (h.opened k hgt hlt).append_left (by rw [history_counter, if_neg (Nat.ne_of_lt hgt)])

theorem Whole.cons (h : Whole (first + 1) next more) :
    Whole first next ([.counter first (.opened event pid attach true)] ++ more) where
  toRow := h.toRow.cons
  after := by
    intro k hk
    rw [history_other (Nat.ne_of_lt (Nat.lt_of_lt_of_le h.le hk)), h.after k hk]

theorem Broken.one : Broken first first [.counter first (.opened event pid attach false)] where
  toRow := .nil first fun k hk => by rw [history_counter, if_neg (Nat.ne_of_gt hk)]
  refused := openedAs_one
  after := fun k hk => by rw [history_counter, if_neg (Nat.ne_of_lt hk)]

theorem Broken.cons (h : Broken (first + 1) last more) :
    Broken first last ([.counter first (.opened event pid attach true)] ++ more) where
  toRow := h.toRow.cons
  refused := h.refused.append_left (by rw [history_counter, if_neg (Nat.ne_of_lt h.le)])
  after := by
    intro k hk
    rw [history_other (Nat.ne_of_lt (Nat.lt_trans h.le hk)), h.after k hk]

end Opened

section Meters

variable {κ : Type} [Source κ] {ms : List (Meter κ)} {g : Group κ}

def ordinals (ms : List (Meter κ)) : List Nat := ms.map Meter.ordinal

namespace Group

theorem openMeters_refused {supply : Nat → κ} {pid : Os.Pid} {attach : Bool} {next : Nat}
    {event : Event} (events : List Event) {stop : Stop}
    (hr : (Source.openOn (supply next) event pid attach).1 = .error stop) :
    openMeters supply pid attach next (event :: events) =
      ⟨Result.within (.openingEvent event pid) (.error stop), next + 1,
        [.counter next (.opened event pid attach false)]⟩ := by
  simp only [openMeters, Meter.openOn, Meter.create, Meter.succeeded, hr]

theorem openMeters_opened {supply : Nat → κ} {pid : Os.Pid} {attach : Bool} {next : Nat}
    {event : Event} (events : List Event)
    (hr : (Source.openOn (supply next) event pid attach).1 = .ok ()) :
    openMeters supply pid attach next (event :: events) =
      ⟨(openMeters supply pid attach (next + 1) events).result.map
          (((Meter.create event next (supply next)).openOn pid attach).state :: ·),
        (openMeters supply pid attach (next + 1) events).state,
        [.counter next (.opened event pid attach true)] ++
          (openMeters supply pid attach (next + 1) events).notes⟩ := by
  simp only [openMeters, Meter.openOn, Meter.create, Meter.succeeded, hr]

/-- Opening a row either gives all of its counters or breaks off at one that is not opened. -/
theorem openMeters_row (supply : Nat → κ) (pid : Os.Pid) (attach : Bool) (next : Nat)
    (events : List Event) :
    (∃ ms, (openMeters supply pid attach next events).result = .ok ms ∧
      ordinals ms = List.range' next ms.length ∧
      (openMeters supply pid attach next events).state = next + ms.length ∧
      Whole next (next + ms.length) (openMeters supply pid attach next events).notes) ∨
    ∃ stop last, (openMeters supply pid attach next events).result = .error stop ∧
      (openMeters supply pid attach next events).state = last + 1 ∧
      Broken next last (openMeters supply pid attach next events).notes := by
  induction events generalizing next with
  | nil => exact .inl ⟨[], rfl, rfl, rfl, .nil next⟩
  | cons event events ih =>
    cases hr : (Source.openOn (supply next) event pid attach).1 with
    | error stop =>
      rw [openMeters_refused events hr]
      obtain ⟨stop', hstop⟩ : ∃ stop', Result.within (α := List (Meter κ)) (.openingEvent event pid)
          (.error stop) = .error stop' := by
        cases stop with
        | failed f => exact ⟨_, rfl⟩
        | panicked p => exact ⟨_, rfl⟩
      exact .inr ⟨stop', next, hstop, rfl, .one⟩
    | ok u =>
      let m : Meter κ := ((Meter.create event next (supply next)).openOn pid attach).state
      have hm : m.ordinal = next := rfl
      rw [openMeters_opened events hr]
      rcases ih (next + 1) with ⟨ms, hms, hord, hstate, hwhole⟩ | ⟨stop, last, hstop, hstate, hbroken⟩
      · have hlen : next + (m :: ms).length = next + 1 + ms.length := by
          rw [List.length_cons]
          omega
        refine .inl ⟨m :: ms, by rw [hms]; rfl, ?_, hstate.trans hlen.symm, ?_⟩
        · rw [ordinals, List.map_cons, List.length_cons, List.range'_succ, hm]
          exact congrArg (next :: ·) hord
        · rw [hlen]
          exact hwhole.cons
      · exact .inr ⟨stop, last, by rw [hstop]; rfl, hstate, hbroken.cons⟩

theorem readMeters_reads (ms : List (Meter κ)) :
    ordinals (readMeters ms).state = ordinals ms ∧ ReadsOf (ordinals ms) (readMeters ms).notes := by
  induction ms with
  | nil => exact ⟨rfl, .nil _⟩
  | cons m ms ih =>
    obtain ⟨hord, hreads⟩ := ih
    cases hr : (Source.read m.source).1 with
    | ok count =>
      simp only [readMeters, Meter.read, hr]
      exact ⟨congrArg (m.ordinal :: ·) hord, (ReadsOf.one m.ordinal true).append hreads⟩
    | error stop =>
      simp only [readMeters, Meter.read, hr]
      exact ⟨rfl, (ReadsOf.one m.ordinal false).mono (by simp [ordinals])⟩

omit [Source κ] in
theorem scaleMeters_ordinals (mode : Mode) (ms : List (Meter κ)) (latest : List Sample) :
    ordinals (scaleMeters mode ms latest).2.1 = ordinals ms := by
  induction ms generalizing latest with
  | nil => cases latest <;> rfl
  | cons m ms ih =>
    cases latest with
    | nil => rfl
    | cons s ss =>
      simp only [scaleMeters, Meter.scale]
      rcases m.gauge.scale mode with ⟨r, gauge⟩
      cases r with
      | error cause => rfl
      | ok s' => exact congrArg (m.ordinal :: ·) (ih ss)

/-- A sample reads counters of the group, and does nothing else to any counter. -/
theorem sample_reads (mode : Mode) (g : Group κ) :
    ordinals (g.sample mode).state.meters = ordinals g.meters ∧
      ReadsOf (ordinals g.meters) (g.sample mode).notes := by
  obtain ⟨hord, hreads⟩ := readMeters_reads g.meters
  have hnotes : (g.sample mode).notes = (readMeters g.meters).notes := by
    simp only [sample]
    split
    · rfl
    · split <;> rfl
  refine ⟨?_, hnotes ▸ hreads⟩
  by_cases h : none ∈ found g.meters
  · rw [(sample_unreadable mode h).1, hord]
  · rw [(sample_readable mode h).1, scaleMeters_ordinals, hord]

theorem closeMeters_closes (hd : (ordinals ms).Nodup) (hok : (closeMeters ms).1 = .ok ()) :
    Closes (ordinals ms) (closeMeters ms).2 := by
  induction ms with
  | nil => exact .nil
  | cons m ms ih =>
    obtain ⟨ok, hnote⟩ : ∃ ok, m.close.notes = [.counter m.ordinal (.closed ok)] := ⟨_, rfl⟩
    have hrest : (closeMeters (m :: ms)).1 = (closeMeters ms).1 ∧
        (closeMeters (m :: ms)).2 = m.close.notes ++ (closeMeters ms).2 := by
      simp only [closeMeters] at hok ⊢
      split at hok
      · cases hok
      · exact ⟨rfl, rfl⟩
    rw [hrest.2, hnote]
    exact (Closes.one m.ordinal ok).append (ih (List.nodup_cons.mp hd).2 (hrest.1 ▸ hok)) hd

end Group

end Meters

end Corun.Counter
