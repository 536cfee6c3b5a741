import Mathlib.Data.List.Forall2
import Corun.Proofs.Counter.Sweeps

namespace Corun.Counter
open Os

/-- Two steps look the same and lead to related states. -/
structure Likewise {σ τ α : Type} (R : σ → τ → Prop) (a : Step σ α) (b : Step τ α) : Prop where
  result : a.result = b.result
  notes : a.notes = b.notes
  state : R a.state b.state

/-- Both come to something, and then to something related, or both come to nothing. -/
inductive Both {α β : Type} (R : α → β → Prop) : Result α → Result β → Prop where
  | ok (a : α) (b : β) (related : R a b) : Both R (.ok a) (.ok b)
  | error (stop stop' : Stop) : Both R (.error stop) (.error stop')

theorem Both.map {α β γ δ : Type} {R : α → β → Prop} {P : γ → δ → Prop} {r : Result α} {r' : Result β}
    {f : α → γ} {f' : β → δ} (h : Both R r r') (hmap : ∀ a b, R a b → P (f a) (f' b)) :
    Both P (r.map f) (r'.map f') := by
  cases h with
  | ok a b related => exact .ok _ _ (hmap a b related)
  | error stop stop' => exact .error stop stop'

variable {κ κ' : Type} [Source κ] [Source κ']

namespace Source

/-- What reading a counter gives again and again. -/
def readings {κ : Type} [Source κ] (c : κ) : Nat → Result Count
  | 0 => (Source.read c).1
  | n + 1 => readings (Source.read c).2 n

/-- Two counters of which the same is read as long as each is read at most so many times. -/
def Alike (n : Nat) (c : κ) (c' : κ') : Prop := ∀ i < n, readings c i = readings c' i

variable {m n : Nat} {c : κ} {c' : κ'}

theorem Alike.read (h : Alike (n + 1) c c') : (Source.read c).1 = (Source.read c').1 ∧
    Alike n (Source.read c).2 (Source.read c').2 :=
  ⟨h 0 (Nat.succ_pos n), fun i hi => h (i + 1) (Nat.succ_lt_succ hi)⟩

theorem Alike.mono (h : Alike n c c') (hle : m ≤ n) : Alike m c c' :=
  fun i hi => h i (Nat.lt_of_lt_of_le hi hle)

end Source

/-- Two counters of one place and one past, of which the same is read. -/
structure Meter.Twin (n : Nat) (m : Meter κ) (m' : Meter κ') : Prop where
  ordinal : m.ordinal = m'.ordinal
  gauge : m.gauge = m'.gauge
  source : Source.Alike n m.source m'.source

theorem Meter.Twin.fewer {n : Nat} {m : Meter κ} {m' : Meter κ'} (h : Twin (n + 1) m m') : Twin n m m' :=
  ⟨h.ordinal, h.gauge, h.source.mono (Nat.le_succ n)⟩

structure Group.Twin (n : Nat) (g : Group κ) (g' : Group κ') : Prop where
  latest : g.latest = g'.latest
  meters : List.Forall₂ (Meter.Twin n) g.meters g'.meters

/-- The counters that were opened in a run, and what it knows of them: another supply opens as many, and
those of one process are read alike. -/
structure Agree (q : Pid) (n : Nat) (supply : Nat → κ) (supply' : Nat → κ') (seen : List Note) : Prop where
  opens : ∀ k event pid attach ok, Note.counter k (.opened event pid attach ok) ∈ seen →
    Meter.succeeded (Source.openOn (supply' k) event pid attach).1 = ok
  reads : ∀ k event attach ok, Note.counter k (.opened event q attach ok) ∈ seen →
    Source.Alike n (Source.openOn (supply k) event q attach).2
      (Source.openOn (supply' k) event q attach).2

theorem Agree.mono {q : Pid} {m n : Nat} {supply : Nat → κ} {supply' : Nat → κ'} {seen more : List Note}
    (h : Agree q n supply supply' seen) (hle : m ≤ n) (hsub : more ⊆ seen) :
    Agree q m supply supply' more :=
  ⟨fun k event pid attach ok hm => h.opens k event pid attach ok (hsub hm),
    fun k event attach ok hm => (h.reads k event attach ok (hsub hm)).mono hle⟩

namespace Group

variable {g : Group κ} {g' : Group κ'} {ms : List (Meter κ)} {ms' : List (Meter κ')} {mode : Mode}
  {n : Nat}

theorem Twin.fewer (h : Twin (n + 1) g g') : Twin n g g' :=
  ⟨h.latest, h.meters.imp fun _ _ => Meter.Twin.fewer⟩

theorem Twin.ordinals (h : Twin n g g') : ordinals g.meters = ordinals g'.meters := by
  have hall : ∀ {ms : List (Meter κ)} {ms' : List (Meter κ')}, List.Forall₂ (Meter.Twin n) ms ms' →
      Counter.ordinals ms = Counter.ordinals ms' := by
    intro ms ms' h
    induction h with
    | nil => rfl
    | cons ht _ ih =>
      simp only [Counter.ordinals, List.map_cons] at ih ⊢
      rw [ht.ordinal, ih]
  exact hall h.meters

/-- A call reads each counter at most once. -/
theorem readMeters_twin (h : List.Forall₂ (Meter.Twin (n + 1)) ms ms') :
    Likewise (List.Forall₂ (Meter.Twin n)) (readMeters ms) (readMeters ms') := by
  induction h with
  | nil => exact ⟨rfl, rfl, .nil⟩
  | @cons m m' ms ms' ht hts ih =>
    obtain ⟨hsame, hlater⟩ := ht.source.read
    cases hr : (Source.read m.source).1 with
    | error stop =>
      have hr' := hsame.symm.trans hr
      simp only [readMeters, Meter.read, hr, hr', ht.ordinal]
      exact ⟨rfl, rfl, .cons ⟨rfl, ht.gauge, hlater⟩ (hts.imp fun _ _ => Meter.Twin.fewer)⟩
    | ok count =>
      have hr' := hsame.symm.trans hr
      simp only [readMeters, Meter.read, hr, hr', ht.ordinal, ht.gauge, ih.notes]
      exact ⟨ih.result, rfl, .cons ⟨rfl, rfl, hlater⟩ ih.state⟩

theorem scaleMeters_twin (mode : Mode) (latest : List Sample)
    (h : List.Forall₂ (Meter.Twin n) ms ms') :
    (scaleMeters mode ms latest).1 = (scaleMeters mode ms' latest).1 ∧
      (scaleMeters mode ms latest).2.2 = (scaleMeters mode ms' latest).2.2 ∧
      List.Forall₂ (Meter.Twin n) (scaleMeters mode ms latest).2.1 (scaleMeters mode ms' latest).2.1 := by
  induction h generalizing latest with
  | nil => exact ⟨by simp [scaleMeters], by simp [scaleMeters], by simp [scaleMeters]⟩
  | @cons m m' ms ms' ht hts ih =>
    cases latest with
    | nil => exact ⟨rfl, rfl, .cons ht hts⟩
    | cons s latest =>
      obtain ⟨hresult, hsamples, htwins⟩ := ih latest
      simp only [scaleMeters, Meter.scale, ht.gauge]
      rcases m'.gauge.scale mode with ⟨r, gauge⟩
      cases r with
      | error cause => exact ⟨rfl, rfl, .cons ⟨ht.ordinal, rfl, ht.source⟩ hts⟩
      | ok s' =>
        simp only [hresult, hsamples]
        exact ⟨trivial, trivial, .cons ⟨ht.ordinal, rfl, ht.source⟩ htwins⟩

theorem sample_twin (mode : Mode) (h : Twin (n + 1) g g') :
    Likewise (Twin n) (g.sample mode) (g'.sample mode) := by
  obtain ⟨hresult, hnotes, hread⟩ := readMeters_twin h.meters
  cases hr : (readMeters g.meters).result with
  | error stop =>
    have hr' := hresult.symm.trans hr
    simp only [sample, hr, hr', hnotes]
    exact ⟨rfl, rfl, ⟨h.latest, hread⟩⟩
  | ok u =>
    have hr' := hresult.symm.trans hr
    obtain ⟨hscaled, hsamples, hmeters⟩ := scaleMeters_twin mode g.latest hread
    simp only [sample, hr, hr', hnotes, ← h.latest]
    rw [← hscaled, ← hsamples]
    cases (scaleMeters mode (readMeters g.meters).state g.latest).1 with
    | error cause => exact ⟨rfl, rfl, ⟨rfl, hmeters⟩⟩
    | ok u => exact ⟨rfl, rfl, ⟨rfl, hmeters⟩⟩

variable {q pid : Pid} {supply : Nat → κ} {supply' : Nat → κ'} {attach : Bool}

theorem openMeters_twin {next : Nat} {events : List Event}
    (h : Agree q n supply supply' (openMeters supply pid attach next events).notes) :
    (openMeters supply pid attach next events).notes =
        (openMeters supply' pid attach next events).notes ∧
      (openMeters supply pid attach next events).state =
        (openMeters supply' pid attach next events).state ∧
      Both (List.Forall₂ fun m m' => pid = q → Meter.Twin n m m')
        (openMeters supply pid attach next events).result
        (openMeters supply' pid attach next events).result := by
  induction events generalizing next with
  | nil => exact ⟨rfl, rfl, .ok _ _ .nil⟩
  | cons event events ih =>
    cases hr : (Source.openOn (supply next) event pid attach).1 with
    | error stop =>
      have hnotes := openMeters_refused events hr
      rw [hnotes] at h
      have hagree := h.opens next event pid attach false List.mem_cons_self
      cases hr' : (Source.openOn (supply' next) event pid attach).1 with
      | ok u => simp [hr', Meter.succeeded] at hagree
      | error stop' =>
        rw [hnotes, openMeters_refused events hr']
        refine ⟨rfl, rfl, ?_⟩
        cases stop <;> cases stop' <;> exact .error _ _
    | ok u =>
      have hopen := openMeters_opened events hr
      rw [hopen] at h
      have hagree := h.opens next event pid attach true List.mem_cons_self
      cases hr' : (Source.openOn (supply' next) event pid attach).1 with
      | error stop' => simp [hr', Meter.succeeded] at hagree
      | ok u' =>
        have hopen' := openMeters_opened events hr'
        obtain ⟨hnotes, hstate, hboth⟩ := ih (h.mono (Nat.le_refl n) (List.subset_append_right _ _))
        rw [hopen, hopen', hnotes, hstate]
        refine ⟨rfl, rfl, ?_⟩
        have htwin : pid = q →
            Meter.Twin n ((Meter.create event next (supply next)).openOn pid attach).state
              ((Meter.create event next (supply' next)).openOn pid attach).state := by
          rintro rfl
          exact ⟨rfl, rfl, h.reads next event attach true List.mem_cons_self⟩
        exact hboth.map fun ms ms' related => .cons htwin related

/-- Both processes have their counters, in the same places, or neither has. -/
theorem openOn_twin {next : Nat} {events : List Event}
    (h : Agree q n supply supply' (openOn supply pid attach next events).notes) :
    (openOn supply pid attach next events).notes = (openOn supply' pid attach next events).notes ∧
      (openOn supply pid attach next events).state = (openOn supply' pid attach next events).state ∧
      Both (fun g g' => pid = q → Twin n g g') (openOn supply pid attach next events).result
        (openOn supply' pid attach next events).result := by
  obtain ⟨hnotes, hstate, hboth⟩ := openMeters_twin h
  refine ⟨hnotes, hstate, hboth.map ?_⟩
  intro ms ms' related hpid
  have htwins : List.Forall₂ (Meter.Twin n) ms ms' := related.imp fun m m' hm => hm hpid
  refine ⟨?_, htwins⟩
  simp only [List.map_const', htwins.length_eq]

end Group

namespace Sampler

variable {q pid : Pid} {g : Group κ} {g' : Group κ'} {groups : PidMap (Group κ)} {mode : Mode}
  {s : Sampler κ} {s' : Sampler κ'} {n : Nat}

theorem sampleOne_twin (mode : Mode) (pid : Pid) (h : g.Twin (n + 1) g') :
    Likewise (Group.Twin n) (sampleOne mode pid g) (sampleOne mode pid g') := by
  obtain ⟨hresult, hnotes, hstate⟩ := Group.sample_twin mode h
  unfold sampleOne
  simp only [← hresult, ← hnotes]
  cases (g.sample mode).result with
  | ok samples => exact ⟨rfl, rfl, hstate⟩
  | error stop =>
    cases stop with
    | panicked p => exact ⟨rfl, rfl, hstate⟩
    | failed f =>
      by_cases hf : f.cause.isCounterInvariant
      · simp only [hf, if_true]
        exact ⟨rfl, rfl, hstate⟩
      · simp only [hf]
        exact ⟨rfl, rfl, hstate⟩

/-- Sampling the process does not end the sample: neither do its counters break an invariant, nor do they
fail as if they had. -/
def Bears (mode : Mode) (g : Group κ) : Prop :=
  ∀ stop, (g.sample mode).result = .error stop → ∃ f, stop = .failed f ∧ f.cause.isCounterInvariant = false

theorem Bears.onward (h : Bears mode g) (pid : Pid) : (sampleOne mode pid g).result = .ok () := by
  cases hr : (g.sample mode).result with
  | ok samples =>
    simp only [sampleOne, hr]
    rfl
  | error stop =>
    obtain ⟨f, rfl, hf⟩ := h stop hr
    simp only [sampleOne, hr, hf]
    rfl

/-- A sample comes to the process unless one of those before it ends the sample, and what the others do is
not seen of its counters. -/
theorem sampleGroups_at (hasc : PidMap.Ascending groups) (hd : (counters groups).Nodup)
    (hbears : ∀ e ∈ groups, e.1 < q → Bears mode e.2) (hfind : PidMap.find? q groups = some g) :
    PidMap.find? q (sampleGroups mode groups).state = some (sampleOne mode q g).state ∧
      ∀ k ∈ ordinals g.meters, history k (sampleGroups mode groups).notes =
        history k (sampleOne mode q g).notes := by
  induction groups with
  | nil => cases hfind
  | cons e more ih =>
    obtain ⟨p, h⟩ := e
    obtain ⟨habove, hrest⟩ := Ascending.tail_above hasc
    obtain ⟨hapart, hdrest⟩ := counters_cons_nodup hd
    rw [PidMap.find?_cons] at hfind
    split at hfind
    · rename_i hq
      subst hq
      cases hfind
      simp only [sampleGroups]
      cases (sampleOne mode q g).result with
      | error stop => exact ⟨by simp [PidMap.find?_cons], fun k hk => rfl⟩
      | ok u =>
        refine ⟨by simp [PidMap.find?_cons], ?_⟩
        intro k hk
        have hothers : k ∉ counters more := by
          intro hmem
          obtain ⟨e', he', hk'⟩ := List.mem_flatMap.mp hmem
          exact hapart e' he' k hk' hk
        rw [history_append, ((sampleGroups_reads mode more).2 k).2 hothers, List.append_nil]
    · rename_i hq
      have hmem := PidMap.mem_of_find? hfind
      have hbears' : Bears mode h := hbears (p, h) List.mem_cons_self (habove _ hmem)
      obtain ⟨hfound, hnotes⟩ := ih hrest hdrest (fun e he => hbears e (List.mem_cons_of_mem _ he)) hfind
      simp only [sampleGroups, hbears'.onward p]
      refine ⟨by rw [PidMap.find?_cons, if_neg hq, hfound], ?_⟩
      intro k hk
      have hown := ((sampleOne_reads mode p h).2 k).2 (hapart (q, g) hmem k hk)
      rw [history_append, hown, List.nil_append, hnotes k hk]

/-- Two samplers that hold the same processes, one of them with counters of one past. -/
structure Beside (q : Pid) (n : Nat) (s : Sampler κ) (s' : Sampler κ') : Prop where
  mode : s.mode = s'.mode
  attach : s.attach = s'.attach
  generic : s.generic = s'.generic
  created : s.created = s'.created
  pids : PidMap.pids s.groups = PidMap.pids s'.groups
  followed : Option.Rel (Group.Twin n) (PidMap.find? q s.groups) (PidMap.find? q s'.groups)

theorem map_of_rel {α β γ : Type} {R : α → β → Prop} {a : Option α} {b : Option β} {f : α → γ}
    {f' : β → γ} (h : Option.Rel R a b) (hmap : ∀ x y, R x y → f x = f' y) : a.map f = b.map f' := by
  cases h with
  | none => rfl
  | some related => exact congrArg some (hmap _ _ related)

theorem Beside.latest (h : Beside q n s s') : s.latest? q = s'.latest? q :=
  map_of_rel h.followed fun _ _ htwin => htwin.latest

theorem Beside.rows (h : Beside q n s s') :
    (PidMap.find? q s.groups).map (fun g => ordinals g.meters) =
      (PidMap.find? q s'.groups).map fun g => ordinals g.meters :=
  map_of_rel h.followed fun _ _ htwin => htwin.ordinals

theorem Beside.adds (h : Beside q n s s') (hagree : Agree q n s.supply s'.supply (s.add pid).notes) :
    (s.add pid).notes = (s'.add pid).notes ∧ Beside q n (s.add pid).state (s'.add pid).state := by
  have hcontains := PidMap.contains_of_pids h.pids pid
  by_cases hc : PidMap.contains pid s.groups
  · simp only [add, hc, hcontains.symm.trans hc, if_true]
    exact ⟨rfl, h⟩
  · have hc' : ¬ PidMap.contains pid s'.groups := hcontains ▸ hc
    have hnotes : (Group.openOn s.supply pid s.attach s.created s.generic.events).notes ⊆
        (s.add pid).notes := by
      simp only [add, hc, Bool.false_eq_true, if_false]
      split <;> exact List.subset_cons_self ..
    obtain ⟨hsame, hstate, hboth⟩ := Group.openOn_twin (hagree.mono (Nat.le_refl n) hnotes)
    simp only [add, hc, hc', ← h.attach, ← h.created, ← h.generic, ← hsame, ← hstate,
      Bool.false_eq_true, if_false]
    generalize (Group.openOn s.supply pid s.attach s.created s.generic.events).result = r at hboth
    generalize (Group.openOn s'.supply pid s.attach s.created s.generic.events).result = r' at hboth
    cases hboth with
    | error stop stop' => exact ⟨rfl, h.mode, rfl, rfl, rfl, h.pids, h.followed⟩
    | ok g g' related =>
      refine ⟨rfl, h.mode, rfl, rfl, rfl, PidMap.insert_of_pids h.pids pid g g', ?_⟩
      simp only [Step.done, PidMap.find?_insert]
      split
      · rename_i hq
        exact .some (related hq.symm)
      · exact h.followed

theorem Beside.found (h : Beside q n s s') (hfind : PidMap.find? q s.groups = some g) :
    ∃ g', PidMap.find? q s'.groups = some g' ∧ g.Twin n g' := by
  have hrel := h.followed
  rw [hfind] at hrel
  generalize PidMap.find? q s'.groups = found at hrel
  cases hrel with
  | some htwin => exact ⟨_, rfl, htwin⟩

/-- The process is sampled alike by both. -/
theorem Beside.samples (h : Beside q (n + 1) s s') (hs : Sound s) (hs' : Sound s')
    (hd : (counters s.groups).Nodup) (hd' : (counters s'.groups).Nodup)
    (hbears : ∀ e ∈ s.groups, e.1 < q → Bears s.mode e.2)
    (hbears' : ∀ e ∈ s'.groups, e.1 < q → Bears s'.mode e.2) :
    Beside q n s.sample.state s'.sample.state ∧ ∀ g, PidMap.find? q s.groups = some g →
      ∀ k ∈ ordinals g.meters, history k s.sample.notes = history k s'.sample.notes := by
  have hstays : PidMap.pids s.sample.state.groups = PidMap.pids s.groups := sampleGroups_pids ..
  have hstays' : PidMap.pids s'.sample.state.groups = PidMap.pids s'.groups := sampleGroups_pids ..
  have hpids : PidMap.pids s.sample.state.groups = PidMap.pids s'.sample.state.groups :=
    hstays.trans (h.pids.trans hstays'.symm)
  cases hfind : PidMap.find? q s.groups with
  | none =>
    have hmissing : PidMap.contains q s.groups = false := PidMap.contains_eq_false_iff.mpr hfind
    have hafter : PidMap.find? q s.sample.state.groups = none := by
      rw [← PidMap.contains_eq_false_iff, PidMap.contains_of_pids hstays, hmissing]
    have hafter' : PidMap.find? q s'.sample.state.groups = none := by
      rw [← PidMap.contains_eq_false_iff, ← PidMap.contains_of_pids hpids,
        PidMap.contains_of_pids hstays, hmissing]
    refine ⟨⟨h.mode, h.attach, h.generic, h.created, hpids, ?_⟩, by simp⟩
    rw [hafter, hafter']
    exact .none
  | some g =>
    obtain ⟨g', hfind', htwin⟩ := h.found hfind
    obtain ⟨hat, hreads⟩ := sampleGroups_at hs.ascending hd hbears hfind
    obtain ⟨hat', hreads'⟩ := sampleGroups_at hs'.ascending hd' hbears' hfind'
    rw [← h.mode] at hat' hreads'
    obtain ⟨-, hnotes, hstate⟩ := sampleOne_twin s.mode q htwin
    refine ⟨⟨h.mode, h.attach, h.generic, h.created, hpids, ?_⟩, ?_⟩
    · have hfound : PidMap.find? q s.sample.state.groups = some (sampleOne s.mode q g).state := hat
      have hfound' : PidMap.find? q s'.sample.state.groups = some (sampleOne s.mode q g').state := by
        rw [← hat', h.mode]
        rfl
      rw [hfound, hfound']
      exact .some hstate
    · intro g₁ hg₁ k hk
      cases hg₁
      have hk' : k ∈ ordinals g'.meters := htwin.ordinals ▸ hk
      have hsampled : s'.sample.notes = (sampleGroups s.mode s'.groups).notes := by
        rw [h.mode]
        rfl
      rw [hsampled, hreads' k hk', ← hnotes]
      exact hreads k hk

end Sampler

end Corun.Counter
