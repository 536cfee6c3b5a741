import Corun.Proofs.Counter.Twins

namespace Corun.Counter.Sampler
open Os

variable {κ κ' : Type} [Source κ] [Source κ'] {q pid : Pid} {g : Group κ} {groups : PidMap (Group κ)}
  {mode : Mode} {s : Sampler κ} {s' : Sampler κ'} {calls more : List Call}
  {seen seen' : List (List Note)} {k n : Nat}

/-- Two runs so far, with what was seen of them, before so many more samples. Counters of the process were
asked the same in each call, and so were those that are yet to be created, which is nothing. -/
structure Tracked (q : Pid) (n : Nat) (s : Sampler κ) (s' : Sampler κ') (seen seen' : List (List Note)) :
    Prop where
  beside : Beside q n s s'
  sound : Sound s
  sound' : Sound s'
  ledger : Ledger (counters s.groups) s.created seen
  ledger' : Ledger (counters s'.groups) s'.created seen'
  calls : ∀ k, (s.created ≤ k ∨ ∃ g, PidMap.find? q s.groups = some g ∧ k ∈ ordinals g.meters) →
    seen.map (history k) = seen'.map (history k)

/-- A process has the counters that it had, or new ones. -/
theorem add_found (hfind : PidMap.find? q (s.add pid).state.groups = some g)
    (hk : k ∈ ordinals g.meters) : PidMap.find? q s.groups = some g ∨ s.created ≤ k := by
  by_cases hc : PidMap.contains pid s.groups
  · simp only [add, hc, if_true, Step.fail] at hfind
    exact .inl hfind
  · rcases Group.openOn_row s.supply pid s.attach s.created s.generic.events with
      ⟨g₁, hg₁, hord, -, -⟩ | ⟨stop, last, hstop, -, -⟩
    · simp only [add, hc, hg₁, Bool.false_eq_true, if_false, Step.done, PidMap.find?_insert] at hfind
      split at hfind
      · cases hfind
        rw [hord] at hk
        exact .inr (List.mem_range'_1.mp hk).1
      · exact .inl hfind
    · simp only [add, hc, hstop, Bool.false_eq_true, if_false] at hfind
      exact .inl hfind

theorem sampleGroups_found (h : PidMap.find? q (sampleGroups mode groups).state = some g) :
    ∃ before, PidMap.find? q groups = some before ∧ ordinals g.meters = ordinals before.meters := by
  induction groups with
  | nil => cases h
  | cons e more ih =>
    obtain ⟨p, g₁⟩ := e
    obtain ⟨hord, -⟩ := sampleOne_reads mode p g₁
    simp only [PidMap.find?_cons]
    cases hone : (sampleOne mode p g₁).result with
    | error stop =>
      simp only [sampleGroups, hone, PidMap.find?_cons] at h
      split at h
      · cases h
        exact ⟨g₁, by simp [*], hord⟩
      · exact ⟨g, by simp [*], rfl⟩
    | ok u =>
      simp only [sampleGroups, hone, PidMap.find?_cons] at h
      split at h
      · cases h
        exact ⟨g₁, by simp [*], hord⟩
      · obtain ⟨before, hbefore, hsame⟩ := ih h
        exact ⟨before, by simp [*], hsame⟩

theorem map_history_concat {notes notes' : List Note}
    (hseen : seen.map (history k) = seen'.map (history k)) (hnotes : history k notes = history k notes') :
    (seen ++ [notes]).map (history k) = (seen' ++ [notes']).map (history k) := by
  simp only [List.map_append, List.map_cons, List.map_nil, hseen, hnotes]

theorem Tracked.adds (h : Tracked q n s s' seen seen')
    (hagree : Agree q n s.supply s'.supply (s.add pid).notes) :
    Tracked q n (s.add pid).state (s'.add pid).state (seen ++ [(s.add pid).notes])
      (seen' ++ [(s'.add pid).notes]) := by
  obtain ⟨hsame, hbeside⟩ := h.beside.adds hagree
  refine ⟨hbeside, h.sound.call (.add pid), h.sound'.call (.add pid), h.ledger.move (add_move pid s),
    h.ledger'.move (add_move pid s'), ?_⟩
  intro k hk
  refine map_history_concat ?_ (congrArg (history k) hsame)
  rcases hk with hbeyond | ⟨g, hfind, hk⟩
  · exact h.calls k (.inl (Nat.le_trans (add_move pid s).grows hbeyond))
  · rcases add_found hfind hk with hbefore | hnew
    · exact h.calls k (.inr ⟨g, hbefore, hk⟩)
    · exact h.calls k (.inl hnew)

theorem Tracked.samples (h : Tracked q (n + 1) s s' seen seen')
    (hbears : ∀ e ∈ s.groups, e.1 < q → Bears s.mode e.2)
    (hbears' : ∀ e ∈ s'.groups, e.1 < q → Bears s'.mode e.2) :
    Tracked q n s.sample.state s'.sample.state (seen ++ [s.sample.notes]) (seen' ++ [s'.sample.notes]) := by
  obtain ⟨hbeside, hsame⟩ :=
    h.beside.samples h.sound h.sound' h.ledger.nodup h.ledger'.nodup hbears hbears'
  refine ⟨hbeside, h.sound.call .sample, h.sound'.call .sample, h.ledger.move (sample_move s),
    h.ledger'.move (sample_move s'), ?_⟩
  intro k hk
  rcases hk with hbeyond | ⟨g, hfind, hk⟩
  · -- A counter that is not created is read by neither.
    have hfresh : k ∉ counters s.groups := fun hm => Nat.not_lt.mpr hbeyond (h.ledger.below k hm)
    have hfresh' : k ∉ counters s'.groups := by
      intro hm
      have hlt := h.ledger'.below k hm
      rw [← h.beside.created] at hlt
      exact Nat.not_lt.mpr hbeyond hlt
    have hsilent : history k s.sample.notes = [] := ((sampleGroups_reads s.mode s.groups).2 k).2 hfresh
    have hsilent' : history k s'.sample.notes = [] :=
      ((sampleGroups_reads s'.mode s'.groups).2 k).2 hfresh'
    exact map_history_concat (h.calls k (.inl hbeyond)) (hsilent.trans hsilent'.symm)
  · obtain ⟨before, hbefore, hord⟩ := sampleGroups_found hfind
    rw [hord] at hk
    exact map_history_concat (h.calls k (.inr ⟨before, hbefore, hk⟩)) (hsame before hbefore k hk)

/-- The call samples the processes. -/
def Call.samples : Call → Bool
  | sample | tick => true
  | _ => false

/-- In no sample is there a process before this one that ends the sample. -/
def Undisturbed (q : Pid) : List Call → Sampler κ → Prop
  | [], _ => True
  | c :: calls, s =>
    (c.samples = true → ∀ e ∈ s.groups, e.1 < q → Bears s.mode e.2) ∧ Undisturbed q calls (s.call c).state

theorem Tracked.call (c : Call) (h : Tracked q (n + c.samples.toNat) s s' seen seen')
    (hagree : Agree q n s.supply s'.supply (s.call c).notes)
    (hbears : c.samples = true → ∀ e ∈ s.groups, e.1 < q → Bears s.mode e.2)
    (hbears' : c.samples = true → ∀ e ∈ s'.groups, e.1 < q → Bears s'.mode e.2) :
    Tracked q n (s.call c).state (s'.call c).state (seen ++ [(s.call c).notes])
      (seen' ++ [(s'.call c).notes]) := by
  cases c with
  | add pid => exact h.adds hagree
  | announce a => exact h.adds hagree
  | sample | tick => exact h.samples (hbears rfl) (hbears' rfl)

theorem call_supply (c : Call) (s : Sampler κ) : (s.call c).state.supply = s.supply := by
  have hadd : ∀ pid, (s.add pid).state.supply = s.supply := by
    intro pid
    unfold add
    split
    · rfl
    · dsimp only
      split <;> rfl
  cases c with
  | add pid => exact hadd pid
  | announce a => exact hadd a.pid
  | sample | tick => rfl

/-- How many of the calls sample the processes. -/
def samplings (calls : List Call) : Nat := (calls.map fun c => c.samples.toNat).sum

theorem Tracked.after {m : Nat} (h : Tracked q (n + samplings calls) s s' seen seen')
    (hagree : Agree q m s.supply s'.supply (s.noted calls).flatten) (hle : n + samplings calls ≤ m)
    (hquiet : Undisturbed q calls s) (hquiet' : Undisturbed q calls s') :
    Tracked q n (s.after calls) (s'.after calls) (seen ++ s.noted calls) (seen' ++ s'.noted calls) := by
  induction calls generalizing s s' seen seen' with
  | nil =>
    simp only [noted, List.append_nil]
    exact h
  | cons c calls ih =>
    obtain ⟨hbears, hrest⟩ := hquiet
    obtain ⟨hbears', hrest'⟩ := hquiet'
    have hcount : n + samplings (c :: calls) = n + samplings calls + c.samples.toNat := by
      simp only [samplings, List.map_cons, List.sum_cons]
      omega
    rw [hcount] at h hle
    have hless : n + samplings calls ≤ m := Nat.le_of_add_right_le hle
    have hfirst : Agree q (n + samplings calls) s.supply s'.supply (s.call c).notes :=
      hagree.mono hless (by simp [noted])
    have hmore : Agree q m (s.call c).state.supply (s'.call c).state.supply
        ((s.call c).state.noted calls).flatten := by
      rw [call_supply, call_supply]
      exact hagree.mono (Nat.le_refl m) (by simp [noted])
    have hall := ih (h.call c hfirst hbears hbears') hmore hless hrest hrest'
    rw [List.append_assoc, List.append_assoc] at hall
    exact hall

theorem noted_append (calls more : List Call) (s : Sampler κ) :
    s.noted (calls ++ more) = s.noted calls ++ (s.after calls).noted more := by
  induction calls generalizing s with
  | nil => rfl
  | cons c calls ih => exact congrArg ((s.call c).notes :: ·) (ih _)

theorem Undisturbed.before (h : Undisturbed q (calls ++ more) s) : Undisturbed q calls s := by
  induction calls generalizing s with
  | nil => trivial
  | cons c calls ih => exact ⟨h.1, ih h.2⟩

section Start

variable {backend : String} {supply : Nat → κ} {supply' : Nat → κ'}

omit [Source κ] in
theorem New.sound (h : New backend supply s) : Sound s := by
  refine ⟨?_, ?_⟩
  · rw [h.groups]
    exact PidMap.ascending_nil
  · simp [h.groups]

theorem New.tracked (h : New backend supply s) (h' : New backend supply' s') (hmode : s.mode = s'.mode)
    (hattach : s.attach = s'.attach) (q : Pid) (n : Nat) : Tracked q n s s' [] [] := by
  have hgeneric : s.generic = s'.generic := Except.ok.inj (h.generic.symm.trans h'.generic)
  refine ⟨⟨hmode, hattach, hgeneric, h.created.trans h'.created.symm, ?_, ?_⟩, h.sound, h'.sound,
    h.ledger, h'.ledger, fun _ _ => rfl⟩
  · rw [h.groups, h'.groups]
    rfl
  · rw [h.groups, h'.groups]
    exact .none

end Start

/-- What is seen of a process in two runs. -/
structure Isolated (q : Pid) (s : Sampler κ) (s' : Sampler κ') (calls : List Call) : Prop where
  latest : ∀ before after, calls = before ++ after →
    (s.after before).latest? q = (s'.after before).latest? q
  counters : (PidMap.find? q (s.after calls).groups).map (fun g => ordinals g.meters) =
    (PidMap.find? q (s'.after calls).groups).map fun g => ordinals g.meters
  /-- In each call the same is asked of each of its counters. -/
  calls : ∀ g, PidMap.find? q (s.after calls).groups = some g → ∀ k ∈ ordinals g.meters,
    (s.noted calls).map (history k) = (s'.noted calls).map (history k)

theorem samplings_append (calls more : List Call) :
    samplings (calls ++ more) = samplings calls + samplings more := by
  simp only [samplings, List.map_append, List.sum_append]

theorem Tracked.isolated (h : Tracked q (samplings calls) s s' [] [])
    (hagree : Agree q (samplings calls) s.supply s'.supply (s.noted calls).flatten)
    (hquiet : Undisturbed q calls s) (hquiet' : Undisturbed q calls s') : Isolated q s s' calls := by
  have hwhole : Tracked q 0 (s.after calls) (s'.after calls) (s.noted calls) (s'.noted calls) := by
    rw [← Nat.zero_add (samplings calls)] at h
    exact h.after hagree (Nat.le_of_eq (Nat.zero_add _)) hquiet hquiet'
  refine ⟨?_, hwhole.beside.rows, ?_⟩
  · rintro before after rfl
    rw [samplings_append, Nat.add_comm] at h hagree
    have hfirst : Agree q (samplings after + samplings before) s.supply s'.supply
        (s.noted before).flatten := by
      rw [noted_append, List.flatten_append] at hagree
      exact hagree.mono (Nat.le_refl _) (List.subset_append_left _ _)
    exact (h.after hfirst (Nat.le_refl _) hquiet.before hquiet'.before).beside.latest
  · intro g hfind k hk
    exact hwhole.calls k (.inr ⟨g, hfind, hk⟩)

/-- A sample goes through the processes in order. In two runs with the same calls a process is sampled the
same if the counters that are opened in the one are opened in the other, those of the process give the
same, and no process before it ends a sample. -/
theorem processes_sampled_in_order_and_apart (name backend : String) (supply : Nat → κ)
    (supply' : Nat → κ') (interval : Nat) (mode : Mode) (attach : Bool) :
    (∀ s, create name backend supply = .ok s → ∀ calls,
      let s : Sampler κ := { s with interval, mode, attach }
      (∀ e ∈ (s.after calls).groups, e.2.Plain) → Orderly (s.after calls)) ∧
    ∀ s s', create name backend supply = .ok s → create name backend supply' = .ok s' → ∀ q calls,
      let s : Sampler κ := { s with interval, mode, attach }
      let s' : Sampler κ' := { s' with interval, mode, attach }
      Agree q (samplings calls) supply supply' (s.noted calls).flatten → Undisturbed q calls s →
        Undisturbed q calls s' → Isolated q s s' calls := by
  refine ⟨?_, ?_⟩
  · intro s hs calls s₁ hplain
    have hnew : New backend supply s₁ := create_new hs interval mode attach
    have hledger := run_ledger calls hnew.ledger
    exact (hnew.sound.after calls).orderly hledger.nodup hplain
  · intro s s' hs hs' q calls s₁ s₁' hagree hquiet hquiet'
    have hnew : New backend supply s₁ := create_new hs interval mode attach
    have hnew' : New backend supply' s₁' := create_new hs' interval mode attach
    rw [← hnew.supply, ← hnew'.supply] at hagree
    exact (hnew.tracked hnew' rfl rfl q _).isolated hagree hquiet hquiet'

section Opened

variable {event : Event} {attach ok : Bool}

theorem openMeters_opens {supply : Nat → κ} {at_ : Bool} {p : Pid} {next : Nat} {events : List Event}
    (hm : .counter k (.opened event pid attach ok) ∈ (Group.openMeters supply p at_ next events).notes) :
    pid = p ∧ next ≤ k ∧ ok = Meter.succeeded (Source.openOn (supply k) event pid attach).1 := by
  induction events generalizing next with
  | nil => cases hm
  | cons first events ih =>
    cases hr : (Source.openOn (supply next) first p at_).1 with
    | error stop =>
      rw [Group.openMeters_refused events hr] at hm
      cases List.mem_singleton.mp hm
      exact ⟨rfl, Nat.le_refl _, by rw [hr]; rfl⟩
    | ok u =>
      rw [Group.openMeters_opened events hr] at hm
      rcases List.mem_append.mp hm with hm | hm
      · cases List.mem_singleton.mp hm
        exact ⟨rfl, Nat.le_refl _, by rw [hr]; rfl⟩
      · obtain ⟨hpid, hnext, hok⟩ := ih hm
        exact ⟨hpid, Nat.le_of_succ_le hnext, hok⟩

/-- Only new counters are opened, on the process that is added, and with the outcome that they have. -/
theorem add_opens {p : Pid} (hm : .counter k (.opened event pid attach ok) ∈ (s.add p).notes) :
    pid = p ∧ s.created ≤ k ∧ ok = Meter.succeeded (Source.openOn (s.supply k) event pid attach).1 := by
  by_cases hc : PidMap.contains p s.groups
  · simp [add, hc, Step.fail] at hm
  · have hnotes : (s.add p).notes = Note.info s!"adding process {p}" ::
        (Group.openMeters s.supply p s.attach s.created s.generic.events).notes := by
      simp only [add, hc, Bool.false_eq_true, if_false]
      split <;> rfl
    rw [hnotes] at hm
    rcases List.mem_cons.mp hm with hline | hm
    · cases hline
    · exact openMeters_opens hm

theorem sample_opens_nothing :
    Note.counter k (.opened event pid attach ok) ∉ s.sample.notes := by
  intro hm
  have hcall : .opened event pid attach ok ∈ history k s.sample.notes :=
    List.mem_filterMap.mpr ⟨_, hm, by simp⟩
  obtain ⟨⟨oks, hreads⟩, -⟩ := (sampleGroups_reads s.mode s.groups).2 k
  have hread : history k s.sample.notes = oks.map Corun.Counter.Call.read := hreads
  rw [hread] at hcall
  simp at hcall

end Opened

/-- The counters of the first process cannot be read in one of two runs, and the second is sampled the same
in both. -/
theorem second_process_apart_from_failing_first :
    let steady : Script := { reads := [.ok ⟨300, 30, 20⟩] }
    let gone : Script := { reads := [Result.fail .notOpen] }
    let calls : List Call := [.add 1, .add 2, .tick]
    ∃ s s', create "pmc" "linux" (fun _ => steady) = .ok s ∧
      create "pmc" "linux" (fun k => if k < 2 then gone else steady) = .ok s' ∧
      Orderly (s'.after [.add 1, .add 2]) ∧ Isolated 2 s s' calls ∧
      (s'.after calls).latest? 2 = some [⟨⟨300, 30, 20⟩⟩, ⟨⟨300, 30, 20⟩⟩] := by
  intro steady gone calls
  let supply : Nat → Script := fun _ => steady
  let supply' : Nat → Script := fun k => if k < 2 then gone else steady
  obtain ⟨-, hapart⟩ :=
    processes_sampled_in_order_and_apart "pmc" "linux" supply supply' 1000 .relative true
  obtain ⟨horder, -⟩ :=
    processes_sampled_in_order_and_apart "pmc" "linux" supply' supply 1000 .relative true
  refine ⟨_, _, rfl, rfl, ?_, ?_, rfl⟩
  · refine horder _ rfl [.add 1, .add 2] ?_
    intro e he m hm stop hstop
    change e ∈ [(1, _), (2, _)] at he
    simp only [List.mem_cons, List.not_mem_nil, or_false] at he
    rcases he with rfl | rfl
    · change m ∈ [_, _] at hm
      simp only [List.mem_cons, List.not_mem_nil, or_false] at hm
      rcases hm with rfl | rfl
      · cases hstop
        exact ⟨_, rfl, rfl⟩
      · cases hstop
        exact ⟨_, rfl, rfl⟩
    · change m ∈ [_, _] at hm
      simp only [List.mem_cons, List.not_mem_nil, or_false] at hm
      rcases hm with rfl | rfl
      · cases hstop
      · cases hstop
  · refine hapart _ _ rfl rfl 2 calls ?_ ?_ ?_
    · let s : Sampler Script := ⟨"pmc", 1000, .relative, true, ⟨0, 1⟩, supply, 0, []⟩
      have hopened : ∀ {k event pid attach ok},
          Note.counter k (.opened event pid attach ok) ∈ (s.noted calls).flatten →
            ok = true ∧ (pid = 2 → 2 ≤ k) := by
        intro k event pid attach ok hm
        change _ ∈ (s.add 1).notes ++ (((s.add 1).state.add 2).notes ++ (_ ++ [])) at hm
        rw [List.append_nil, List.mem_append, List.mem_append] at hm
        rcases hm with hm | hm | hm
        · obtain ⟨hpid, -, hok⟩ := add_opens hm
          exact ⟨hok, by simp [hpid]⟩
        · obtain ⟨-, hk, hok⟩ := add_opens hm
          exact ⟨hok, fun _ => hk⟩
        · exact absurd hm sample_opens_nothing
      refine ⟨?_, ?_⟩
      · intro k event pid attach ok hm
        rw [(hopened hm).1]
        simp only [supply']
        split <;> rfl
      · intro k event attach ok hm n _
        have hsteady : supply' k = steady := if_neg (Nat.not_lt.mpr ((hopened hm).2 rfl))
        rw [hsteady]
    · refine ⟨nofun, nofun, fun _ => ?_, trivial⟩
      intro e he hlt stop hstop
      change e ∈ [(1, _), (2, _)] at he
      simp only [List.mem_cons, List.not_mem_nil, or_false] at he
      rcases he with rfl | rfl
      · cases hstop
      · exact absurd hlt (by decide)
    · refine ⟨nofun, nofun, fun _ => ?_, trivial⟩
      intro e he hlt stop hstop
      change e ∈ [(1, _), (2, _)] at he
      simp only [List.mem_cons, List.not_mem_nil, or_false] at he
      rcases he with rfl | rfl
      · cases hstop
        exact ⟨_, rfl, rfl⟩
      · exact absurd hlt (by decide)

end Corun.Counter.Sampler
