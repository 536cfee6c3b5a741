import Corun.Proofs.Counter.Histories

namespace Corun.Counter

/-- All the calls to a counter, as they should be. -/
inductive Tidy : List Call → Prop where
  | closed (event : Event) (pid : Os.Pid) (attach : Bool) (oks : List Bool) (ok : Bool) :
      Tidy (.opened event pid attach true :: (oks.map Call.read ++ [.closed ok]))
  | refused (event : Event) (pid : Os.Pid) (attach : Bool) : Tidy [.opened event pid attach false]

/-- The step that opened the counter went on to one that it could not open. -/
def Spoilt (k : Nat) (steps : List (List Note)) : Prop :=
  ∃ notes ∈ steps, OpenedAs true k notes ∧ ∃ j, OpenedAs false j notes

variable {k created created' next last : Nat} {live live' : List Nat} {notes drop : List Note}
  {steps : List (List Note)}

theorem not_tidy_opened (event : Event) (pid : Os.Pid) (attach : Bool) :
    ¬Tidy [.opened event pid attach true] := by
  intro h
  generalize hl : [Call.opened event pid attach true] = calls at h
  cases h with
  | closed _ _ _ oks ok => simp at hl
  | refused _ _ _ => simp at hl

theorem spoilt_append : Spoilt k (steps ++ [notes]) ↔
    Spoilt k steps ∨ OpenedAs true k notes ∧ ∃ j, OpenedAs false j notes := by
  constructor
  · rintro ⟨seen, hm, hspoilt⟩
    rcases List.mem_append.mp hm with hm | hm
    · exact .inl ⟨seen, hm, hspoilt⟩
    · exact .inr (List.mem_singleton.mp hm ▸ hspoilt)
  · rintro (⟨seen, hm, hspoilt⟩ | hspoilt)
    · exact ⟨seen, List.mem_append_left _ hm, hspoilt⟩
    · exact ⟨notes, by simp, hspoilt⟩

theorem not_spoilt_of_silent (h : history k steps.flatten = []) : ¬Spoilt k steps := by
  rintro ⟨seen, hm, hopened, _⟩
  rw [history_flatten, List.flatten_eq_nil_iff] at h
  exact hopened.ne_nil (h _ (List.mem_map_of_mem hm))

/-- What a step can do to the counters that are open: read them, add a whole row to them, or leave them
alone while a row breaks off. -/
inductive Move : List Nat → Nat → List Note → List Nat → Nat → Prop where
  | reads {live : List Nat} {created : Nat} {notes : List Note} (reads : ReadsOf live notes) :
      Move live created notes live created
  | opens {live live' : List Nat} {created next : Nat} {notes : List Note}
      (whole : Whole created next notes)
      (joined : live'.Perm (List.range' created (next - created) ++ live)) :
      Move live created notes live' next
  | breaks {live : List Nat} {created last : Nat} {notes : List Note}
      (broken : Broken created last notes) : Move live created notes live (last + 1)

/-- No counter is created twice. -/
theorem Move.grows (h : Move live created notes live' created') : created ≤ created' := by
  cases h with
  | reads => exact Nat.le_refl _
  | opens whole => exact whole.le
  | breaks broken => exact Nat.le_succ_of_le broken.le

/-- A counter that is open: it was opened, and only read since. -/
def Held (k : Nat) (steps : List (List Note)) : Prop :=
  ¬Spoilt k steps ∧ ∃ event pid attach, ∃ oks : List Bool,
    history k steps.flatten = .opened event pid attach true :: oks.map Call.read

/-- A counter that nobody holds: it was refused, or the row it was opened in broke off. -/
def Gone (k : Nat) (steps : List (List Note)) : Prop :=
  ¬Spoilt k steps ∧ OpenedAs false k steps.flatten ∨ Spoilt k steps ∧ OpenedAs true k steps.flatten

/-- The counters that are open and how many were created, with what was seen until then. -/
structure Ledger (live : List Nat) (created : Nat) (steps : List (List Note)) : Prop where
  nodup : live.Nodup
  below : ∀ k ∈ live, k < created
  held : ∀ k ∈ live, Held k steps
  gone : ∀ k < created, k ∉ live → Gone k steps
  beyond : ∀ k, created ≤ k → history k steps.flatten = []

theorem Ledger.start : Ledger [] 0 [] where
  nodup := List.nodup_nil
  below := nofun
  held := nofun
  gone := nofun
  beyond := fun _ _ => rfl

theorem flatten_concat (steps : List (List Note)) (notes : List Note) :
    (steps ++ [notes]).flatten = steps.flatten ++ notes := by
  rw [List.flatten_append, List.flatten_singleton]

/-- A step that does nothing to a counter, or only reads it, does not spoil it. -/
theorem spoilt_quiet (oks : List Bool) (h : history k notes = oks.map Call.read) :
    Spoilt k (steps ++ [notes]) ↔ Spoilt k steps := by
  rw [spoilt_append]
  refine or_iff_left ?_
  rintro ⟨⟨event, pid, attach, hopened⟩, _⟩
  rw [hopened] at h
  cases oks <;> simp at h

theorem Held.reads (h : Held k steps) (oks : List Bool)
    (hnotes : history k notes = oks.map Call.read) : Held k (steps ++ [notes]) := by
  obtain ⟨hunspoilt, event, pid, attach, before, hbefore⟩ := h
  refine ⟨(spoilt_quiet oks hnotes).not.mpr hunspoilt, event, pid, attach, before ++ oks, ?_⟩
  rw [flatten_concat, history_append, hbefore, hnotes, List.cons_append, List.map_append]

theorem Gone.quiet (h : Gone k steps) (hnone : history k notes = []) : Gone k (steps ++ [notes]) := by
  rw [Gone, spoilt_quiet [] hnone, flatten_concat]
  exact h.imp (And.imp_right fun ho => ho.append_right hnone)
    (And.imp_right fun ho => ho.append_right hnone)

theorem silent_quiet (h : history k steps.flatten = []) (hnone : history k notes = []) :
    history k (steps ++ [notes]).flatten = [] := by
  rw [flatten_concat, history_append, h, hnone, List.append_nil]

theorem Ledger.reads (h : Ledger live created steps) (hreads : ReadsOf live notes) :
    Ledger live created (steps ++ [notes]) where
  nodup := h.nodup
  below := h.below
  held := by
    intro k hk
    obtain ⟨oks, hoks⟩ := (hreads k).1
    exact (h.held k hk).reads oks hoks
  gone := fun k hlt hk => (h.gone k hlt hk).quiet ((hreads k).2 hk)
  beyond := by
    intro k hle
    have hk : k ∉ live := fun hm => absurd (h.below k hm) (Nat.not_lt.mpr hle)
    exact silent_quiet (h.beyond k hle) ((hreads k).2 hk)

/-- A row that does not break off spoils nothing. -/
theorem Whole.none_refused (h : Whole created next notes) (j : Nat) : ¬OpenedAs false j notes := by
  intro hrefused
  rcases Nat.lt_or_ge j created with hbefore | hfrom
  · exact hrefused.ne_nil (h.before j hbefore)
  rcases Nat.lt_or_ge j next with hlt | hge
  · exact Bool.false_ne_true (hrefused.unique (h.opened j hfrom hlt))
  · exact hrefused.ne_nil (h.after j hge)

theorem Whole.held (h : Whole created next notes) (hsilent : history k steps.flatten = [])
    (hle : created ≤ k) (hlt : k < next) : Held k (steps ++ [notes]) := by
  obtain ⟨event, pid, attach, hopened⟩ := h.opened k hle hlt
  refine ⟨?_, event, pid, attach, [], ?_⟩
  · rw [spoilt_append, not_or]
    refine ⟨not_spoilt_of_silent hsilent, ?_⟩
    rintro ⟨_, j, hj⟩
    exact h.none_refused j hj
  · rw [flatten_concat, history_append, hsilent, hopened]
    rfl

theorem Ledger.opens (h : Ledger live created steps) (hwhole : Whole created next notes)
    (hjoined : live'.Perm (List.range' created (next - created) ++ live)) :
    Ledger live' next (steps ++ [notes]) := by
  have hle := hwhole.le
  have hmem : ∀ k, k ∈ live' ↔ (created ≤ k ∧ k < next) ∨ k ∈ live := by
    intro k
    rw [hjoined.mem_iff, List.mem_append, List.mem_range'_1, Nat.add_sub_cancel' hle]
  have hold : ∀ k < created, history k notes = [] := fun k hk => hwhole.before k hk
  refine ⟨?_, ?_, ?_, ?_, ?_⟩
  · rw [hjoined.nodup_iff, List.nodup_append]
    refine ⟨List.nodup_range', h.nodup, ?_⟩
    rintro k hk _ hl rfl
    exact Nat.not_lt.mpr (List.mem_range'_1.mp hk).1 (h.below k hl)
  · intro k hk
    rcases (hmem k).mp hk with hk | hk
    · exact hk.2
    · exact Nat.lt_of_lt_of_le (h.below k hk) hle
  · intro k hk
    rcases (hmem k).mp hk with ⟨hfrom, hbelow⟩ | hk
    · exact hwhole.held (h.beyond k hfrom) hfrom hbelow
    · exact (h.held k hk).reads [] (hold k (h.below k hk))
  · intro k hlt hk
    rw [hmem, not_or] at hk
    have hbefore : k < created := by omega
    exact (h.gone k hbefore hk.2).quiet (hold k hbefore)
  · exact fun k hk => silent_quiet (h.beyond k (hle.trans hk)) (hwhole.after k hk)

theorem Broken.gone (h : Broken created last notes) (hsilent : history k steps.flatten = [])
    (hle : created ≤ k) (hlt : k ≤ last) : Gone k (steps ++ [notes]) := by
  rw [Gone, spoilt_append, flatten_concat]
  rcases Nat.eq_or_lt_of_le hlt with rfl | hlt
  · refine .inl ⟨?_, h.refused.append_left hsilent⟩
    rintro (hspoilt | ⟨hopened, _⟩)
    · exact not_spoilt_of_silent hsilent hspoilt
    · exact Bool.false_ne_true (h.refused.unique hopened)
  · have hopened := h.opened k hle hlt
    exact .inr ⟨.inr ⟨hopened, last, h.refused⟩, hopened.append_left hsilent⟩

theorem Ledger.breaks (h : Ledger live created steps) (hbroken : Broken created last notes) :
    Ledger live (last + 1) (steps ++ [notes]) := by
  have hle := hbroken.le
  have hold : ∀ k < created, history k notes = [] := fun k hk => hbroken.before k hk
  refine ⟨h.nodup, ?_, ?_, ?_, ?_⟩
  · intro k hk
    have := h.below k hk
    omega
  · exact fun k hk => (h.held k hk).reads [] (hold k (h.below k hk))
  · intro k hlt hk
    rcases Nat.lt_or_ge k created with hbefore | hfrom
    · exact (h.gone k hbefore hk).quiet (hold k hbefore)
    · exact hbroken.gone (h.beyond k hfrom) hfrom (Nat.le_of_lt_succ hlt)
  · exact fun k hk => silent_quiet (h.beyond k (by omega)) (hbroken.after k hk)

theorem Ledger.move (h : Ledger live created steps) (hmove : Move live created notes live' created') :
    Ledger live' created' (steps ++ [notes]) := by
  cases hmove with
  | reads reads => exact h.reads reads
  | opens whole joined => exact h.opens whole joined
  | breaks broken => exact h.breaks broken

/-- While every counter that was ever created is open, no row broke off. -/
theorem Ledger.none_spoilt (h : Ledger live created steps) (hall : ∀ k < created, k ∈ live) (k : Nat) :
    ¬Spoilt k steps := by
  rcases Nat.lt_or_ge k created with hlt | hge
  · exact (h.held k (hall k hlt)).1
  · exact not_spoilt_of_silent (h.beyond k hge)

/-- The end of all counters. -/
structure Balanced (created : Nat) (steps : List (List Note)) (drop : List Note) : Prop where
  /-- Only in a row that breaks off can a counter come to a bad end. -/
  tidy : ∀ k < created, Tidy (history k (steps.flatten ++ drop)) ↔ ¬Spoilt k steps
  /-- It is never closed then, and never read either. -/
  left : ∀ k, Spoilt k steps → OpenedAs true k (steps.flatten ++ drop)
  beyond : ∀ k, created ≤ k → history k (steps.flatten ++ drop) = []

theorem Held.tidy (h : Held k steps) {ok : Bool} (hclosed : history k drop = [.closed ok]) :
    Tidy (history k (steps.flatten ++ drop)) := by
  obtain ⟨_, event, pid, attach, oks, hreading⟩ := h
  rw [history_append, hreading, hclosed, List.cons_append]
  exact .closed event pid attach oks ok

theorem Gone.tidy_iff (h : Gone k steps) : Tidy (history k steps.flatten) ↔ ¬Spoilt k steps := by
  rcases h with ⟨hns, event, pid, attach, hrefused⟩ | ⟨hs, event, pid, attach, hopened⟩
  · rw [hrefused]
    exact iff_of_true (.refused event pid attach) hns
  · rw [hopened]
    exact iff_of_false (not_tidy_opened event pid attach) (not_not_intro hs)

theorem Gone.left_open (h : Gone k steps) (hs : Spoilt k steps) : OpenedAs true k steps.flatten := by
  rcases h with ⟨hns, _⟩ | ⟨_, hopened⟩
  · exact absurd hs hns
  · exact hopened

theorem Ledger.balanced (h : Ledger live created steps) (hclose : Closes live drop) :
    Balanced created steps drop := by
  have hrest : ∀ k, k ∉ live → history k (steps.flatten ++ drop) = history k steps.flatten := by
    intro k hk
    rw [history_append, (hclose k).2 hk, List.append_nil]
  refine ⟨?_, ?_, ?_⟩
  · intro k hlt
    by_cases hk : k ∈ live
    · obtain ⟨ok, hclosed⟩ := (hclose k).1 hk
      exact iff_of_true ((h.held k hk).tidy hclosed) (h.held k hk).1
    · rw [hrest k hk]
      exact (h.gone k hlt hk).tidy_iff
  · intro k hs
    have hlt : k < created := Nat.lt_of_not_le fun hle => not_spoilt_of_silent (h.beyond k hle) hs
    have hk : k ∉ live := fun hk => (h.held k hk).1 hs
    obtain ⟨event, pid, attach, hopened⟩ := (h.gone k hlt hk).left_open hs
    exact ⟨event, pid, attach, (hrest k hk).trans hopened⟩
  · intro k hle
    have hk : k ∉ live := fun hm => absurd (h.below k hm) (Nat.not_lt.mpr hle)
    rw [hrest k hk, h.beyond k hle]

end Corun.Counter
