import Corun.Proofs.Supervisor.Trace

namespace Corun.Supervisor

variable {σ : Type} [Strategy σ] {v w : Supervisor σ} {s : σ} {a : Action} {e : List Entry}
  {acts : List Action}

/-- A life of a strategy, by what was entered in each part of it. -/
structure Course where
  begun : Bool
  delivered : List Announcement
  prepared : Bool
  /-- For each tick what was handed out after it. -/
  rounds : List (List Announcement)
  finalized : Bool

namespace Course

def round (announcements : List Announcement) : List Hook := .tick :: announcements.map .event

def hooks (c : Course) : List Hook :=
  (if c.begun then [.setUp] else []) ++ c.delivered.map .event
    ++ (if c.prepared then [.prepare] else []) ++ c.rounds.flatMap round
    ++ (if c.finalized then [.finalize] else [])

/-- A life that has not begun. -/
def blank : Course := ⟨false, [], false, [], false⟩

theorem not_mem_round {h : Hook} (ht : h ≠ .tick) (he : ∀ a, h ≠ .event a)
    (rounds : List (List Announcement)) : h ∉ rounds.flatMap round := by
  intro hm
  obtain ⟨announcements, _, hm⟩ := List.mem_flatMap.mp hm
  rcases List.mem_cons.mp hm with hm | hm
  · exact ht hm
  · obtain ⟨a, _, ha⟩ := List.mem_map.mp hm
    exact he a ha.symm

theorem setUp_once (c : Course) : c.hooks.count .setUp ≤ 1 := by
  have hr := List.count_eq_zero.mpr (not_mem_round (h := .setUp) (by simp) (by simp) c.rounds)
  have hd : (c.delivered.map Hook.event).count .setUp = 0 := List.count_eq_zero.mpr (by simp)
  simp only [hooks, List.count_append, hr, hd]
  split <;> split <;> split <;> decide

theorem prepare_once (c : Course) : c.hooks.count .prepare ≤ 1 := by
  have hr := List.count_eq_zero.mpr (not_mem_round (h := .prepare) (by simp) (by simp) c.rounds)
  have hd : (c.delivered.map Hook.event).count .prepare = 0 := List.count_eq_zero.mpr (by simp)
  simp only [hooks, List.count_append, hr, hd]
  split <;> split <;> split <;> decide

theorem finalize_count (c : Course) : c.hooks.count .finalize = if c.finalized then 1 else 0 := by
  have hr := List.count_eq_zero.mpr (not_mem_round (h := .finalize) (by simp) (by simp) c.rounds)
  have hd : (c.delivered.map Hook.event).count .finalize = 0 := List.count_eq_zero.mpr (by simp)
  simp only [hooks, List.count_append, hr, hd]
  split <;> split <;> split <;> decide

/-- An announcement that is handed out in a round belongs to the last one. -/
theorem rounds_extended {rounds : List (List Announcement)} (hne : rounds ≠ []) (a : Announcement) :
    ∃ rounds', rounds' ≠ [] ∧ rounds'.flatMap round = rounds.flatMap round ++ [.event a] := by
  refine ⟨rounds.dropLast ++ [rounds.getLast hne ++ [a]], by simp, ?_⟩
  have hsplit := List.dropLast_concat_getLast hne
  calc (rounds.dropLast ++ [rounds.getLast hne ++ [a]]).flatMap round
      = (rounds.dropLast ++ [rounds.getLast hne]).flatMap round ++ [.event a] := by
        simp [round]
    _ = rounds.flatMap round ++ [.event a] := by rw [hsplit]

end Course

/-- How far a life has come at a stage. A round is open while the worker is in it. -/
def Fits (c : Course) (v : Supervisor σ) : Prop :=
  match v.stage with
  | .uninitialized => c = .blank
  | .initialized => c.delivered = [] ∧ c.prepared = false ∧ c.rounds = [] ∧ c.finalized = false
  | .prepared =>
    (v.preparing = true → c.prepared = false) ∧ c.rounds = [] ∧ c.finalized = false
  | .running =>
    (∀ s, v.worker = .ticking s ∨ v.worker = .draining s → c.rounds ≠ []) ∧ c.finalized = false
  | .joined => c.finalized = false
  | .finalized => True

def Continues (c : Course) (w : Supervisor σ) (e : List Entry) : Prop :=
  ∃ c' : Course, Fits c' w ∧ c'.hooks = c.hooks ++ hooks e

theorem call_course {c : Course} {call : Call} (hp : Placed v) (hf : Fits c v)
    (hm : Move v (.call call) w e) : Continues c w e := by
  cases hm with
  | refuses _ idle early => exact ⟨c, hf, by simp⟩
  | setsUp s stage held =>
    simp only [Fits, stage] at hf
    subst hf
    refine ⟨{ Course.blank with begun := true }, ⟨rfl, rfl, rfl, rfl⟩, ?_⟩
    simp [Course.hooks, Course.blank]
  | prepares stage =>
    simp only [Fits, stage] at hf
    exact ⟨c, ⟨fun _ => hf.2.1, hf.2.2.1, hf.2.2.2⟩, by simp⟩
  | starts s stage idle held spawned =>
    simp only [Fits, stage] at hf
    exact ⟨c, ⟨by simp, hf.2.2⟩, by simp⟩
  | startFails s f stage idle held spawned =>
    simp only [Fits, stage] at hf
    simp only [Placed, stage] at hp
    exact ⟨c, ⟨by simp [hp.1], hf.2.2⟩, by simp⟩
  | joinsNone stage there | joins s r stage there | joinsPanicked stage there =>
    simp only [Fits, stage] at hf
    exact ⟨c, hf.2, by simp⟩
  | finalizes s stage held =>
    simp only [Fits, stage] at hf
    refine ⟨{ c with finalized := true }, trivial, ?_⟩
    simp [Course.hooks, hf]
  | finalizesNone stage held => exact ⟨c, trivial, by simp⟩

theorem deliver_course {c : Course} (hf : Fits c v) (hm : Move v .deliver w e) : Continues c w e := by
  cases hm with
  | prepared s stage inside held empty =>
    simp only [Fits, stage, inside, true_implies] at hf
    refine ⟨{ c with prepared := true }, ?_, ?_⟩
    · simp only [Fits, stage]
      exact ⟨by simp, hf.2⟩
    · simp [Course.hooks, hf]
  | delivers s a inbox stage inside held next passed =>
    simp only [Fits, stage, inside, true_implies] at hf
    refine ⟨{ c with delivered := c.delivered ++ [a] }, ?_, ?_⟩
    · simp only [Fits, stage]
      exact ⟨fun _ => hf.1, hf.2⟩
    · simp [Course.hooks, hf]
  | deliveryStops s a inbox stop stage inside held next stopped =>
    simp only [Fits, stage, inside, true_implies] at hf
    refine ⟨{ c with delivered := c.delivered ++ [a] }, ?_, ?_⟩
    · simp only [Fits, stage]
      exact ⟨by simp, hf.2⟩
    · simp [Course.hooks, hf]

theorem work_course {c : Course} (hp : Placed v) (hf : Fits c v) (hm : Move v .work w e) :
    Continues c w e := by
  have hthere : v.worker ≠ .absent := by cases hm <;> simp [*]
  have hstage : v.stage = .running := (hp.running hthere).1
  simp only [Fits, hstage] at hf
  obtain ⟨hopen, hunfinished⟩ := hf
  cases hm with
  | leaves s there closed => exact ⟨c, by simp [Fits, hstage, hunfinished], by simp⟩
  | goesOn s there open_ => exact ⟨c, by simp [Fits, hstage, hunfinished], by simp⟩
  | ticks s there =>
    refine ⟨{ c with rounds := c.rounds ++ [[]] }, by simp [Fits, hstage, hunfinished], ?_⟩
    simp [Course.hooks, Course.round, hunfinished]
  | ticked s there =>
    have hround : c.rounds ≠ [] := hopen s (.inl there)
    exact ⟨c, by simp [Fits, hstage, hunfinished, hround], by simp⟩
  | drained s there empty => exact ⟨c, by simp [Fits, hstage, hunfinished], by simp⟩
  | hands s a inbox there next =>
    obtain ⟨rounds, hround, hrounds⟩ := Course.rounds_extended (hopen s (.inr there)) a
    refine ⟨{ c with rounds := rounds }, by simp [Fits, hstage, hunfinished, hround], ?_⟩
    simp [Course.hooks, hrounds, hunfinished]

/-- Each step goes on with the life where it is. -/
theorem move_course {c : Course} (hp : Placed v) (hf : Fits c v) (hm : Move v a w e) :
    Continues c w e := by
  cases a with
  | call call => exact call_course hp hf hm
  | deliver => exact deliver_course hf hm
  | work => exact work_course hp hf hm
  | post a =>
    cases hm
    exact ⟨c, hf, by simp⟩
  | endRun =>
    cases hm
    exact ⟨c, hf, by simp⟩

theorem run_course {c : Course} (hp : Placed v) (hf : Fits c v) (h : run v acts = some (w, e)) :
    Continues c w e := by
  refine run_moves (P := fun u _ e => Continues c u e) hp ⟨c, hf, by simp⟩ ?_ h
  rintro acts u e a w e' _ hpu ⟨c₁, hf₁, hc₁⟩ hm
  obtain ⟨c₂, hf₂, hc₂⟩ := move_course hpu hf₁ hm
  exact ⟨c₂, hf₂, by rw [hc₂, hc₁, hooks_append, List.append_assoc]⟩

end Corun.Supervisor
