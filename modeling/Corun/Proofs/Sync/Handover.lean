import Mathlib.Data.List.Basic
import Corun.Proofs.Machine
import Corun.Sync.Queue

namespace Corun.Sync

namespace Bell

variable {n k : Nat} {b b' : Bell}

/-- For each of so many values a ring is due or a thread is awake, if anybody is asleep at all. -/
def Heard (n : Nat) (b : Bell) : Prop := b.asleep ≠ [] → n ≤ b.due + b.awake.length

theorem heard_nothing (b : Bell) : b.Heard 0 := fun _ => Nat.zero_le _

theorem wake_moves_one {expired : Bool} (h : b.wake k expired = some b') :
    b.asleep ≠ [] ∧ b'.due = b.due ∧ b'.awake.length = b.awake.length + 1 := by
  obtain ⟨s, hs, rfl⟩ := Option.map_eq_some_iff.mp h
  refine ⟨fun hnone => ?_, rfl, List.length_append⟩
  simp [hnone] at hs

/-- Whoever wakes by himself is one more that is awake. -/
theorem Heard.wake {expired : Bool} (hb : b.Heard n) (h : b.wake k expired = some b') :
    b'.Heard n := by
  obtain ⟨hasleep, hdue, hawake⟩ := wake_moves_one h
  intro _
  have := hb hasleep
  omega

/-- A ring that is carried out wakes somebody, or finds nobody asleep. -/
theorem Heard.step {a : Action} (hb : b.Heard n) (h : b.step a = some b') : b'.Heard n := by
  cases a with
  | ring k =>
    simp only [Bell.step] at h
    split at h
    · cases h
    · split at h
      · rename_i hnone
        cases h
        exact fun hsome => absurd hnone hsome
      · obtain ⟨hasleep, hdue, hawake⟩ := wake_moves_one h
        intro _
        have := hb hasleep
        simp only at hdue hawake
        omega
  | expire k =>
    simp only [Bell.step] at h
    split at h
    · exact hb.wake h
    · cases h
  | stir k => exact hb.wake h

theorem Heard.announce (hb : b.Heard n) : b.announce.Heard (n + 1) := by
  intro hasleep
  have : n ≤ b.due + b.awake.length := hb hasleep
  simp only [Bell.announce]
  omega

/-- A thread that runs was there for one of the values. -/
theorem Heard.rise {r : Riser} (hb : b.Heard (n + 1)) (h : b.rise k = some (r, b')) : b'.Heard n := by
  obtain ⟨x, hx, he⟩ := Option.map_eq_some_iff.mp h
  obtain ⟨rfl, rfl⟩ := Prod.mk.inj he
  obtain ⟨hk, _⟩ := List.getElem?_eq_some_iff.mp hx
  intro hasleep
  have hcovered : n + 1 ≤ b.due + b.awake.length := hb hasleep
  have hleft := List.length_eraseIdx_of_lt hk
  simp only
  omega

end Bell

namespace Queue

variable {α : Type} {q t : Queue α} {e : List (Entry α)} {consumer : Nat}

/-- What was pushed, each with its producer. -/
def pushes (e : List (Entry α)) : List (Nat × α) :=
  e.filterMap fun
    | .pushed producer a => some (producer, a)
    | _ => none

/-- What was popped, each with its consumer. -/
def pops (e : List (Entry α)) : List (Nat × α) :=
  e.filterMap fun
    | .popped consumer a => some (consumer, a)
    | _ => none

theorem pushes_append (e f : List (Entry α)) : pushes (e ++ f) = pushes e ++ pushes f :=
  List.filterMap_append ..

theorem pops_append (e f : List (Entry α)) : pops (e ++ f) = pops e ++ pops f :=
  List.filterMap_append ..

/-- All that a consumer can do that has the lock. -/
inductive Look (consumer : Nat) : Queue α → Queue α → List (Entry α) → Prop where
  | takes (a : α) (values : List α) (bell : Bell) :
    Look consumer ⟨a :: values, bell⟩ ⟨values, bell⟩ [.popped consumer a]
  | leaves (bell : Bell) : Look consumer ⟨[], bell⟩ ⟨[], bell⟩ [.left consumer]
  | sleeps (timed : Bool) (bell : Bell) :
    Look consumer ⟨[], bell⟩ ⟨[], bell.sleep consumer timed⟩ []

/-- All that can happen in one step. -/
inductive Move : Queue α → Queue α → List (Entry α) → Prop where
  | pushes (q : Queue α) (producer : Nat) (a : α) :
    Move q ⟨q.values ++ [a], q.bell.announce⟩ [.pushed producer a]
  | looks {q t : Queue α} {e : List (Entry α)} {consumer : Nat} (look : Look consumer q t e) :
    Move q t e
  | sounds (q : Queue α) (a : Bell.Action) (bell : Bell) (sound : q.bell.step a = some bell) :
    Move q { q with bell } []
  | rises (q : Queue α) {t : Queue α} {e : List (Entry α)} (k : Nat) (r : Riser) (bell : Bell)
      (rise : q.bell.rise k = some (r, bell)) (look : Look r.thread { q with bell } t e) :
    Move q t e

theorem take_look {otherwise : Queue α × List (Entry α)}
    (hother : q.values = [] → Look consumer q otherwise.1 otherwise.2)
    (h : q.take consumer otherwise = (t, e)) : Look consumer q t e := by
  obtain ⟨values, bell⟩ := q
  cases values with
  | nil =>
    obtain rfl : otherwise = (t, e) := h
    exact hother rfl
  | cons a values =>
    cases h
    exact .takes a values bell

theorem leaves_look (h : q.values = []) : Look consumer q q [.left consumer] := by
  obtain ⟨values, bell⟩ := q
  cases h
  exact .leaves bell

theorem sleeps_look (timed : Bool) (h : q.values = []) :
    Look consumer q (q.sleep consumer timed) [] := by
  obtain ⟨values, bell⟩ := q
  cases h
  exact .sleeps timed bell

theorem step_move {a : Action α} (h : step q a = some (t, e)) : Move q t e := by
  cases a with
  | push producer a =>
    cases h
    exact .pushes q producer a
  | pop consumer timed => exact .looks (take_look (sleeps_look timed) (Option.some.inj h))
  | tryPop consumer => exact .looks (take_look leaves_look (Option.some.inj h))
  | bell a =>
    obtain ⟨bell, hb, he⟩ := Option.map_eq_some_iff.mp h
    cases he
    exact .sounds q a bell hb
  | resume k =>
    obtain ⟨⟨r, bell⟩, hr, he⟩ := Option.map_eq_some_iff.mp h
    refine .rises q k r bell hr (take_look (fun hnone => ?_) he)
    cases r.expired with
    | true => exact leaves_look hnone
    | false => exact sleeps_look r.timed hnone

/-- Nothing is lost and nothing comes twice, and no value waits for a consumer that sleeps. -/
structure Sound (q : Queue α) (e : List (Entry α)) : Prop where
  order : (pops e).map Prod.snd ++ q.values = (pushes e).map Prod.snd
  heard : q.bell.Heard q.values.length

theorem empty_sound : Sound (empty : Queue α) [] := ⟨rfl, Bell.heard_nothing _⟩

/-- What somebody may have seen who has the lock now. -/
theorem Look.order {f : List (Entry α)} (hl : Look consumer q t f)
    (h : (pops e).map Prod.snd ++ q.values = (pushes e).map Prod.snd) :
    (pops (e ++ f)).map Prod.snd ++ t.values = (pushes (e ++ f)).map Prod.snd := by
  rw [pops_append, pushes_append]
  cases hl with
  | takes a values bell => simpa [pops, pushes] using h
  | leaves bell => simpa [pops, pushes] using h
  | sleeps timed bell => simpa [pops, pushes] using h

/-- A consumer goes to sleep only where nothing is left. -/
theorem Look.heard {f : List (Entry α)} (hl : Look consumer q t f)
    (h : q.bell.Heard (q.values.length - 1)) : t.bell.Heard t.values.length := by
  cases hl with
  | takes a values bell => exact h
  | leaves bell => exact Bell.heard_nothing _
  | sleeps timed bell => exact Bell.heard_nothing _

theorem Sound.move {f : List (Entry α)} (hs : Sound q e) (hm : Move q t f) : Sound t (e ++ f) := by
  cases hm with
  | pushes producer a =>
    refine ⟨?_, ?_⟩
    · rw [pops_append, pushes_append, List.map_append, List.map_append, ← hs.order]
      simp [pops, pushes]
    · rw [List.length_append]
      exact hs.heard.announce
  | looks look =>
    exact ⟨look.order hs.order,
      look.heard fun hasleep => Nat.le_trans (Nat.sub_le _ _) (hs.heard hasleep)⟩
  | sounds a bell sound =>
    refine ⟨?_, hs.heard.step sound⟩
    rw [List.append_nil]
    exact hs.order
  | rises k r bell rise look =>
    refine ⟨look.order (q := { q with bell }) hs.order, look.heard ?_⟩
    cases hv : q.values with
    | nil => exact Bell.heard_nothing _
    | cons a values =>
      have hheard := hs.heard
      rw [hv] at hheard
      exact hheard.rise rise

theorem run_sound {acts : List (Action α)} (hr : run empty acts = some (q, e)) : Sound q e :=
  Machine.run_invariant (P := fun q _ e => Sound q e) empty_sound
    (fun _ _ _ _ _ _ _ hs h => hs.move (step_move h)) hr

/-- A value on its way from one thread to another. -/
structure Handover (α : Type) where
  producer : Nat
  consumer : Nat
  value : α

/-- The way of a value that was pushed and popped. -/
def Handover.of (given taken : Nat × α) : Handover α := ⟨given.1, taken.1, given.2⟩

/-- What was popped first was pushed first, and so on. -/
def handovers (e : List (Entry α)) : List (Handover α) :=
  List.zipWith Handover.of (pushes e) (pops e)

/-- What one consumer has from one producer, in the order in which it was popped. -/
def between (producer consumer : Nat) (e : List (Entry α)) : List α :=
  ((handovers e).filter fun h => h.producer = producer && h.consumer = consumer).map Handover.value

def pushedBy (producer : Nat) (e : List (Entry α)) : List α :=
  ((pushes e).filter fun given => given.1 = producer).map Prod.snd

def poppedBy (consumer : Nat) (e : List (Entry α)) : List α :=
  ((pops e).filter fun taken => taken.1 = consumer).map Prod.snd

/-- The pops are those of the handovers, if what was popped is the beginning of what was pushed. -/
theorem handovers_taken {given taken : List (Nat × α)}
    (h : taken.map Prod.snd <+: given.map Prod.snd) :
    (List.zipWith Handover.of given taken).map (fun h => (h.consumer, h.value)) = taken := by
  induction taken generalizing given with
  | nil => simp
  | cons y taken ih =>
    cases given with
    | nil => simp at h
    | cons x given =>
      obtain ⟨hvalue, hrest⟩ := List.cons_prefix_cons.mp h
      simp only [List.zipWith_cons_cons, List.map_cons, ih hrest, Handover.of, ← hvalue]

/-- The pushes of the handovers are the first of all pushes. -/
theorem handovers_given (given taken : List (Nat × α)) :
    (List.zipWith Handover.of given taken).map (fun h => (h.producer, h.value)) <+: given := by
  induction taken generalizing given with
  | nil => simp
  | cons y taken ih =>
    cases given with
    | nil => simp
    | cons x given =>
      rw [List.zipWith_cons_cons, List.map_cons]
      exact List.cons_prefix_cons.mpr ⟨rfl, ih given⟩

/-- What is true of all runs of a queue: what was popped and what is left are what was pushed, in that
order; every pop takes what a push of its own gave; a consumer has the values of a producer in the
order in which they were pushed; and no consumer is left asleep beside a value that nobody is to come
for. -/
structure Kept (q : Queue α) (e : List (Entry α)) : Prop where
  order : popped e ++ q.values = (pushes e).map Prod.snd
  taken : (handovers e).map (fun h => (h.consumer, h.value)) = pops e
  given : (handovers e).map (fun h => (h.producer, h.value)) <+: pushes e
  asPushed : ∀ producer consumer, (between producer consumer e).Sublist (pushedBy producer e)
  asPopped : ∀ producer consumer, (between producer consumer e).Sublist (poppedBy consumer e)
  heard : q.bell.asleep ≠ [] → q.values.length ≤ q.bell.due + q.bell.awake.length

theorem popped_eq (e : List (Entry α)) : popped e = (pops e).map Prod.snd := by
  induction e with
  | nil => rfl
  | cons x e ih =>
    simp only [popped, pops] at ih ⊢
    cases x with
    | pushed producer a => exact ih
    | popped consumer a => exact congrArg (a :: ·) ih
    | left consumer => exact ih

theorem between_pushed (h : (handovers e).map (fun h => (h.producer, h.value)) <+: pushes e)
    (producer consumer : Nat) : (between producer consumer e).Sublist (pushedBy producer e) := by
  have hchosen : ((handovers e).filter fun h => h.producer = producer && h.consumer = consumer).Sublist
      ((handovers e).filter fun h => h.producer = producer) := by
    refine List.monotone_filter_right _ fun h hh => ?_
    exact (Bool.and_eq_true_iff.mp hh).1
  have hgiven := (h.sublist.filter fun given => given.1 = producer).map Prod.snd
  rw [List.filter_map, List.map_map] at hgiven
  exact (hchosen.map Handover.value).trans hgiven

theorem between_popped (h : (handovers e).map (fun h => (h.consumer, h.value)) = pops e)
    (producer consumer : Nat) : (between producer consumer e).Sublist (poppedBy consumer e) := by
  have hchosen : ((handovers e).filter fun h => h.producer = producer && h.consumer = consumer).Sublist
      ((handovers e).filter fun h => h.consumer = consumer) := by
    refine List.monotone_filter_right _ fun h hh => ?_
    exact (Bool.and_eq_true_iff.mp hh).2
  unfold poppedBy
  rw [← h, List.filter_map, List.map_map]
  exact hchosen.map Handover.value

theorem Sound.kept (hs : Sound q e) : Kept q e := by
  have htaken := handovers_taken ⟨q.values, hs.order⟩
  have hgiven := handovers_given (pushes e) (pops e)
  exact ⟨popped_eq e ▸ hs.order, htaken, hgiven, between_pushed hgiven, between_popped htaken, hs.heard⟩

/-- However any number of producers and consumers take turns with the lock and the bell. -/
theorem values_kept_and_heard {acts : List (Action α)} (hr : run empty acts = some (q, e)) :
    Kept q e := (run_sound hr).kept

/-- Two consumers sleep, and two producers push. The first value is stolen by a third consumer before
the one that was woken for it runs, which goes to sleep again and is woken for the next value. -/
theorem stolen_value_kept_and_heard :
    ∃ (q : Queue Char) (e : List (Entry Char)),
      run empty [.pop 0 false, .pop 1 true, .push 0 'a', .bell (.ring 0), .tryPop 2, .resume 0,
        .push 1 'b', .push 0 'c', .bell (.ring 1), .resume 0] = some (q, e) ∧
      q = ⟨['c'], ⟨1, [⟨1, true⟩], []⟩⟩ ∧ pops e = [(2, 'a'), (0, 'b')] ∧ Kept q e := by
  have hrun : run empty [.pop 0 false, .pop 1 true, .push 0 'a', .bell (.ring 0), .tryPop 2, .resume 0,
      .push 1 'b', .push 0 'c', .bell (.ring 1), .resume 0] =
        some (⟨['c'], ⟨1, [⟨1, true⟩], []⟩⟩,
          [.pushed 0 'a', .popped 2 'a', .pushed 1 'b', .pushed 0 'c', .popped 0 'b']) := rfl
  exact ⟨_, _, hrun, rfl, rfl, values_kept_and_heard hrun⟩

end Queue

end Corun.Sync
