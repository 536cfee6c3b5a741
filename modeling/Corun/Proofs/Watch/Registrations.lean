import Corun.Proofs.Watch.Moves

namespace Corun.Watch
open Os Child

/-- What happens to processes that are tracked. -/
inductive Event where
  | registered (pid : Pid)
  /-- What its task awaits has come back. -/
  | settled (pid : Pid) (r : Result Termination)
  | published (pid : Pid)
  /-- A wait came back with it. -/
  | reported (pid : Pid) (r : Except Failure (Option (Pid × Termination)))

namespace Event

def pid : Event → Pid
  | registered pid | settled pid _ | published pid | reported pid _ => pid

def published? : Event → Option Pid
  | published pid => some pid
  | _ => none

def reported? : Event → Option Pid
  | reported pid _ => some pid
  | _ => none

end Event

/-- What an action with its entries means to the processes. A wait that comes back with one has
taken it from the head of the queue. -/
def eventsOf (w : Watch) : Action → List Entry → List Event
  | .add pid _, [.added _] => [.registered pid]
  | .add .., _ => []
  | .settle pid r, _ => [.settled pid r]
  | .publish pid, _ => [.published pid]
  | _, [.returned r] => (w.published.head?.map fun pid => Event.reported pid r).toList
  | _, _ => []

/-- The watch as seen by the processes. -/
def told : Machine Watch Action Event := fun w a =>
  (step w a).map fun (v, e) => (v, eventsOf w a e)

/-- What happened to one process. -/
def about (pid : Pid) (h : List Event) : List Event := h.filter fun x => x.pid = pid

/-- A registration that was reported. -/
def round (pid : Pid) (r : Except Failure Termination) : List Event :=
  [.registered pid, .settled pid (.ofExcept r), .published pid, .reported pid (reportOf pid r)]

/-- A registration that is as far as its task. -/
def openRound (pid : Pid) : Option Task → List Event
  | none => []
  | some .awaiting => [.registered pid]
  | some (.publishing r) => [.registered pid, .settled pid (.ofExcept r)]
  | some (.ended r) => [.registered pid, .settled pid (.ofExcept r), .published pid]
  | some (.panicked p) => [.registered pid, .settled pid (.error (.panicked p))]

variable {w v : Watch} {a : Action} {e : List Entry} {acts : List Action} {pid : Pid}
  {h : List Event}

@[simp] theorem about_nil (pid : Pid) : about pid [] = [] := rfl

@[simp] theorem about_append (pid : Pid) (h h' : List Event) :
    about pid (h ++ h') = about pid h ++ about pid h' := List.filter_append ..

theorem about_other {x : Event} (hx : x.pid ≠ pid) : about pid [x] = [] := by simp [about, hx]

theorem eventsOf_wait (ha : a.waits = true) (r : Except Failure (Option (Pid × Termination))) :
    eventsOf w a [.returned r] = (w.published.head?.map fun pid => Event.reported pid r).toList := by
  cases a with
  | wait | waitTimed => rfl
  | add | settle | publish => cases ha

theorem told_step (ht : told w a = some (v, h)) : ∃ e, step w a = some (v, e) ∧ h = eventsOf w a e := by
  unfold told at ht
  cases hs : step w a with
  | none => simp [hs] at ht
  | some change =>
    obtain ⟨u, e⟩ := change
    simp only [hs, Option.map_some, Option.some.injEq, Prod.mk.injEq] at ht
    obtain ⟨rfl, rfl⟩ := ht
    exact ⟨e, rfl, rfl⟩

theorem run_told (hr : run w acts = some (v, e)) : ∃ h, Machine.run told w acts = some (v, h) := by
  induction acts generalizing w e with
  | nil =>
    obtain ⟨rfl, rfl⟩ := Machine.run_nil.mp hr
    exact ⟨[], rfl⟩
  | cons a acts ih =>
    obtain ⟨u, e₁, e₂, hs, hrest, rfl⟩ := Machine.run_cons.mp hr
    obtain ⟨h, hh⟩ := ih hrest
    refine ⟨eventsOf w a e₁ ++ h, Machine.run_cons.mpr ⟨u, eventsOf w a e₁, h, ?_, hh, rfl⟩⟩
    simp [told, hs]

/-- What every move keeps of a watch and of what happened to its processes, a run keeps. -/
theorem told_invariant {P : Watch → List Event → Prop} (hstart : P empty [])
    (hmove : ∀ u h a v e, Sound u → P u h → Move u a v e → P v (h ++ eventsOf u a e))
    (hr : Machine.run told empty acts = some (w, h)) : Sound w ∧ P w h := by
  refine Machine.run_invariant (P := fun u _ h => Sound u ∧ P u h) ⟨empty_sound, hstart⟩ ?_ hr
  rintro acts u h a v h' _ ⟨hu, hp⟩ hstep
  obtain ⟨e, hs, rfl⟩ := told_step hstep
  have hm := step_move hu hs
  exact ⟨hu.move hm, hmove u h a v e hu hp hm⟩

theorem Sound.silent (hs : Sound w) (hnobody : w.tasks = []) : w.published = [] := by
  refine List.eq_nil_iff_forall_not_mem.mpr ?_
  intro pid hm
  obtain ⟨r, hr⟩ := (hs.ended pid).mp hm
  rw [hnobody, PidMap.find?_nil] at hr
  cases hr

/-- Those that come into the queue leave it in order or are still in it. -/
theorem move_order (hs : Sound w) (hm : Move w a v e) :
    (eventsOf w a e).filterMap Event.reported? ++ v.published =
      w.published ++ (eventsOf w a e).filterMap Event.published? := by
  cases hm with
  | refuses pid thread tracked => simp [eventsOf]
  | lacksThread pid f fresh => simp [eventsOf]
  | adds pid fresh => exact (List.append_nil _).symm
  | settles pid r due => exact (List.append_nil _).symm
  | publishes pid r due => rfl
  | findsNobody _ waits nobody => simp [failed, eventsOf_wait waits, hs.silent nobody]
  | givesUp tracked silent => simp [eventsOf, silent]
  | takes _ pid published r waits next due =>
    simp [eventsOf_wait waits, next, Event.reported?, Event.published?]

/-- What happened to a process are rounds of its own, the last of them open as long as it is
tracked. -/
def InRounds (w : Watch) (h : List Event) (pid : Pid) : Prop :=
  ∃ rounds : List (Except Failure Termination),
    about pid h = rounds.flatMap (round pid) ++ openRound pid (PidMap.find? pid w.tasks)

/-- A move that says nothing of a process and leaves its task alone. -/
theorem InRounds.other {more : List Event} (hr : InRounds w h pid) (hmore : about pid more = [])
    (htask : PidMap.find? pid v.tasks = PidMap.find? pid w.tasks) : InRounds v (h ++ more) pid := by
  obtain ⟨rounds, hrounds⟩ := hr
  exact ⟨rounds, by rw [about_append, hmore, List.append_nil, hrounds, htask]⟩

/-- A move that goes on with the open round of a process. -/
theorem InRounds.goOn {more : List Event} {before after : Option Task} (hr : InRounds w h pid)
    (hbefore : PidMap.find? pid w.tasks = before) (hafter : PidMap.find? pid v.tasks = after)
    (hmore : openRound pid after = openRound pid before ++ about pid more) :
    InRounds v (h ++ more) pid := by
  obtain ⟨rounds, hrounds⟩ := hr
  refine ⟨rounds, ?_⟩
  rw [about_append, hrounds, hbefore, hafter, hmore, List.append_assoc]

/-- A move that closes it. -/
theorem InRounds.close {more : List Event} {before : Option Task} (hr : InRounds w h pid)
    (hbefore : PidMap.find? pid w.tasks = before) (hafter : PidMap.find? pid v.tasks = none)
    (r : Except Failure Termination) (hmore : openRound pid before ++ about pid more = round pid r) :
    InRounds v (h ++ more) pid := by
  obtain ⟨rounds, hrounds⟩ := hr
  refine ⟨rounds ++ [r], ?_⟩
  rw [about_append, hrounds, hbefore, hafter, List.append_assoc, hmore]
  simp [openRound]

theorem openRound_settled (pid : Pid) (r : Result Termination) :
    openRound pid (some (.settled r)) = [.registered pid, .settled pid r] := by
  rcases r with (f | p) | t <;> rfl

theorem InRounds.move (hr : InRounds w h pid) (hs : Sound w) (hm : Move w a v e) :
    InRounds v (h ++ eventsOf w a e) pid := by
  cases hm with
  | refuses q thread tracked => exact hr.other (by simp [eventsOf]) rfl
  | lacksThread q f fresh => exact hr.other (by simp [eventsOf]) rfl
  | adds q fresh =>
    by_cases hq : q = pid
    · subst hq
      refine hr.goOn (PidMap.contains_eq_false_iff.mp fresh) (PidMap.find?_insert ..) ?_
      simp [openRound, eventsOf, about, Event.pid]
    · refine hr.other (about_other hq) ?_
      rw [PidMap.find?_insert, if_neg (Ne.symm hq)]
  | settles q r due =>
    by_cases hq : q = pid
    · subst hq
      refine hr.goOn due (PidMap.find?_insert ..) ?_
      rw [if_pos rfl, openRound_settled]
      simp [openRound, eventsOf, about, Event.pid]
    · refine hr.other (about_other hq) ?_
      rw [PidMap.find?_insert, if_neg (Ne.symm hq)]
  | publishes q r due =>
    by_cases hq : q = pid
    · subst hq
      refine hr.goOn due (PidMap.find?_insert ..) ?_
      simp [openRound, eventsOf, about, Event.pid]
    · refine hr.other (about_other hq) ?_
      rw [PidMap.find?_insert, if_neg (Ne.symm hq)]
  | findsNobody _ waits nobody =>
    exact hr.other (by simp [failed, eventsOf_wait waits, hs.silent nobody]) rfl
  | givesUp tracked silent => exact hr.other (by simp [eventsOf, silent]) rfl
  | takes _ q published r waits next due =>
    have hevents : eventsOf w a [.returned (reportOf q r)] = [.reported q (reportOf q r)] := by
      simp [eventsOf_wait waits, next]
    rw [hevents]
    by_cases hq : q = pid
    · subst hq
      refine hr.close due (by simp [PidMap.find?_erase]) r ?_
      simp [openRound, round, about, Event.pid]
    · refine hr.other (about_other hq) ?_
      rw [PidMap.find?_erase, if_neg (Ne.symm hq)]

/-- No wait comes back with a process that nobody tracks. -/
theorem move_tracked (hm : Move w a v e) (pid : Pid) : failed (.untracked pid) ∉ e := by
  cases hm with
  | findsNobody _ waits nobody => simp [failed, Failure.ofCause]
  | takes _ q published r waits next due =>
    cases r <;> simp [failed, reportOf, Failure.ofCause, Failure.within]
  | _ => simp [failed]

/-- What waits give that take everything published, in the order in which it was. -/
def Drains (w : Watch) : Prop :=
  ∃ (u : Watch) (results : List (Except Failure Termination)),
    w.published.map (fun pid => PidMap.find? pid w.tasks) = results.map (fun r => some (.ended r)) ∧
    run w (List.replicate w.published.length .wait) =
      some (u, List.zipWith (fun pid r => .returned (reportOf pid r)) w.published results) ∧
    u.published = [] ∧
    ∀ q, PidMap.find? q u.tasks = if q ∈ w.published then none else PidMap.find? q w.tasks

theorem Sound.drains (hs : Sound w) : Drains w := by
  -- By induction on the queue, for every watch that has it.
  generalize hq : w.published = queue
  induction queue generalizing w with
  | nil => exact ⟨w, [], by simp [hq], by rw [hq]; rfl, hq, by simp [hq]⟩
  | cons pid published ih =>
    obtain ⟨r, hr⟩ := (hs.ended pid).mp (by rw [hq]; exact List.mem_cons_self)
    obtain ⟨u, results, hresults, hrun, hsilent, htasks⟩ := ih (hs.take hq) rfl
    have honce := hs.once
    rw [hq, List.nodup_cons] at honce
    refine ⟨u, r :: results, ?_, ?_, hsilent, ?_⟩
    · have hkept : published.map (fun q => PidMap.find? q (PidMap.erase pid w.tasks)) =
          published.map (fun q => PidMap.find? q w.tasks) := by
        refine List.map_congr_left ?_
        intro q hm
        have hother : q ≠ pid := by
          rintro rfl
          exact honce.1 hm
        rw [PidMap.find?_erase, if_neg hother]
      rw [hq, List.map_cons, List.map_cons, hr, ← hkept]
      exact congrArg _ hresults
    · rw [hq]
      exact Machine.run_cons.mpr ⟨_, _, _, step_takes rfl hq hr, hrun, rfl⟩
    · intro q
      rw [htasks, PidMap.find?_erase, hq]
      by_cases hpid : q = pid <;> simp [hpid]

/-- What a watch is at a point, and what came to pass with its processes until then. -/
structure Punctual (w : Watch) (h : List Event) : Prop where
  /-- The queue has those whose tasks have ended and that no wait has taken. -/
  queue : ∀ pid, pid ∈ w.published ↔ ∃ r, PidMap.find? pid w.tasks = some (.ended r)
  once : w.published.Nodup
  order : h.filterMap Event.reported? ++ w.published = h.filterMap Event.published?
  rounds : ∀ pid, InRounds w h pid
  /-- A wait takes the oldest and says what its own task came to. -/
  taken : ∀ a pid rest, a.waits = true → w.published = pid :: rest →
    ∃ r, PidMap.find? pid w.tasks = some (.ended r) ∧
      step w a = some (⟨PidMap.erase pid w.tasks, rest⟩, [.returned (reportOf pid r)])
  /-- It waits as long as there is none, unless its time is up or there is nobody to wait for. -/
  silent : w.published = [] → w.tasks ≠ [] →
    step w .wait = none ∧ step w .waitTimed = some (w, [.returned (.ok none)])
  nobody : w.tasks = [] → ∀ a, a.waits = true → step w a = some (w, [failed .nothingMonitored])
  /-- Those that have ended are reported by as many waits. -/
  drained : Drains w
  duplicate : ∀ pid thread, w.contains pid = true →
    step w (.add pid thread) = some (w, [.refused (.ofCause (.duplicateTarget pid))])
  fresh : ∀ pid, w.contains pid = false → step w (.add pid (.ok ())) =
    some ({ w with tasks := PidMap.insert pid .awaiting w.tasks }, [.added pid])

theorem Sound.punctual (hs : Sound w) (horder : h.filterMap Event.reported? ++ w.published =
    h.filterMap Event.published?) (hrounds : ∀ pid, InRounds w h pid) : Punctual w h := by
  refine ⟨hs.ended, hs.once, horder, hrounds, ?_, ?_, ?_, hs.drains, ?_, ?_⟩
  · intro a pid rest ha hnext
    obtain ⟨r, hr⟩ := (hs.ended pid).mp (by rw [hnext]; exact List.mem_cons_self)
    exact ⟨r, hr, step_takes ha hnext hr⟩
  · intro hsilent htracked
    simp [Watch.step, Watch.take, hsilent, htracked]
  · intro hnobody a ha
    cases a with
    | wait | waitTimed => simp [Watch.step, Watch.take, hnobody]
    | add | settle | publish => cases ha
  · intro pid thread htracked
    simp [Watch.step, htracked]
  · intro pid hfresh
    simp [Watch.step, hfresh]

/-- Whatever order the tasks end in, and whatever they come to. -/
theorem registrations_reported_once (hr : run empty acts = some (w, e)) :
    (∀ pid, failed (.untracked pid) ∉ e) ∧
      ∃ h, Machine.run told empty acts = some (w, h) ∧ Punctual w h := by
  refine ⟨?_, ?_⟩
  · intro pid
    refine (Machine.run_invariant (P := fun u _ e => Sound u ∧ failed (.untracked pid) ∉ e)
      ⟨empty_sound, by simp⟩ ?_ hr).2
    rintro acts u e a v e' _ ⟨hu, hsofar⟩ hstep
    have hm := step_move hu hstep
    refine ⟨hu.move hm, ?_⟩
    simp [hsofar, move_tracked hm pid]
  · obtain ⟨h, hh⟩ := run_told hr
    have hinv := told_invariant (P := fun u h =>
      h.filterMap Event.reported? ++ u.published = h.filterMap Event.published? ∧
        ∀ pid, InRounds u h pid) ⟨rfl, fun pid => ⟨[], rfl⟩⟩ ?_ hh
    · obtain ⟨hs, horder, hrounds⟩ := hinv
      exact ⟨h, hh, hs.punctual horder hrounds⟩
    · rintro u h a v e hu ⟨horder, hrounds⟩ hm
      refine ⟨?_, fun pid => (hrounds pid).move hu hm⟩
      calc (h ++ eventsOf u a e).filterMap Event.reported? ++ v.published
          = h.filterMap Event.reported? ++
              ((eventsOf u a e).filterMap Event.reported? ++ v.published) := by
            rw [List.filterMap_append, List.append_assoc]
        _ = (h.filterMap Event.reported? ++ u.published) ++
              (eventsOf u a e).filterMap Event.published? := by
            rw [move_order hu hm, List.append_assoc]
        _ = (h ++ eventsOf u a e).filterMap Event.published? := by
            rw [horder, List.filterMap_append]

/-- The second process ends first, and is tracked again while the end of the first waits to be taken. -/
theorem registrations_reported_again :
    let lost : Failure := .ofCause (.waitFailed 1 .noChild)
    let acts : List Action :=
      [.add 1, .add 2, .add 1, .settle 2 (.ok (.exited 0)), .settle 1 (.error (.failed lost)),
        .publish 2, .publish 1, .wait, .add 2, .wait, .waitTimed, .settle 2 (.ok (.exited 3)),
        .publish 2, .wait]
    let entries : List Entry :=
      [.added 1, .added 2, .refused (.ofCause (.duplicateTarget 1)),
        .returned (.ok (some (2, .exited 0))), .added 2,
        .returned (.error (lost.within (.collecting 1))), .returned (.ok none),
        .returned (.ok (some (2, .exited 3)))]
    run empty acts = some (empty, entries) ∧ (∀ pid, failed (.untracked pid) ∉ entries) ∧
      ∃ h, Machine.run told empty acts = some (empty, h) ∧ Punctual empty h := by
  intro lost acts entries
  have hrun : run empty acts = some (empty, entries) := rfl
  exact ⟨hrun, registrations_reported_once hrun⟩

end Corun.Watch
