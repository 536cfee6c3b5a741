import Corun.Proofs.Child.Gating
import Corun.Proofs.Run.Awaiting
import Corun.Proofs.Run.Cleanup
import Corun.Proofs.Run.Stopping
import Corun.Strategy.Script

namespace Corun.Run
open Os Child

variable {σ : Type} [Strategy σ] {r r' : Run σ} {a : Action} {e lines : List Entry} {k i : Nat}
  {c : Call} {g g' : Gated} {p : Position} {v : Supervisor σ} {ve : List Supervisor.Entry}
  {acts later : List Action} {pid : Pid} {w w' : Watch} {we : List Watch.Entry} {q : Panic}

/-- A child is at its gate, and the task that tracks it awaits it. -/
structure Waits (w : Watch) (g : Gated) : Prop where
  gated : g.phase = .ready
  tracked : ∃ pid, g.pid? = some pid ∧ PidMap.find? pid w.tasks = some .awaiting
  inside : (g.pending? watcher).isSome = true

theorem Waits.publish (h : Waits w g) (took : w.step (.publish pid) = some (w', we)) : Waits w' g := by
  obtain ⟨own, hown, hawaits⟩ := h.tracked
  refine ⟨h.gated, ⟨own, hown, ?_⟩, h.inside⟩
  simp only [Watch.step] at took
  split at took
  · rename_i x hpublishing
    cases took
    rw [PidMap.find?_insert]
    split
    · rename_i hsame
      rw [hsame, hpublishing] at hawaits
      cases hawaits
    · exact hawaits
  · cases took

/-- A pid that the watch accepts is awaited from then on. -/
theorem accepted_eq {thread : Except Failure Unit} (took : w.step (.add pid thread) = some (w', we))
    (accepted : refusal? we = none) :
    w' = { w with tasks := PidMap.insert pid .awaiting w.tasks } := by
  simp only [Watch.step] at took
  split at took
  · cases took
    cases accepted
  · cases thread with
    | ok u =>
      cases took
      rfl
    | error f =>
      cases took
      cases accepted

theorem Waits.add (h : Waits w g) (pid : Pid) :
    Waits { w with tasks := PidMap.insert pid .awaiting w.tasks } g := by
  obtain ⟨own, hown, hawaits⟩ := h.tracked
  refine ⟨h.gated, ⟨own, hown, ?_⟩, h.inside⟩
  rw [PidMap.find?_insert]
  split
  · rfl
  · exact hawaits

theorem background_callsUnchanged {ga : Gated.Action} {ge : List Gated.Entry}
    (ht : g.Tended manager)
    (hready : g.phase = .ready) (ha : isBackground ga = true) (h : g.step ga = some (g', ge)) :
    g.CallsUnchanged g' ge := by
  cases ga with
  | advance t => exact Gated.advance_callsUnchanged ht (by simpa [isBackground] using ha) hready h
  | bell b => exact Gated.bell_callsUnchanged h
  | resume j => exact Gated.resume_callsUnchanged h
  | child m => exact Gated.move_callsUnchanged h
  | call | receive | refuse | seize => cases ha

/-- No child has left its gate, and all of them are awaited but for one that is still to be enlisted. -/
structure AllGated (r : Run σ) : Prop where
  gated : ∀ (i : Nat) (g : Gated), r.children[i]? = some g → g.phase = .ready
  waits : ∀ (i : Nat) (g : Gated), r.children[i]? = some g →
    r.position = .enlisting i ∨ Waits r.watch g

omit [Strategy σ] in
theorem AllGated.same {u : Run σ} (hh : AllGated r) (hchildren : u.children = r.children)
    (hwatch : u.watch = r.watch) (hhere : ∀ i, r.position ≠ .enlisting i) : AllGated u := by
  refine ⟨?_, ?_⟩
  · rw [hchildren]
    exact hh.gated
  · rw [hchildren, hwatch]
    exact fun i g hi => .inr ((hh.waits i g hi).resolve_left (hhere i))

/-- Beside the manager nothing gets a child away from its gate, or its task to the end. -/
theorem AllGated.backgroundStep (hh : AllGated r) (hm : Manned r) (h : Move r a r' e)
    (ha : a ≠ .manage) :
    AllGated r' := by
  cases h with
  | childMoves k ga g g' ge w background there took hears =>
    have ht := hm.tended k g there
    have hready := hh.gated k g there
    have hquiet := background_callsUnchanged ht hready background took
    have hbackground := background_backgroundStep ht background took
    have hready' : g'.phase = .ready := by
      rcases hbackground.phase with hphase | ⟨-, hleft, -⟩
      · exact hphase.trans hready
      · exact absurd hready hleft
    have hlt := (List.getElem?_eq_some_iff.mp there).1
    have hwatch : w = r.watch := by
      cases hears with
      | nothing => rfl
      | settles res pid w' we back => exact absurd ((hquiet.silent watcher).symm.trans back) (by simp)
    subst hwatch
    refine ⟨?_, ?_⟩
    · intro i x hi
      by_cases hik : k = i
      · subst hik
        cases (List.getElem?_set_self hlt).symm.trans hi
        exact hready'
      · exact hh.gated i x ((List.getElem?_set_ne hik).symm.trans hi)
    · intro i x hi
      by_cases hik : k = i
      · subst hik
        cases (List.getElem?_set_self hlt).symm.trans hi
        refine (hh.waits k g there).imp_right fun hw => ⟨hready', ?_, hquiet.inside _ hw.inside⟩
        rw [hbackground.later.pid]
        exact hw.tracked
      · exact hh.waits i x ((List.getElem?_set_ne hik).symm.trans hi)
  | publishes pid w we took =>
    exact ⟨hh.gated, fun i g hi => (hh.waits i g hi).imp_right fun hw => hw.publish took⟩
  | works | alarmMoves => exact ⟨hh.gated, hh.waits⟩
  | _ => exact absurd rfl ha

theorem Jump.unenlisted (h : Jump r p lines) : ∀ i, r.position ≠ .enlisting i := by
  cases h <;> simp [*]

omit [Strategy σ] in
theorem dueCall?_unenlisted {va : Supervisor.Action} (hdue : r.dueCall? = some va) (i : Nat) :
    r.position ≠ .enlisting i := by
  rcases dueCall?_cases hdue with here | here | here | ⟨_, here⟩ | ⟨_, _, here⟩ <;> simp [here]

omit [Strategy σ] in
/-- A child that is enlisted stays at its gate, and a task begins to await it. -/
theorem AllGated.enlists {thread : Except Failure Unit} {ge : List Gated.Entry} {u : Run σ}
    (hh : AllGated r) (hm : Manned r) (here : r.position = .enlisting k)
    (there : r.children[k]? = some g)
    (named : g.pid? = some pid) (took : r.watch.step (.add pid thread) = some (w, we))
    (accepted : refusal? we = none) (awaits : g.step (.call watcher .await) = some (g', ge))
    (hchildren : u.children = r.children.set k g') (hwatch : u.watch = w) : AllGated u := by
  have hready := hh.gated k g there
  have hlt := (List.getElem?_eq_some_iff.mp there).1
  obtain rfl := accepted_eq took accepted
  have hbackground := Gated.await_backgroundStep (hm.tended k g there) (by decide) awaits
  have hready' : g'.phase = .ready := by
    rcases hbackground.phase with hphase | ⟨-, hleft, -⟩
    · exact hphase.trans hready
    · exact absurd hready hleft
  refine ⟨?_, ?_⟩
  · rw [hchildren]
    intro i x hi
    by_cases hik : k = i
    · subst hik
      cases (List.getElem?_set_self hlt).symm.trans hi
      exact hready'
    · exact hh.gated i x ((List.getElem?_set_ne hik).symm.trans hi)
  · rw [hchildren, hwatch]
    intro i x hi
    by_cases hik : k = i
    · subst hik
      cases (List.getElem?_set_self hlt).symm.trans hi
      refine .inr ⟨hready', ⟨pid, hbackground.later.pid.trans named, ?_⟩, Gated.await_inside awaits⟩
      rw [PidMap.find?_insert, if_pos rfl]
    · have hi' := (List.getElem?_set_ne hik).symm.trans hi
      refine .inr (((hh.waits i x hi').resolve_left ?_).add pid)
      rw [here]
      exact fun h => hik (Position.enlisting.inj h)

/-- Before the children are started the manager takes none of them from its gate. -/
theorem AllGated.manage (hh : AllGated r) (hm : Manned r) (h : Move r .manage r' e)
    (hshut : r.position.isShut = true) (hnext : r'.position.isShut = true ∨ r.position = .preparing) :
    AllGated r' := by
  have hpast : ∀ {p}, r.position = p → 2 ≤ p.phase → False := by
    rintro p rfl hp
    have hle : r.position.phase ≤ 1 := of_decide_eq_true hshut
    omega
  cases h with
  | jumps p lines leads => exact hh.same rfl rfl leads.unenlisted
  | supervises va v ve due | supervised va v ve res due =>
    exact hh.same rfl rfl (dueCall?_unenlisted due)
  | creates k b pid here next forked =>
    have hcounted : r.children.length = k := hm.counted_at here
    have hnewcomer : ∀ i x, (r.children ++ [born b r.killMode pid])[i]? = some x →
        r.children[i]? = some x ∨ i = k ∧ x = born b r.killMode pid := by
      intro i x hi
      rw [List.getElem?_append] at hi
      split at hi
      · exact .inl hi
      · rename_i hge
        have hlt := (List.getElem?_eq_some_iff.mp hi).1
        simp only [List.length_singleton] at hlt
        obtain rfl : i = r.children.length := by omega
        rw [Nat.sub_self] at hi
        cases hi
        exact .inr ⟨hcounted, rfl⟩
    refine ⟨?_, ?_⟩
    · intro i x hi
      rcases hnewcomer i x hi with hbefore | ⟨-, rfl⟩
      · exact hh.gated i x hbefore
      · rfl
    · intro i x hi
      rcases hnewcomer i x hi with hbefore | ⟨rfl, -⟩
      · exact .inr ((hh.waits i x hbefore).resolve_left (by simp [here]))
      · exact .inl rfl
  | enlists k g g' pid w we ge here there named took accepted awaits =>
    exact hh.enlists hm here there named took accepted awaits rfl rfl
  | createFails k b f here | enlistFails k f here =>
    rcases hnext with hnext | hnext
    · cases hnext
    · exact absurd (here.symm.trans hnext) (by simp)
  | drives k c g g' ge p lines there took leads =>
    generalize Gated.returned? manager ge = res at leads
    cases leads with
    | startGoesOn here | started _ here | startStops _ _ here | killGoesOn _ here | killed _ _ _ here
    | releaseGoesOn _ _ _ here | released _ _ here => exact (hpast here (by simp [Position.phase])).elim
  | arms here | polls _ _ _ _ here | disarms _ _ _ _ here | disarmed _ here | drains _ _ here =>
    exact (hpast here (by simp [Position.phase])).elim
  | ends p lines leads =>
    cases leads with
    | closes _ here | aborts _ _ here | dismisses _ here =>
      exact (hpast here (by simp [Position.phase])).elim

theorem Fresh.allGated (hf : Fresh r) (h : run r acts = some (r', e))
    (hshut : r'.position.isShut = true) :
    AllGated r' := by
  refine hf.run_moves (P := fun u _ _ => u.position.isShut = true → AllGated u) ?_ ?_ h hshut
  · intro _
    refine ⟨?_, ?_⟩ <;> simp [hf.children]
  · intro acts u e a w e' _ hm _ hsofar hmoved hshut
    have hbefore := hmoved.shut hshut
    by_cases ha : a = .manage
    · subst ha
      exact (hsofar hbefore).manage hm hmoved hbefore (.inl hshut)
    · exact (hsofar hbefore).backgroundStep hm hmoved ha

/-- The handler of an announcement that prepare is about to hand out, or the hook of prepare, panics. -/
def PreparingPanics (r : Run σ) (q : Panic) : Prop :=
  r.position = .preparing ∧ r.supervisor.preparing = true ∧ ∃ s, r.supervisor.strategy = some s ∧
    ((∃ x inbox, r.supervisor.inbox = x :: inbox ∧
        (Strategy.handle x s).result = .error (.panicked q)) ∨
      r.supervisor.inbox = [] ∧ (Strategy.prepare s).result = .error (.panicked q))

/-- The manager waits for tasks each of which waits for the manager. -/
structure Stranded (r : Run σ) (q : Panic) : Prop where
  unwinding : r.position = .draining (.unwound q)
  somebody : r.children ≠ []
  waits : ∀ (i : Nat) (g : Gated), r.children[i]? = some g → Waits r.watch g

theorem PreparingPanics.unwinds (hp : PreparingPanics r q) (hs : Stationed r)
    (h : Move r .manage r' e) : r'.position = .draining (.unwound q) := by
  obtain ⟨here, hin, s, held, hpanics⟩ := hp
  have hdue : r.dueCall? = some .deliver := by simp [dueCall?, here, hin]
  obtain ⟨ve, hc, rfl⟩ := hs.asked hdue h
  generalize r'.supervisor = v at hc
  generalize r'.position = p at hc
  cases hc with
  | prepares here idle => exact absurd (hin.symm.trans idle) (by simp)
  | delivers s' x inbox _ _ held' next passed =>
    cases held.symm.trans held'
    rcases hpanics with ⟨y, rest, hi, hr⟩ | ⟨hi, -⟩
    · cases hi.symm.trans next
      exact absurd ((Supervisor.dispatch_error_iff.mpr hr).symm.trans passed) (by simp)
    · exact absurd (hi.symm.trans next) (by simp)
  | deliveryStops s' x inbox stop _ _ held' next stopped =>
    cases held.symm.trans held'
    rcases hpanics with ⟨y, rest, hi, hr⟩ | ⟨hi, -⟩
    · cases hi.symm.trans next
      cases (Supervisor.dispatch_error_iff.mpr hr).symm.trans stopped
      rfl
    · exact absurd (hi.symm.trans next) (by simp)
  | prepared s' _ _ held' empty =>
    cases held.symm.trans held'
    rcases hpanics with ⟨y, rest, hi, -⟩ | ⟨-, hr⟩
    · exact absurd (hi.symm.trans empty) (by simp)
    · rw [hr]
      rfl
  | setsUp _ here' | starts _ here' | startStops _ _ here' | joins _ _ _ here'
  | joinsPanicked _ here' | finalizes _ _ _ here' | finalizesNone _ _ here' =>
    exact absurd (here.symm.trans here') (by simp)

/-- Only such a panic leads from preparing to where the manager waits for the watch. -/
theorem Consult.panics {f : Ending} (h : Consult r v ve p) (here : r.position = .preparing)
    (hp : p = .draining f) : ∃ q, PreparingPanics r q := by
  cases h with
  | deliveryStops s x inbox stop _ inside held next stopped =>
    cases stop with
    | failed f => cases hp
    | panicked q =>
      exact ⟨q, here, inside, s, held, .inl ⟨x, inbox, next, Supervisor.dispatch_error_iff.mp stopped⟩⟩
  | prepared s _ inside held empty =>
    rcases hr : (Strategy.prepare s).result with (f | q) | u
    · rw [hr] at hp
      cases hp
    · exact ⟨q, here, inside, s, held, .inr ⟨empty, hr⟩⟩
    · rw [hr] at hp
      cases hp
  | prepares | delivers => cases hp
  | setsUp _ here' | starts _ here' | startStops _ _ here' | joins _ _ _ here'
  | joinsPanicked _ here' | finalizes _ _ _ here' | finalizesNone _ _ here' =>
    exact absurd (here.symm.trans here') (by simp)

theorem Fresh.strands {e' : List Entry} (hf : Fresh r) (h : run r acts = some (r', e))
    (hp : PreparingPanics r' q) {u : Run σ} (hmoved : Move r' .manage u e') : Stranded u q := by
  have hm := hf.manned.run h
  have hs := hf.stationed.run h
  have here := hp.1
  have hshut : r'.position.isShut = true := by simp [here, Position.isShut, Position.phase]
  have hheld := (hf.allGated h hshut).manage hm hmoved hshut (.inr here)
  have hunwinds := hp.unwinds hs hmoved
  refine ⟨hunwinds, ?_, fun i g hi => (hheld.waits i g hi).resolve_left (by simp [hunwinds])⟩
  have hsome : r'.benchmarks ≠ [] := by
    simpa [here] using (hf.tracking h (by simp [here, Position.isWatching, Position.phase])).somebody
  have hcounted : r'.children.length = r'.benchmarks.length := hm.counted_at here
  have hgrows := hmoved.grows
  refine List.ne_nil_of_length_pos ?_
  have := List.length_pos_iff.mpr hsome
  omega

omit [Strategy σ] in
theorem Stranded.held (hs : Stranded r q) : AllGated r :=
  ⟨fun i g hi => (hs.waits i g hi).gated, fun i g hi => .inr (hs.waits i g hi)⟩

/-- The manager goes no further, because a task that it waits for awaits a child at its gate. -/
theorem Stranded.stuck (hs : Stranded r q) : step r .manage = none := by
  have hopen : (r.watch.tasks.all fun t => t.2.isOver) = false := by
    obtain ⟨g, hg⟩ := List.exists_mem_of_ne_nil _ hs.somebody
    obtain ⟨i, hi⟩ := List.mem_iff_getElem?.mp hg
    obtain ⟨pid, -, hawaits⟩ := (hs.waits i g hi).tracked
    refine List.all_eq_false.mpr ⟨_, PidMap.mem_of_find? hawaits, by simp [Watch.Task.isOver]⟩
  simp only [step, manage, hs.unwinding, drain, hopen]
  rfl

theorem Move.backgroundStep_children (h : Move r a r' e) (ha : a ≠ .manage) :
    r'.position = r.position ∧ r'.children.length = r.children.length := by
  cases h with
  | childMoves => exact ⟨rfl, List.length_set⟩
  | publishes | works | alarmMoves => exact ⟨rfl, rfl⟩
  | _ => exact absurd rfl ha

theorem Stranded.step (hs : Stranded r q) (hm : Manned r) (h : step r a = some (r', e)) :
    Stranded r' q := by
  have ha : a ≠ .manage := by
    rintro rfl
    cases hs.stuck.symm.trans h
  have hmoved := step_move h
  obtain ⟨hposition, hlength⟩ := hmoved.backgroundStep_children ha
  have hunwinding := hposition.trans hs.unwinding
  have hheld := hs.held.backgroundStep hm hmoved ha
  refine ⟨hunwinding, ?_, fun i g hi => (hheld.waits i g hi).resolve_left (by simp [hunwinding])⟩
  intro hnobody
  rw [hnobody] at hlength
  exact hs.somebody (List.length_eq_zero_iff.mp hlength.symm)

theorem Stranded.run (hs : Stranded r q) (hm : Manned r) (h : run r acts = some (r', e)) :
    Stranded r' q := by
  have hinv : Manned r' ∧ Stranded r' q := by
    refine Machine.run_invariant (P := fun u _ _ => Manned u ∧ Stranded u q) ⟨hm, hs⟩ ?_ h
    intro acts u e a w e' _ hu hstep
    exact ⟨hu.1.move (step_move hstep), hu.2.step hu.1 hstep⟩
  exact hinv.2

/-- From such a panic on, whatever happens. -/
theorem Fresh.stranded (hf : Fresh r) (h : run r (acts ++ .manage :: later) = some (r', e))
    {u : Run σ} {e₁ : List Entry} (hu : run r acts = some (u, e₁)) (hp : PreparingPanics u q) :
    Stranded r' q := by
  obtain ⟨u', f₁, f₂, hu', hrest, rfl⟩ := Machine.run_append.mp h
  cases hu.symm.trans hu'
  obtain ⟨w, g₁, g₂, hw, hlast, rfl⟩ := Machine.run_cons.mp hrest
  have hmoved := step_move hw
  exact (hf.strands hu hp hmoved).run ((hf.manned.run hu).move hmoved) hlast

/-- Whether a child must have left its gate. -/
def Position.HasReleased (i : Nat) : Position → Prop
  | starting k | killing k _ => i < k
  | launching | arming | polling | checkingLimit | checkingSupervisor | disarming _ | closing _
  | joining _ | finalizing .. | draining _ | releasing .. | dismissing _ | returned _ => True
  | entering | settingUp | creating _ | enlisting _ | preparing | aborting _ | cleaning _ => False

theorem ChildStep.unready {ge : List Gated.Entry} (h : ChildStep g g' ge) (hp : g.phase ≠ .ready) :
    g'.phase ≠ .ready := by
  cases h with
  | rests => exact hp
  | ownerStep c _ _ step => exact step.unready hp
  | backgroundStep _ _ step => exact step.unready hp

theorem ChildStep.departs {ge : List Gated.Entry} (h : ChildStep g g' ge)
    (hd : g.StartedFromGate manager) :
    g'.StartedFromGate manager := by
  cases h with
  | rests => exact hd
  | ownerStep c _ _ step => exact step.departs hd
  | backgroundStep _ _ step => exact step.departs hd

theorem run_startedFromGate (hf : Fresh r) (h : run r acts = some (r', e))
    (hk : r'.children[k]? = some g) :
    g.StartedFromGate manager := by
  refine children_run (P := fun g _ => g.StartedFromGate manager) hf ?_
    (fun _ _ _ _ _ hd hchild => hchild.departs hd) h k g hk
  intro b pid s hs
  cases (born_idle b r.killMode pid manager).symm.trans hs

theorem Jump.hasReleased (hm : Manned r) (h : Jump r p lines) (hi : i < r.children.length)
    (hp : p.HasReleased i) : r.position.HasReleased i := by
  cases h with
  | lacksBenchmarks here =>
    have hcounted : r.children.length = 0 := hm.counted_at here
    omega
  | allStarted k here past =>
    have hcounted : r.children.length = r.benchmarks.length := hm.counted_at here
    rw [here]
    change i < k
    rcases past with past | past <;> have hle := List.getElem?_eq_none_iff.mp past <;> omega
  | allKilled k f here past =>
    have hle := List.getElem?_eq_none_iff.mp past
    rw [here]
    change i < k
    omega
  | cleans => exact absurd hp (Nat.not_lt_zero i)
  | enters | allCreated => exact hp.elim
  | unlimited here | unarmable _ here | limitReached _ here | limitAhead here | supervisorGone here
  | supervisorThere here | unarmed _ here | keeps _ _ _ here | allReleased _ _ here
  | concludes _ here =>
    rw [here]
    trivial

omit [Strategy σ] in
/-- A start or a kill that has come back has let its child go. -/
theorem Drive.hasReleased {ge : List Gated.Entry} {res : Option (Result Answer)} (hm : Manned r)
    (hk : r.children[k]? = some g) (h : Drive r g k c res p lines)
    (ht : Gated.OwnerStep manager g c g' ge)
    (hres : res = Gated.returned? manager ge) (hd : g.StartedFromGate manager)
    (hcalm : ∀ f, r.position = .starting k → p ≠ .draining f) (hp : p.HasReleased i) :
    r.position.HasReleased i ∨ i = k ∧ g'.phase ≠ .ready := by
  cases h with
  | startGoesOn here | killGoesOn _ here =>
    rw [here]
    exact .inl hp
  | started answer here =>
    change i < k + 1 at hp
    by_cases hik : i = k
    · exact .inr ⟨hik, ht.start_unready hd hres.symm⟩
    · rw [here]
      exact .inl (by change i < k; omega)
  | startStops stop stop' here =>
    cases stop' with
    | failed f => exact hp.elim
    | panicked q => exact absurd rfl (hcalm _ here)
  | killed f res lines here =>
    change i < k + 1 at hp
    by_cases hik : i = k
    · exact .inr ⟨hik, ht.kill_unready (hm.tended k g hk) (by simp [← hres])⟩
    · rw [here]
      exact .inl (by change i < k; omega)
  | releaseGoesOn f _ _ here | released f _ here =>
    rw [here]
    exact .inl trivial

/-- Starting the children never unwinds the manager. -/
theorem starting_calm (hm : Manned r) (here : r.position = .starting k)
    (h : step r .manage = some (r', e)) (f : Ending) : r'.position ≠ .draining f := by
  simp only [step, manage, here, startChild] at h
  split at h
  · rename_i g b hg hb
    obtain ⟨⟨u, ue, res⟩, hdrive, he⟩ := Option.map_eq_some_iff.mp h
    obtain ⟨g₁, g', ge, hg₁, hstep, rfl, rfl, hres⟩ := drive_eq hdrive
    cases hg.symm.trans hg₁
    rcases res with _ | (⟨f'⟩ | ⟨q⟩) | answer
    · cases he
      simp [here]
    · cases he
      simp
    · have howner : Gated.OwnerStep manager g .start g' ge :=
        hm.ownerStep hg (.startStops k (.panicked q) (.panicked q) here) hstep
      obtain ⟨f', hf'⟩ := howner.start_fails hres.symm
      cases hf'
    · cases he
      simp
  · cases h
    simp

omit [Strategy σ] in
theorem after_hasReleased {va : Supervisor.Action} (hm : Manned r) (hdue : r.dueCall? = some va)
    (res : Result Unit) (hcalm : ∀ f, r.position = .preparing → r.position.after res ≠ .draining f)
    (hi : i < r.children.length) (hp : (r.position.after res).HasReleased i) :
    r.position.HasReleased i := by
  rcases dueCall?_cases hdue with here | here | here | ⟨outcome, here⟩ | ⟨outcome, joined, here⟩
  · have hcounted : r.children.length = 0 := hm.counted_at here
    omega
  · rw [here] at hp hcalm
    rcases res with (f | q) | u
    · exact hp.elim
    · exact absurd rfl (hcalm _ rfl)
    · exact absurd hp (Nat.not_lt_zero i)
  all_goals
    rw [here]
    trivial

/-- A child has left its gate when the manager comes to wait for its task. -/
theorem Manned.hasReleased (hm : Manned r) (hs : Stationed r) (hstep : step r a = some (r', e))
    (hdeparts : ∀ (k : Nat) (g : Gated), r.children[k]? = some g → g.StartedFromGate manager)
    (hcalm : a = .manage → ∀ q, ¬ PreparingPanics r q) (hi : r'.children[i]? = some g')
    (hp : r'.position.HasReleased i) : r.position.HasReleased i ∨ g'.phase ≠ .ready := by
  have h := step_move hstep
  have hlt := (List.getElem?_eq_some_iff.mp hi).1
  cases h with
  | jumps p lines leads => exact .inl (leads.hasReleased hm hlt hp)
  | supervised va v ve res due took back =>
    refine .inl (after_hasReleased hm due res (fun f here hf => ?_) hlt hp)
    obtain ⟨q, hpanics⟩ := (hs.consulted due took back).panics here hf
    exact hcalm rfl q hpanics
  | drives k c g g'' ge p lines there took leads =>
    have howner := hm.ownerStep there leads took
    refine (leads.hasReleased hm there howner rfl (hdeparts k g there) ?_ hp).imp_right ?_
    · intro f here
      exact starting_calm hm here hstep f
    · rintro ⟨rfl, hunready⟩
      have hlt := (List.getElem?_eq_some_iff.mp there).1
      rw [goTo_children, List.getElem?_set_self hlt] at hi
      cases hi
      exact hunready
  | ends p lines leads =>
    cases leads with
    | closes _ here | dismisses _ here =>
      rw [here]
      exact .inl trivial
    | aborts => exact hp.elim
  | polls w we p lines here | disarmed _ here | arms here | drains _ _ here =>
    rw [here]
    exact .inl trivial
  | creates | createFails | enlists | enlistFails => exact hp.elim
  | supervises | disarms | childMoves | publishes | works | alarmMoves => exact .inl hp

/-- In some step of the manager a hook panics that lets the strategy prepare. -/
def PanicsIn (start : Run σ) (acts : List Action) : Prop :=
  ∃ before after u e q, acts = before ++ .manage :: after ∧ run start before = some (u, e) ∧
    PreparingPanics u q

theorem PanicsIn.more (h : PanicsIn r acts) : PanicsIn r (acts ++ [a]) := by
  obtain ⟨before, after, u, e, q, rfl, hu, hp⟩ := h
  exact ⟨before, after ++ [a], u, e, q, by simp, hu, hp⟩

theorem Fresh.hasReleased (hf : Fresh r) (h : run r acts = some (r', e)) (hcalm : ¬ PanicsIn r acts)
    (hi : r'.children[i]? = some g) (hp : r'.position.HasReleased i) : g.phase ≠ .ready := by
  have hinv : Run.run r acts = some (r', e) ∧ (¬ PanicsIn r acts → ∀ i g, r'.children[i]? = some g →
      r'.position.HasReleased i → g.phase ≠ .ready) := by
    refine Machine.run_invariant (P := fun u acts e => Run.run r acts = some (u, e) ∧
      (¬ PanicsIn r acts → ∀ i g, u.children[i]? = some g → u.position.HasReleased i →
        g.phase ≠ .ready))
      ⟨rfl, by simp [hf.children]⟩ ?_ h
    rintro acts u e a w e' hu ⟨-, hsofar⟩ hstep
    refine ⟨Machine.run_append.mpr ⟨u, e, e', hu, Machine.run_cons.mpr
      ⟨w, e', [], hstep, rfl, by simp⟩, rfl⟩, ?_⟩
    intro hcalm i g' hi hp
    have hm := hf.manned.run hu
    have hnow : a = .manage → ∀ q, ¬ PreparingPanics u q := by
      rintro rfl q hq
      exact hcalm ⟨acts, [], u, e, q, rfl, hu, hq⟩
    rcases hm.hasReleased (hf.stationed.run hu) hstep
      (fun k g hk => run_startedFromGate hf hu hk) hnow hi hp with
      hbefore | hunready
    · cases hg : u.children[i]? with
      | none =>
        obtain ⟨b, pid, hcreating, -⟩ := hm.newborn (step_move hstep) hg hi
        rw [hcreating] at hbefore
        exact hbefore.elim
      | some g =>
        obtain ⟨g₁, hg₁, hchild⟩ := hm.childStep (step_move hstep) hg
        cases hi.symm.trans hg₁
        exact hchild.unready (hsofar (fun hbefore => hcalm hbefore.more) i g hg hbefore)
    · exact hunready
  exact hinv.2 hcalm i g hi hp

/-- What becomes of a run when its manager is unwound while it launches the children, and when not. -/
structure Unwinding (start : Run σ) (acts : List Action) (r : Run σ) : Prop where
  /-- After a panic of a handler or of the hook of prepare the manager never goes any further: it waits
  for tasks that await children at their gates. -/
  stranded : ∀ before after u e q, acts = before ++ .manage :: after →
    run start before = some (u, e) → PreparingPanics u q → Stranded r q ∧ step r .manage = none
  /-- Without one, the manager never waits for a task that awaits a child at its gate. -/
  unblocked : ¬ PanicsIn start acts → ∀ f, r.position = .draining f →
    ∀ (k : Nat) (g : Gated), r.children[k]? = some g → g.phase ≠ .ready
  /-- A run that returns leaves no child behind. -/
  disposed : ∀ res, r.position = .returned res →
    ∀ (k : Nat) (g : Gated), r.children[k]? = some g → g.Disposed

/-- A manager that is unwound while it launches the children gets stuck, with all of them at their gates,
if a handler or the hook of prepare has panicked on it, and only then. -/
theorem launch_unwinds_unless_hook_panics {benchmarks : List Benchmark} {mode : KillMode}
    {hasLimit : Bool} {forks : Nat → Except Failure Pid} {strategy : σ} {spawn : Except Failure Unit}
    {watchers : Nat → Except Failure Unit} {timer : Except Failure Unit}
    (h : run (create benchmarks mode hasLimit forks strategy spawn watchers timer) acts = some (r, e)) :
    Unwinding (create benchmarks mode hasLimit forks strategy spawn watchers timer) acts r := by
  have hf := create_fresh benchmarks mode hasLimit forks strategy spawn watchers timer
  refine ⟨?_, ?_, ?_⟩
  · rintro before after u e₁ q rfl hu hp
    have hstranded := hf.stranded h hu hp
    exact ⟨hstranded, hstranded.stuck⟩
  · intro hcalm f here k g hk
    exact hf.hasReleased h hcalm hk (by rw [here]; trivial)
  · intro res here k g hk
    exact run_cleared hf h hk (by rw [here]; trivial)

/-- The hook of prepare fails, and does not panic: the child is killed at its gate, and the manager comes
to wait for its task. -/
theorem launch_unwinds_after_failure :
    let start : Run Strategy.Script := create [⟨0, "a", "/bin/a", []⟩] .single false
      (fun _ => .ok 100) { name := "script", preparing := .fails "no counters" }
    ∃ r e f, run start (List.replicate 14 .manage) = some (r, e) ∧ r.position = .draining f ∧
      Unwinding start (List.replicate 14 .manage) r := by
  intro start
  obtain ⟨r, e, f, hrun, hposition⟩ : ∃ r e f, run start (List.replicate 14 .manage) = some (r, e) ∧
      r.position = .draining f := ⟨_, _, _, rfl, rfl⟩
  exact ⟨r, e, f, hrun, hposition, launch_unwinds_unless_hook_panics hrun⟩

/-- The hook of prepare panics, and the run never returns: its child stays at its gate, and the task that
awaits it does not come back. -/
theorem panicking_hook_strands_run :
    let start : Run Strategy.Script := create [⟨0, "a", "/bin/a", []⟩] .single false
      (fun _ => .ok 100) { name := "script", preparing := .panics "no counters" }
    ∃ r e q, run start (List.replicate 8 .manage) = some (r, e) ∧
      r.children.length = 1 ∧
      ∀ acts r' e', run r acts = some (r', e') → Stranded r' q ∧ step r' .manage = none := by
  intro start
  have hf : Fresh start := create_fresh ..
  obtain ⟨u, e₁, q, hu, hp⟩ : ∃ u e₁ q, run start (List.replicate 7 .manage) = some (u, e₁) ∧
      PreparingPanics u q := ⟨_, _, _, rfl, rfl, rfl, _, rfl, .inr ⟨rfl, rfl⟩⟩
  obtain ⟨r, e, hrun, hone⟩ : ∃ r e, run start (List.replicate 8 .manage) = some (r, e) ∧
      r.children.length = 1 := ⟨_, _, rfl, rfl⟩
  have hstranded : Stranded r q := hf.stranded hrun hu hp
  refine ⟨r, e, q, hrun, hone, fun acts r' e' h => ?_⟩
  have hlater := hstranded.run (hf.manned.run hrun) h
  exact ⟨hlater, hlater.stuck⟩

end Corun.Run
