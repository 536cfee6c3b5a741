import Corun.Proofs.Run.Lives
import Corun.Strategy.Script

namespace Corun.Run
open Os Child

variable {σ : Type} [Strategy σ] {r r' : Run σ} {a : Action} {e lines : List Entry} {k i : Nat}
  {c : Call} {g g' : Gated} {p : Position} {acts : List Action} {pid : Pid}

theorem ChildStep.departureTold {seen ge : List Gated.Entry} (h : ChildStep g g' ge)
    (ht : g.Tended manager)
    (hs : g.DepartureTold manager seen) : g'.DepartureTold manager (seen ++ ge) := by
  cases h with
  | rests => rwa [List.append_nil]
  | ownerStep c _ _ step => exact step.departureTold ht hs
  | backgroundStep _ _ step => exact step.departureTold ht hs

theorem run_departureTold (hf : Fresh r) (h : run r acts = some (r', e))
    (hk : r'.children[k]? = some g) :
    g.DepartureTold manager (entriesOf k e) :=
  children_run (P := fun g seen => g.DepartureTold manager seen) hf (fun _ _ => trivial)
    (fun _ _ _ _ ht hs hchild => hchild.departureTold ht hs) h k g hk

theorem run_killMode (hf : Fresh r) (h : run r acts = some (r', e)) (hk : r'.children[k]? = some g) :
    g.killMode = r.killMode :=
  children_run (P := fun g _ => g.killMode = r.killMode) hf (fun _ _ => rfl)
    (fun _ _ _ _ _ hmode hchild => hchild.later.mode.trans hmode) h k g hk

omit [Strategy σ] in
theorem hasReturned_iff : hasReturned r = true ↔ ∃ res, r.position = .returned res := by
  unfold hasReturned
  split
  · rename_i res hres
    exact ⟨fun _ => ⟨res, hres⟩, fun _ => rfl⟩
  · rename_i hno
    constructor
    · intro h
      cases h
    · rintro ⟨res, hres⟩
      exact absurd hres (hno res)

/-- Whether the record of a child has been given up. -/
def Position.HasGivenUp (i : Nat) : Position → Prop
  | releasing k _ => i < k
  | dismissing _ | returned _ => True
  | _ => False

theorem ChildStep.disposed {ge : List Gated.Entry} (h : ChildStep g g' ge) (ht : g.Tended manager)
    (hg : g.Disposed) :
    g'.Disposed := by
  cases h with
  | rests => exact hg
  | ownerStep c _ _ step => exact step.stays_disposed ht hg
  | backgroundStep _ _ step => exact step.stays_disposed hg

/-- A record that calls for nothing is of a child that is reaped. -/
theorem releaseCall?_none (ht : g.Tended manager) (h : releaseCall? g = none) : g.Disposed := by
  simp only [releaseCall?] at h
  split at h
  · cases h
  · cases hp : g.phase with
    | notStarted => exact absurd hp ht.begun
    | ready | running | killed => simp [hp] at h
    | terminated => exact ht.disposed hp

theorem Jump.hasGivenUp (hm : Manned r) (h : Jump r p lines) (hi : r.children[i]? = some g)
    (hc : p.HasGivenUp i) : r.position.HasGivenUp i ∨ g.Disposed := by
  have hlt := (List.getElem?_eq_some_iff.mp hi).1
  cases h with
  | lacksBenchmarks here =>
    have hcounted : r.children.length = 0 := hm.counted_at here
    omega
  | keeps k f h here there done =>
    change i < k + 1 at hc
    by_cases hik : i = k
    · subst hik
      cases hi.symm.trans there
      exact .inr (releaseCall?_none (hm.tended _ _ hi) done)
    · rw [here]
      exact .inl (by change i < k; omega)
  | allReleased k f here past =>
    have hle := List.getElem?_eq_none_iff.mp past
    rw [here]
    exact .inl (by change i < k; omega)
  | concludes f here =>
    rw [here]
    exact .inl trivial
  | enters | allCreated | allStarted | limitReached | limitAhead | supervisorGone | supervisorThere
  | unarmed | unlimited | unarmable | cleans | allKilled => exact hc.elim

omit [Strategy σ] in
theorem Drive.hasGivenUp {ge : List Gated.Entry} {res : Option (Result Answer)} (hm : Manned r)
    (hk : r.children[k]? = some g) (h : Drive r g k c res p lines)
    (ht : Gated.OwnerStep manager g c g' ge)
    (hres : res = Gated.returned? manager ge) (hc : p.HasGivenUp i) :
    r.position.HasGivenUp i ∨ i = k ∧ g'.Disposed := by
  cases h with
  | startStops _ stop => cases stop <;> exact hc.elim
  | startGoesOn | started | killGoesOn | killed => exact hc.elim
  | releaseGoesOn f _ _ here =>
    rw [here]
    exact .inl hc
  | released f res here =>
    change i < k + 1 at hc
    by_cases hik : i = k
    · exact .inr ⟨hik, ht.disposed (hm.tended k g hk) (by simp [← hres])⟩
    · rw [here]
      exact .inl (by change i < k; omega)

omit [Strategy σ] in
theorem after_hasGivenUp {v : Supervisor.Action} (hm : Manned r) (hdue : r.dueCall? = some v)
    (res : Result Unit) (hi : r.children[i]? = some g) : ¬ (r.position.after res).HasGivenUp i := by
  rcases dueCall?_cases hdue with here | here | here | ⟨outcome, here⟩ | ⟨outcome, joined, here⟩
  · have hcounted : r.children.length = 0 := hm.counted_at here
    have hlt := (List.getElem?_eq_some_iff.mp hi).1
    omega
  all_goals
    rw [here]
    rcases res with (f | p) | _ <;> exact id

/-- A child is gone when its record is given up. -/
theorem Manned.hasGivenUp (hm : Manned r) (h : Move r a r' e) (hi : r'.children[i]? = some g')
    (hc : r'.position.HasGivenUp i) : r.position.HasGivenUp i ∨ g'.Disposed := by
  cases h with
  | jumps p lines leads => exact leads.hasGivenUp hm hi hc
  | supervised v w ve res due => exact absurd hc (after_hasGivenUp hm due res hi)
  | drives k c h h' ge p lines there took leads =>
    refine (leads.hasGivenUp hm there (hm.ownerStep there leads took) rfl hc).imp_right ?_
    rintro ⟨rfl, hdisposed⟩
    have hlt := (List.getElem?_eq_some_iff.mp there).1
    rw [goTo_children, List.getElem?_set_self hlt] at hi
    cases hi
    exact hdisposed
  | ends p lines leads =>
    cases leads with
    | closes | aborts => exact hc.elim
    | dismisses f here =>
      rw [here]
      exact .inl trivial
  | drains f lines here => exact absurd hc (Nat.not_lt_zero i)
  | polls w we p lines here took leads => cases leads <;> exact hc.elim
  | creates | createFails | enlists | enlistFails | arms | disarmed => exact hc.elim
  | supervises | disarms | childMoves | publishes | works | alarmMoves => exact .inl hc

theorem run_cleared (hf : Fresh r) (h : run r acts = some (r', e)) (hi : r'.children[i]? = some g)
    (hc : r'.position.HasGivenUp i) : g.Disposed :=
  run_marks (D := fun i p => p.HasGivenUp i) hf (fun _ _ => id)
    (fun _ _ _ ht hdisposed hchild => hchild.disposed ht hdisposed)
    (fun _ _ _ _ _ _ _ _ _ hu hm hi hc => hu.hasGivenUp hm hi hc) h hi hc

/-- Once a run has returned, however it came to its end, every child that was created is reaped, except
one that has died of a signal without a name, whom nobody reaps. Each was sent its kill signal, unless
it was started and reaped before that was due. -/
theorem created_children_are_gone {benchmarks : List Benchmark} {mode : KillMode} {hasLimit : Bool}
    {forks : Nat → Except Failure Pid} {strategy : σ} {spawn : Except Failure Unit}
    {watchers : Nat → Except Failure Unit} {timer : Except Failure Unit} {res : Result Outcome}
    {fork : Except Failure Pid}
    (h : run (create benchmarks mode hasLimit forks strategy spawn watchers timer) acts = some (r, e))
    (hr : r.position = .returned res)
    (hk : .child k (.returned manager (.create fork) (.ok (.pid pid))) ∈ e) :
    ∃ g, r.children[k]? = some g ∧ g.pid? = some pid ∧
      ((∃ status, g.life = .reaped status) ∨
        ∃ n, g.life = .zombie (.killed n) ∧ Signal.ofNumber? n = none) ∧
      (.child k (.signaled mode (.ok ())) ∈ e ∨
        (∃ answer, .child k (.returned manager .start answer) ∈ e) ∧
          ∃ status, g.life = .reaped status) := by
  have hf := create_fresh benchmarks mode hasLimit forks strategy spawn watchers timer
  have hm := hf.manned.run h
  obtain ⟨g, hg, hpid⟩ := created_there hf h hk
  have hdisposed := run_cleared hf h hg (by simp [hr, Position.HasGivenUp])
  have hidle := hm.idle (k := k) (by simp [hr, Position.Calls]) hg
  have htold := run_departureTold hf h hg
  rw [Gated.DepartureTold, run_killMode hf h hg, hidle] at htold
  refine ⟨g, hg, hpid, hdisposed.ended, ?_⟩
  rcases hdisposed.left with hp | hp
  · rw [hp] at htold
    simp only [reduceCtorEq, exists_false, or_false] at htold
    exact .inl (mem_entriesOf.mp htold)
  · rw [hp] at htold
    refine htold.imp mem_entriesOf.mp ?_
    rintro ⟨answer, hx⟩
    exact ⟨⟨answer, mem_entriesOf.mp hx⟩, (hm.tended k g hg).reaped.mp hp⟩

/-- The second of two children cannot be created, so the first is killed at its gate and reaped. -/
theorem created_children_are_gone_before_start :
    let start : Run Strategy.Script := create [⟨0, "a", "/bin/a", []⟩, ⟨1, "b", "/bin/b", []⟩] .single
      false (fun k => if k = 0 then .ok 100 else .error (.ofCause .emptyCommand)) { name := "script" }
    let launch : List Action := List.replicate 5 .manage
    let sleep : List Action := [.child 0 (.child .settle), .child 0 (.advance watcher),
      .child 0 (.advance watcher)]
    let kill : List Action := List.replicate 6 .manage
    let reap : List Action := [.child 0 (.bell (.ring 0)), .child 0 (.resume 0)] ++
      List.replicate 4 (.child 0 (.advance watcher)) ++ [.publish 100]
    let release : List Action := List.replicate 4 .manage
    ∃ r e res, run start (launch ++ sleep ++ kill ++ reap ++ release) = some (r, e) ∧
      r.position = .returned res ∧
      .child 0 (.returned manager (.create (.ok 100)) (.ok (.pid 100))) ∈ e ∧
      ∃ g, r.children[0]? = some g ∧ g.pid? = some 100 ∧
        ((∃ status, g.life = .reaped status) ∨
          ∃ n, g.life = .zombie (.killed n) ∧ Signal.ofNumber? n = none) ∧
        (.child 0 (.signaled .single (.ok ())) ∈ e ∨
          (∃ answer, .child 0 (.returned manager .start answer) ∈ e) ∧
            ∃ status, g.life = .reaped status) := by
  intro start launch sleep kill reap release
  have hend : (run start (launch ++ sleep ++ kill ++ reap ++ release)).map (fun x =>
      (hasReturned x.1, (x.1.children[0]?).bind Gated.pid?)) = some (true, some 100) := by
    decide +kernel
  obtain ⟨⟨r, e⟩, hrun, hx⟩ := Option.map_eq_some_iff.mp hend
  obtain ⟨hreturned, hpid⟩ := Prod.mk.inj hx
  obtain ⟨res, hr⟩ := hasReturned_iff.mp hreturned
  obtain ⟨g, hg, hpid⟩ := Option.bind_eq_some_iff.mp hpid
  have hk := there_created (create_fresh ..) hrun hg hpid
  exact ⟨r, e, res, hrun, hr, hk, created_children_are_gone hrun hr hk⟩

/-- A child dies of a signal without a name. The run returns, and leaves it a zombie. -/
theorem nameless_death_leaves_zombie :
    let start : Run Strategy.Script := create [⟨0, "a", "/bin/a", []⟩] .single false
      (fun _ => .ok 100) { name := "script" }
    let launch : List Action := List.replicate 8 .manage ++ [.child 0 (.child .settle)] ++
      List.replicate 4 .manage ++ [.child 0 (.child .pass), .child 0 (.child (.execute none))] ++
      List.replicate 3 .manage
    let die : List Action := .child 0 (.child (.die 40)) ::
      List.replicate 3 (.child 0 (.advance watcher)) ++ [.publish 100]
    let cleanUp : List Action := List.replicate 4 .manage ++ [.work] ++ List.replicate 12 .manage
    ∃ r e res, run start (launch ++ die ++ cleanUp) = some (r, e) ∧ r.position = .returned res ∧
      .child 0 (.returned manager (.create (.ok 100)) (.ok (.pid 100))) ∈ e ∧
      ∃ g, r.children[0]? = some g ∧ g.life = .zombie (.killed 40) := by
  intro start launch die cleanUp
  have hend : (run start (launch ++ die ++ cleanUp)).map (fun x =>
      (hasReturned x.1, (x.1.children[0]?).map fun g => (g.pid?, g.life))) =
        some (true, some (some 100, .zombie (.killed 40))) := by
    decide +kernel
  obtain ⟨⟨r, e⟩, hrun, hx⟩ := Option.map_eq_some_iff.mp hend
  obtain ⟨hreturned, hchild⟩ := Prod.mk.inj hx
  obtain ⟨res, hr⟩ := hasReturned_iff.mp hreturned
  obtain ⟨g, hg, hdisposed⟩ := Option.map_eq_some_iff.mp hchild
  obtain ⟨hpid, hlife⟩ := Prod.mk.inj hdisposed
  exact ⟨r, e, res, hrun, hr, there_created (create_fresh ..) hrun hg hpid, g, hg, hlife⟩

end Corun.Run
