import Corun.Proofs.Run.Children

namespace Corun.Run
open Os Child

variable {σ : Type} [Strategy σ] {r r' : Run σ} {a : Action} {e : List Entry} {k i : Nat}
  {g g' : Gated} {acts : List Action} {pid : Pid}

/-- The pids of the children. -/
def names (r : Run σ) : List (Option Pid) := r.children.map Gated.pid?

omit [Strategy σ] in
theorem names_set {u : Run σ} (hk : r.children[k]? = some g) (hpid : g'.pid? = g.pid?)
    (h : u.children = r.children.set k g') : u.names = r.names := by
  unfold names
  rw [h, List.map_set, hpid]
  refine List.ext_getElem? ?_
  intro i
  by_cases hik : k = i
  · subst hik
    have hlt := (List.getElem?_eq_some_iff.mp hk).1
    rw [List.getElem?_set_self (by simpa using hlt), List.getElem?_map, hk]
    rfl
  · rw [List.getElem?_set_ne hik]

/-- A child is given its pid when it is created, for good. -/
theorem Move.names (hm : Manned r) (h : Move r a r' e) : r'.names = r.names ∨
    ∃ k b pid, r.position = .creating k ∧ r'.position = .enlisting k ∧ r.benchmarks[k]? = some b ∧
      r.forks k = .ok pid ∧ r'.names = r.names ++ [some pid] := by
  cases h with
  | creates k b pid here next forked =>
    refine .inr ⟨k, b, pid, here, rfl, next, forked, ?_⟩
    simp [Run.names, born, Gated.create, Gated.ofCommand, Gated.back]
  | enlists k g g' pid w we ge here there named took accepted awaits =>
    have hbackground := Gated.await_backgroundStep (hm.tended k g there) (by decide) awaits
    exact .inl (names_set there hbackground.later.pid rfl)
  | drives k c g g' ge p lines there took leads =>
    exact .inl (names_set there (hm.ownerStep there leads took).later.pid rfl)
  | childMoves k ga g g' ge w background there took hears =>
    exact .inl (names_set there (background_backgroundStep (hm.tended k g there) background took).later.pid rfl)
  | _ => exact .inl rfl

/-- Nothing has happened yet. -/
structure Fresh (r : Run σ) : Prop where
  position : r.position = .entering
  children : r.children = []
  watch : r.watch = .empty
  alarm : r.alarm = none
  expired : r.expired = false
  supervisor : ∃ s spawn, r.supervisor = .create s spawn

theorem create_fresh (benchmarks : List Benchmark) (killMode : KillMode) (hasLimit : Bool)
    (forks : Nat → Except Failure Pid) (strategy : σ) (spawn : Except Failure Unit)
    (watchers : Nat → Except Failure Unit) (timer : Except Failure Unit) :
    Fresh (create benchmarks killMode hasLimit forks strategy spawn watchers timer) :=
  ⟨rfl, rfl, rfl, rfl, rfl, strategy, spawn, rfl⟩

theorem Fresh.manned (hf : Fresh r) : Manned r := by
  refine ⟨?_, ?_, ?_, ?_⟩ <;> simp [hf.children, hf.position, Position.Counts]

theorem Manned.run (hm : Manned r) (h : run r acts = some (r', e)) : Manned r' :=
  Machine.run_invariant (P := fun u _ _ => Manned u) hm
    (fun _ _ _ _ _ _ _ hu hstep => Manned.move hu (step_move hstep)) h

/-- What every move keeps, a run keeps, of what it took and what is seen of it as well. -/
theorem run_moves {P : Run σ → List Action → List Entry → Prop} (hm : Manned r) (hstart : P r [] [])
    (hmove : ∀ acts u e a w e', Run.run r acts = some (u, e) → Manned u → P u acts e → Move u a w e' →
      P w (acts ++ [a]) (e ++ e'))
    (h : Run.run r acts = some (r', e)) : P r' acts e :=
  Machine.run_invariant hstart
    (fun acts u e a w e' hu hsofar hstep =>
      hmove acts u e a w e' hu (hm.run hu) hsofar (step_move hstep)) h

/-- What the run is asked to do stays as it is. -/
structure SameTask (r r' : Run σ) : Prop where
  benchmarks : r'.benchmarks = r.benchmarks
  killMode : r'.killMode = r.killMode
  hasLimit : r'.hasLimit = r.hasLimit
  forks : r'.forks = r.forks
  timer : r'.timer = r.timer

theorem Move.sameTask (h : Move r a r' e) : SameTask r r' := by
  cases h <;> exact ⟨rfl, rfl, rfl, rfl, rfl⟩

theorem Move.grows (h : Move r a r' e) : r.children.length ≤ r'.children.length := by
  cases h <;> simp

theorem run_sameTask (h : Run.run r acts = some (r', e)) : SameTask r r' := by
  refine Machine.run_invariant (P := fun u _ _ => SameTask r u) ⟨rfl, rfl, rfl, rfl, rfl⟩ ?_ h
  intro acts u e a w e' _ hu hstep
  have hw := (step_move hstep).sameTask
  exact ⟨hw.benchmarks.trans hu.benchmarks, hw.killMode.trans hu.killMode,
    hw.hasLimit.trans hu.hasLimit, hw.forks.trans hu.forks, hw.timer.trans hu.timer⟩

/-- All that is seen of a child that is not there is that it could not be created, and then no other
is. -/
theorem Manned.absent (hm : Manned r) (h : Move r a r' e) (hi : r'.children.length ≤ i) :
    entriesOf i e = [] ∨ r'.position.isEarly = false ∧
      ∃ f, entriesOf i e = [.returned manager (.create (.error f)) (.error (.failed f))] := by
  have hpast := Nat.le_trans h.grows hi
  have hset : ∀ {k : Nat} {g : Gated} (ge : List Gated.Entry), r.children[k]? = some g →
      entriesOf i (ofChild k ge) = [] := by
    intro k g ge hk
    have hlt := (List.getElem?_eq_some_iff.mp hk).1
    rw [entriesOf_ofChild]
    exact if_neg (by omega)
  cases h with
  | jumps p lines leads => exact .inl (entriesOf_talk i leads.talk)
  | supervises | supervised | works => exact .inl (by simp)
  | creates k b pid here =>
    have hcounted : r.children.length = k := hm.counted_at here
    simp only [goTo_children, List.length_append, List.length_singleton] at hi
    have hne : k ≠ i := by omega
    exact .inl (by simp [hne])
  | createFails k b f here =>
    by_cases hik : k = i
    · exact .inr ⟨rfl, f, by simp [hik]⟩
    · exact .inl (by simp [hik])
  | enlists k g g' pid w we ge here there => exact .inl (hset ge there)
  | drives k c g g' ge p lines there took leads =>
    rw [entriesOf_append, entriesOf_talk i leads.talk, List.append_nil]
    exact .inl (hset ge there)
  | polls w we p lines here took leads => exact .inl (entriesOf_talk i leads.talk)
  | ends p lines leads => exact .inl (entriesOf_talk i leads.talk)
  | drains f lines here ended => exact .inl (entriesOf_talk i (by simp [Entry.isTalk]))
  | childMoves k ga g g' ge w background there => exact .inl (hset ge there)
  | enlistFails | arms | disarms | disarmed | publishes | alarmMoves => exact .inl rfl

/-- Nothing is seen of a child that is still to come. -/
theorem Manned.unborn (hm : Manned r) (h : Move r a r' e) (hearly : r'.position.isEarly = true)
    (hi : r'.children.length ≤ i) : entriesOf i e = [] := by
  rcases hm.absent h hi with hnone | ⟨hlate, -⟩
  · exact hnone
  · exact absurd (hearly.symm.trans hlate) (by simp)

/-- What holds of every child that was just created, and is kept by all that happens to it. -/
theorem children_run {P : Gated → List Gated.Entry → Prop} (hf : Fresh r)
    (hborn : ∀ b pid, P (born b r.killMode pid)
      [.returned manager (.create (.ok pid)) (.ok (.pid pid))])
    (hstep : ∀ g g' seen ge, g.Tended manager → P g seen → ChildStep g g' ge → P g' (seen ++ ge))
    (h : Run.run r acts = some (r', e)) (k : Nat) (g : Gated) (hk : r'.children[k]? = some g) :
    P g (entriesOf k e) := by
  -- A child finds nothing said of it before its birth, which holds while children are still to come.
  have hinv : (∀ k g, r'.children[k]? = some g → P g (entriesOf k e)) ∧
      (r'.position.isEarly = true → ∀ i, r'.children.length ≤ i → entriesOf i e = []) := by
    refine run_moves (P := fun u _ e => (∀ k g, u.children[k]? = some g → P g (entriesOf k e)) ∧
      (u.position.isEarly = true → ∀ i, u.children.length ≤ i → entriesOf i e = []))
      hf.manned ⟨by simp [hf.children], fun _ _ _ => rfl⟩ ?_ h
    rintro acts u e a w e' hrun hu ⟨hall, hunborn⟩ hm
    refine ⟨?_, ?_⟩
    · intro i g' hi'
      rw [entriesOf_append]
      cases hi : u.children[i]? with
      | none =>
        obtain ⟨b, pid, hp, -, -, rfl, rfl⟩ := hu.newborn hm hi hi'
        rw [hunborn (by simp [hp, Position.isEarly, Position.phase]) i (List.getElem?_eq_none_iff.mp hi),
          (run_sameTask hrun).killMode]
        simpa using hborn b pid
      | some g =>
        obtain ⟨g₁, hg₁, hchild⟩ := hu.childStep hm hi
        cases hi'.symm.trans hg₁
        exact hstep g g' _ _ (hu.tended i g hi) (hall i g hi) hchild
    · intro hearly i hi
      rw [entriesOf_append, hunborn (hm.early hearly) i (Nat.le_trans hm.grows hi),
        hu.unborn hm hearly hi, List.append_nil]
  exact hinv.1 k g hk

/-- What comes to hold of a child where the manager has done with it, and is kept by all that happens to
the child, holds from then on. -/
theorem run_marks {D : Nat → Position → Prop} {P : Gated → Prop} (hf : Fresh r)
    (hnew : ∀ i k, ¬ D i (.creating k))
    (hkept : ∀ g g' ge, g.Tended manager → P g → ChildStep g g' ge → P g')
    (hmark : ∀ acts u e a w e' i g', Run.run r acts = some (u, e) → Manned u → Move u a w e' →
      w.children[i]? = some g' → D i w.position → D i u.position ∨ P g')
    (h : Run.run r acts = some (r', e)) (hi : r'.children[i]? = some g) (hdone : D i r'.position) :
    P g := by
  refine run_moves (P := fun u _ _ => ∀ i g, u.children[i]? = some g → D i u.position → P g)
    hf.manned (by simp [hf.children]) ?_ h i g hi hdone
  intro acts u e a w e' hrun hu hsofar hm i g' hi hdone
  rcases hmark acts u e a w e' i g' hrun hu hm hi hdone with hbefore | hnow
  · cases hg : u.children[i]? with
    | none =>
      obtain ⟨b, pid, hcreating, -⟩ := hu.newborn hm hg hi
      rw [hcreating] at hbefore
      exact absurd hbefore (hnew i i)
    | some g =>
      obtain ⟨g₁, hg₁, hchild⟩ := hu.childStep hm hg
      cases hi.symm.trans hg₁
      exact hkept g g' _ (hu.tended i g hg) (hsofar i g hg hbefore) hchild
  · exact hnow

theorem ChildStep.uncreated {ge : List Gated.Entry} {fork : Except Failure Pid}
    {res : Result Answer}
    (h : ChildStep g g' ge) : .returned manager (.create fork) res ∉ ge := by
  cases h with
  | rests => simp
  | ownerStep c _ _ step => cases step <;> simp
  | backgroundStep _ _ step =>
    intro hx
    rcases step.shown _ hx with ⟨_, h⟩ | ⟨_, h⟩ | ⟨_, _, _, h⟩ <;> cases h

/-- A child that was created is there, and keeps its pid. -/
theorem created_there (hf : Fresh r) (h : run r acts = some (r', e)) {fork : Except Failure Pid}
    (hx : .child k (.returned manager (.create fork) (.ok (.pid pid))) ∈ e) :
    ∃ g, r'.children[k]? = some g ∧ g.pid? = some pid := by
  refine run_moves (P := fun u _ e => .returned manager (.create fork) (.ok (.pid pid)) ∈ entriesOf k e →
    ∃ g, u.children[k]? = some g ∧ g.pid? = some pid) hf.manned (by simp) ?_ h (mem_entriesOf.mpr hx)
  intro acts u e a w e' _ hu hsofar hm hx
  rw [entriesOf_append, List.mem_append] at hx
  rcases hx with hx | hx
  · obtain ⟨g, hg, hpid⟩ := hsofar hx
    obtain ⟨g', hg', hchild⟩ := hu.childStep hm hg
    exact ⟨g', hg', hchild.later.pid.trans hpid⟩
  · cases hg : u.children[k]? with
    | some g =>
      obtain ⟨g', -, hchild⟩ := hu.childStep hm hg
      exact absurd hx hchild.uncreated
    | none =>
      cases hw : w.children[k]? with
      | some g' =>
        obtain ⟨b, q, -, -, -, rfl, rfl⟩ := hu.newborn hm hg hw
        simp only [entriesOf_child, if_true, entriesOf_nil, List.mem_singleton] at hx
        cases hx
        exact ⟨_, rfl, rfl⟩
      | none =>
        rcases hu.absent hm (List.getElem?_eq_none_iff.mp hw) with hnone | ⟨-, f, hfailed⟩
        · rw [hnone] at hx
          cases hx
        · rw [hfailed, List.mem_singleton] at hx
          cases hx

/-- A child is there because it was created. -/
theorem there_created (hf : Fresh r) (h : run r acts = some (r', e)) (hk : r'.children[k]? = some g)
    (hpid : g.pid? = some pid) :
    .child k (.returned manager (.create (.ok pid)) (.ok (.pid pid))) ∈ e := by
  refine mem_entriesOf.mp (children_run (P := fun g seen => ∀ pid, g.pid? = some pid →
    .returned manager (.create (.ok pid)) (.ok (.pid pid)) ∈ seen) hf ?_ ?_ h k g hk pid hpid)
  · intro b pid q hq
    cases hq
    exact List.mem_singleton_self _
  · intro g g' seen ge _ hseen hchild pid hpid
    exact List.mem_append_left _ (hseen pid (hchild.later.pid.symm.trans hpid))

end Corun.Run
