import Corun.Proofs.Supervisor.Moves

namespace Corun.Supervisor

variable {σ : Type} [Strategy σ] {v w : Supervisor σ} {s : σ} {a : Action} {e : List Entry}
  {acts : List Action}

/-- The hooks in the order in which they are entered. -/
def hooks (entries : List Entry) : List Hook :=
  entries.filterMap fun
    | .hook h => some h
    | _ => none

/-- The announcements that were handed to a strategy, whatever came of it. -/
def handled (entries : List Entry) : List Announcement :=
  (hooks entries).filterMap fun
    | .event a => some a
    | _ => none

/-- The announcements that were made. -/
def posted (acts : List Action) : List Announcement :=
  acts.filterMap fun
    | .post a => some a
    | _ => none

@[simp] theorem hooks_nil : hooks [] = [] := rfl

@[simp] theorem hooks_append (e e' : List Entry) : hooks (e ++ e') = hooks e ++ hooks e' :=
  List.filterMap_append

@[simp] theorem hooks_hook (h : Hook) (e : List Entry) : hooks (.hook h :: e) = h :: hooks e := rfl

@[simp] theorem hooks_returned (c : Call) (r : Result Unit) (e : List Entry) :
    hooks (.returned c r :: e) = hooks e := rfl

@[simp] theorem hooks_map_note (ns : List Note) : hooks (ns.map Entry.note) = [] := by
  induction ns with
  | nil => rfl
  | cons n ns ih => exact ih

omit [Strategy σ] in
@[simp] theorem hooks_notes (s : Step σ α) : hooks (notes s) = [] := hooks_map_note s.notes

theorem afterHook_entries (next : σ → Worker σ) (hook : Step σ Unit) :
    ∃ ns : List Note, (Worker.afterHook next hook).2 = ns.map Entry.note := by
  unfold Worker.afterHook
  split
  · exact ⟨hook.notes, rfl⟩
  · exact ⟨hook.notes, rfl⟩
  · exact ⟨hook.notes ++ (Strategy.discard hook.state).2, by simp [notes]⟩

@[simp] theorem hooks_afterHook (next : σ → Worker σ) (hook : Step σ Unit) :
    hooks (Worker.afterHook next hook).2 = [] := by
  obtain ⟨ns, hns⟩ := afterHook_entries next hook
  rw [hns, hooks_map_note]

/-- After a hook the worker goes on, has failed, or is lost. -/
theorem afterHook_cases (next : σ → Worker σ) (hook : Step σ Unit) :
    (hook.result = .ok () ∧ (Worker.afterHook next hook).1 = next hook.state) ∨
    (∃ f, hook.result = .error (.failed f) ∧
      (Worker.afterHook next hook).1 = .exited hook.state (.error f)) ∨
    ∃ p, hook.result = .error (.panicked p) ∧ (Worker.afterHook next hook).1 = .panicked := by
  unfold Worker.afterHook
  split
  · rename_i hr
    exact .inl ⟨hr, rfl⟩
  · rename_i f hr
    exact .inr (.inl ⟨f, hr, rfl⟩)
  · rename_i p hr
    exact .inr (.inr ⟨p, hr, rfl⟩)

@[simp] theorem handled_nil : handled [] = [] := rfl

@[simp] theorem handled_append (e e' : List Entry) : handled (e ++ e') = handled e ++ handled e' := by
  simp [handled]

@[simp] theorem posted_nil : posted [] = [] := rfl

@[simp] theorem posted_append (acts acts' : List Action) :
    posted (acts ++ acts') = posted acts ++ posted acts' := List.filterMap_append

omit [Strategy σ] in
/-- A worker is there only while the supervisor is running. -/
theorem Placed.running (hp : Placed v) (hw : v.worker ≠ .absent) :
    v.stage = .running ∧ v.preparing = false ∧ v.strategy = none := by
  unfold Placed at hp
  split at hp
  · exact absurd hp.2.1 hw
  · exact absurd hp.2.1 hw
  · exact absurd hp.1 hw
  · rename_i hstage
    exact ⟨hstage, hp⟩
  · exact absurd hp.2 hw
  · exact absurd hp.2 hw

omit [Strategy σ] in
theorem Placed.work (hp : Placed v) (hw : v.worker ≠ .absent) (worker : Worker σ)
    (inbox : List Announcement) : Placed { v with inbox := inbox, worker := worker } := by
  obtain ⟨hstage, hidle, hs⟩ := hp.running hw
  simp only [Placed, hstage]
  exact ⟨hidle, hs⟩

theorem Placed.move (hp : Placed v) (hm : Move v a w e) : Placed w := by
  cases hm with
  | posts a => exact hp
  | ends => exact hp
  | refuses c idle early => exact hp
  | setsUp s stage held =>
    simp only [Placed, stage] at hp
    exact ⟨hp.1, hp.2.1, _, rfl⟩
  | prepares stage =>
    simp only [Placed, stage] at hp
    exact hp.2
  | starts s stage idle held spawned => exact ⟨idle, rfl⟩
  | startFails s f stage idle held spawned => exact ⟨idle, rfl⟩
  | joinsNone stage there =>
    simp only [Placed, stage] at hp
    exact ⟨hp.1, there⟩
  | joins s r stage there =>
    simp only [Placed, stage] at hp
    exact ⟨hp.1, rfl⟩
  | joinsPanicked stage there =>
    simp only [Placed, stage] at hp
    exact ⟨hp.1, rfl⟩
  | finalizes s stage held =>
    simp only [Placed, stage] at hp
    exact hp
  | finalizesNone stage held =>
    simp only [Placed, stage] at hp
    exact hp
  | prepared s stage inside held empty =>
    simp only [Placed, stage] at hp ⊢
    exact ⟨hp.1, _, rfl⟩
  | delivers s a inbox stage inside held next passed =>
    simp only [Placed, stage] at hp ⊢
    exact ⟨hp.1, _, rfl⟩
  | deliveryStops s a inbox stop stage inside held next stopped =>
    simp only [Placed, stage] at hp ⊢
    exact ⟨hp.1, _, rfl⟩
  | leaves s there closed => exact hp.work (by simp [there]) _ _
  | goesOn s there open_ => exact hp.work (by simp [there]) _ _
  | ticks s there => exact hp.work (by simp [there]) _ _
  | ticked s there => exact hp.work (by simp [there]) _ _
  | drained s there empty => exact hp.work (by simp [there]) _ _
  | hands s a inbox there next => exact hp.work (by simp [there]) _ _

theorem Placed.step (hp : Placed v) (h : step v a = some (w, e)) : Placed w :=
  hp.move (step_move hp h)

theorem Placed.run (hp : Placed v) (h : run v acts = some (w, e)) : Placed w :=
  Machine.run_invariant (P := fun u _ _ => Placed u) hp
    (fun _ _ _ _ _ _ _ hu hstep => Placed.step hu hstep) h

/-- What every move keeps, a run keeps, of what it took and what is seen of it as well. -/
theorem run_moves {P : Supervisor σ → List Action → List Entry → Prop} (hp : Placed v)
    (hstart : P v [] [])
    (hmove : ∀ acts u e a w e', run v acts = some (u, e) → Placed u → P u acts e → Move u a w e' →
      P w (acts ++ [a]) (e ++ e'))
    (h : run v acts = some (w, e)) : P w acts e :=
  Machine.run_invariant hstart
    (fun acts u e a w e' hu hsofar hstep =>
      hmove acts u e a w e' hu (hp.run hu) hsofar (step_move (hp.run hu) hstep)) h

/-- The worker has come to its end, and may have been joined since. -/
def Over (v : Supervisor σ) : Prop :=
  (∃ s r, v.worker = .exited s r) ∨ v.worker = .panicked ∨ v.stage = .joined ∨ v.stage = .finalized

omit [Strategy σ] in
theorem Over.worker (ho : Over v) (hp : Placed v) :
    v.worker = .absent ∨ (∃ s r, v.worker = .exited s r) ∨ v.worker = .panicked := by
  rcases ho with hw | hw | hstage | hstage
  · exact .inr (.inl hw)
  · exact .inr (.inr hw)
  · simp only [Placed, hstage] at hp
    exact .inl hp.2
  · simp only [Placed, hstage] at hp
    exact .inl hp.2

omit [Strategy σ] in
theorem Over.stage (ho : Over v) (hp : Placed v) :
    v.stage = .running ∨ v.stage = .joined ∨ v.stage = .finalized := by
  rcases ho with ⟨s, r, hw⟩ | hw | hstage | hstage
  · exact .inl (hp.running (by simp [hw])).1
  · exact .inl (hp.running (by simp [hw])).1
  · exact .inr (.inl hstage)
  · exact .inr (.inr hstage)

/-- From then on the last hook is all that can be entered. -/
theorem Over.move (ho : Over v) (hp : Placed v) (hm : Move v a w e) :
    Over w ∧ ∀ h ∈ hooks e, h = .finalize := by
  have hw := ho.worker hp
  have hlate := ho.stage hp
  cases hm with
  | posts a => exact ⟨ho, by simp⟩
  | ends => exact ⟨ho, by simp⟩
  | refuses c idle early => exact ⟨ho, by simp⟩
  | joinsNone stage there => exact ⟨.inr (.inr (.inl rfl)), by simp⟩
  | joins s r stage there => exact ⟨.inr (.inr (.inl rfl)), by simp⟩
  | joinsPanicked stage there => exact ⟨.inr (.inr (.inl rfl)), by simp⟩
  | finalizes s stage held => exact ⟨.inr (.inr (.inr rfl)), by simp⟩
  | finalizesNone stage held => exact ⟨.inr (.inr (.inr rfl)), by simp⟩
  | setsUp s stage | prepares stage | starts s stage | startFails s f stage | prepared s stage
  | delivers s a inbox stage | deliveryStops s a inbox stop stage => simp [stage] at hlate
  | leaves s there | goesOn s there | ticks s there | ticked s there | drained s there
  | hands s a inbox there => simp [there] at hw

theorem Over.run (ho : Over v) (hp : Placed v) (h : run v acts = some (w, e)) :
    Over w ∧ ∀ h ∈ hooks e, h = .finalize := by
  refine run_moves (P := fun u _ e => Over u ∧ ∀ h ∈ hooks e, h = .finalize) hp
    ⟨ho, by simp⟩ ?_ h
  rintro acts u e a w e' _ hpu ⟨hu, hsofar⟩ hm
  obtain ⟨hw, hlast⟩ := hu.move hpu hm
  refine ⟨hw, ?_⟩
  intro k hk
  rw [hooks_append] at hk
  rcases List.mem_append.mp hk with hk | hk
  · exact hsofar k hk
  · exact hlast k hk

end Corun.Supervisor
