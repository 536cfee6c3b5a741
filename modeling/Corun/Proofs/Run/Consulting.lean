import Corun.Proofs.Run.Lives
import Corun.Proofs.Supervisor.Trace

namespace Corun.Run
open Os Child

variable {σ : Type} [Strategy σ] {r r' : Run σ} {a : Action} {e lines : List Entry} {p : Position}
  {v w : Supervisor σ} {ve : List Supervisor.Entry} {acts : List Action}

/-- The stage of the supervisor at a position, until it no longer matters. -/
def Position.Suits (v : Supervisor σ) : Position → Prop
  | entering | settingUp => v.stage = .uninitialized
  | creating _ | enlisting _ => v.stage = .initialized
  | preparing => v.stage = if v.preparing then .prepared else .initialized
  | starting _ | launching => v.stage = .prepared ∧ v.preparing = false
  | arming | polling | checkingLimit | checkingSupervisor | disarming _ | closing _ | joining _ =>
    v.stage = .running ∧ v.worker ≠ .absent
  | finalizing .. => v.stage = .joined
  | _ => True

structure Stationed (r : Run σ) : Prop where
  placed : r.supervisor.Placed
  suits : r.position.Suits r.supervisor

/-- All that a step of the supervisor comes to which the manager asks for, and where the manager goes. -/
inductive Consult (r : Run σ) : Supervisor σ → List Supervisor.Entry → Position → Prop where
  | setsUp (s : σ) (here : r.position = .settingUp) (held : r.supervisor.strategy = some s) :
    Consult r { r.supervisor with stage := .initialized, strategy := some (Strategy.setUp s).state }
      (.hook .setUp :: Supervisor.notes (Strategy.setUp s) ++
        [.returned .setUp (Strategy.setUp s).result])
      (Position.after .settingUp (Strategy.setUp s).result)
  | prepares (here : r.position = .preparing) (idle : r.supervisor.preparing = false) :
    Consult r { r.supervisor with stage := .prepared, preparing := true } [] .preparing
  | delivers (s : σ) (x : Announcement) (inbox : List Announcement) (here : r.position = .preparing)
      (inside : r.supervisor.preparing = true) (held : r.supervisor.strategy = some s)
      (next : r.supervisor.inbox = x :: inbox) (passed : (Supervisor.dispatch x s).result = .ok ()) :
    Consult r
      { r.supervisor with inbox := inbox, strategy := some (Supervisor.dispatch x s).state }
      (.hook (.event x) :: Supervisor.notes (Supervisor.dispatch x s)) .preparing
  | deliveryStops (s : σ) (x : Announcement) (inbox : List Announcement) (stop : Stop)
      (here : r.position = .preparing) (inside : r.supervisor.preparing = true)
      (held : r.supervisor.strategy = some s) (next : r.supervisor.inbox = x :: inbox)
      (stopped : (Supervisor.dispatch x s).result = .error stop) :
    Consult r
      { r.supervisor with
        preparing := false, inbox := inbox, strategy := some (Supervisor.dispatch x s).state }
      (.hook (.event x) :: Supervisor.notes (Supervisor.dispatch x s) ++
        [.returned .prepare (.error stop)]) (.afterStop stop)
  | prepared (s : σ) (here : r.position = .preparing) (inside : r.supervisor.preparing = true)
      (held : r.supervisor.strategy = some s) (empty : r.supervisor.inbox = []) :
    Consult r { r.supervisor with preparing := false, strategy := some (Strategy.prepare s).state }
      (.hook .prepare :: Supervisor.notes (Strategy.prepare s) ++
        [.returned .prepare (Strategy.prepare s).result])
      (Position.after .preparing (Strategy.prepare s).result)
  | starts (s : σ) (here : r.position = .launching) (held : r.supervisor.strategy = some s)
      (spawned : r.supervisor.spawn = .ok ()) :
    Consult r { r.supervisor with stage := .running, strategy := none, worker := .checking s }
      [.returned .start (.ok ())] .arming
  | startStops (s : σ) (stop : Stop) (here : r.position = .launching)
      (held : r.supervisor.strategy = some s) :
    Consult r { r.supervisor with stage := .running, strategy := none }
      ((Strategy.discard s).2.map Supervisor.Entry.note ++ [.returned .start (.error stop)])
      (.afterStop stop)
  | joins (outcome : Except Failure Outcome) (s : σ) (res : Except Failure Unit)
      (here : r.position = .joining outcome) (there : r.supervisor.worker = .exited s res) :
    Consult r { r.supervisor with stage := .joined, strategy := some s, worker := .absent }
      [.returned .join (Result.within (.supervising r.supervisor.name) (Result.ofExcept res))]
      (.finalizing outcome
        (Result.within (.supervising r.supervisor.name) (Result.ofExcept res)))
  | joinsPanicked (outcome : Except Failure Outcome) (here : r.position = .joining outcome)
      (there : r.supervisor.worker = .panicked) :
    Consult r { r.supervisor with stage := .joined, worker := .absent }
      [.returned .join (Result.fail (.monitorPanicked r.supervisor.name))]
      (.finalizing outcome (Result.fail (.monitorPanicked r.supervisor.name)))
  | finalizes (outcome : Except Failure Outcome) (joined : Result Unit) (s : σ)
      (here : r.position = .finalizing outcome joined) (held : r.supervisor.strategy = some s) :
    Consult r { r.supervisor with stage := .finalized, strategy := some (Strategy.finalize s).state }
      (.hook .finalize :: Supervisor.notes (Strategy.finalize s) ++
        [.returned .finalize (Strategy.finalize s).result])
      (Position.after (.finalizing outcome joined) (Strategy.finalize s).result)
  | finalizesNone (outcome : Except Failure Outcome) (joined : Result Unit)
      (here : r.position = .finalizing outcome joined) (held : r.supervisor.strategy = none) :
    Consult r { r.supervisor with stage := .finalized } [.returned .finalize (.ok ())]
      (.cleaning (.judged outcome joined (.ok ())))

@[simp] theorem supervised?_nil : supervised? [] = none := rfl

@[simp] theorem supervised?_hook (h : Supervisor.Hook) (ve : List Supervisor.Entry) :
    supervised? (.hook h :: ve) = supervised? ve := rfl

@[simp] theorem supervised?_returned (c : Supervisor.Call) (res : Result Unit)
    (ve : List Supervisor.Entry) : supervised? (.returned c res :: ve) = some res := rfl

@[simp] theorem supervised?_map_note (ns : List Note) (ve : List Supervisor.Entry) :
    supervised? (ns.map Supervisor.Entry.note ++ ve) = supervised? ve := by
  induction ns with
  | nil => rfl
  | cons n ns ih => exact ih

omit [Strategy σ] in
@[simp] theorem supervised?_notes (s : Step σ Unit) (ve : List Supervisor.Entry) :
    supervised? (Supervisor.notes s ++ ve) = supervised? ve := supervised?_map_note s.notes ve

omit [Strategy σ] in
@[simp] theorem supervised?_only_notes (s : Step σ Unit) :
    supervised? (Supervisor.notes s) = none := by
  simpa using supervised?_notes s []

/-- Where the manager is when a call has gone on or come back. -/
def nextPosition (r : Run σ) (ve : List Supervisor.Entry) : Position :=
  match supervised? ve with
  | none => r.position
  | some res => r.position.after res

omit [Strategy σ] in
theorem nextPosition_open (here : r.position = p) (h : supervised? ve = none) :
    r.nextPosition ve = p := by
  simp [nextPosition, h, here]

omit [Strategy σ] in
theorem nextPosition_back (res : Result Unit) (here : r.position = p)
    (h : supervised? ve = some res) : r.nextPosition ve = p.after res := by
  simp [nextPosition, h, here]

/-- Without a worker the strategy is lost, and start stops. -/
theorem lost_strategy (s : σ) (f : Failure) :
    ∃ stop, ((Strategy.discard s).1.bind fun _ => .error (.failed f) : Result Unit) = .error stop := by
  cases (Strategy.discard s).1 with
  | error stop => exact ⟨stop, rfl⟩
  | ok u => exact ⟨.failed f, rfl⟩

theorem Stationed.consults_setUp (hs : Stationed r) (here : r.position = .settingUp)
    (h : Supervisor.Move r.supervisor (.call .setUp) v ve) : Consult r v ve (r.nextPosition ve) := by
  have hstage : r.supervisor.stage = .uninitialized := by simpa [here, Position.Suits] using hs.suits
  cases h with
  | refuses _ idle early => exact absurd hstage early
  | setsUp s stage held =>
    rw [nextPosition_back ((Strategy.setUp s).result) here (by simp)]
    exact .setsUp s here held

theorem Stationed.consults_prepare (hs : Stationed r) (here : r.position = .preparing)
    (hidle : r.supervisor.preparing = false)
    (h : Supervisor.Move r.supervisor (.call .prepare) v ve) :
    Consult r v ve (r.nextPosition ve) := by
  have hstage : r.supervisor.stage = .initialized := by
    simpa [here, Position.Suits, hidle] using hs.suits
  cases h with
  | refuses _ idle early => exact absurd hstage early
  | prepares stage =>
    rw [nextPosition_open here rfl]
    exact .prepares here hidle

theorem consults_delivery (here : r.position = .preparing)
    (h : Supervisor.Move r.supervisor .deliver v ve) : Consult r v ve (r.nextPosition ve) := by
  cases h with
  | prepared s stage inside held empty =>
    rw [nextPosition_back ((Strategy.prepare s).result) here (by simp)]
    exact .prepared s here inside held empty
  | delivers s x inbox stage inside held next passed =>
    rw [nextPosition_open here (by simp)]
    exact .delivers s x inbox here inside held next passed
  | deliveryStops s x inbox stop stage inside held next stopped =>
    rw [nextPosition_back (.error stop) here (by simp)]
    exact .deliveryStops s x inbox stop here inside held next stopped

theorem Stationed.consults_start (hs : Stationed r) (here : r.position = .launching)
    (h : Supervisor.Move r.supervisor (.call .start) v ve) : Consult r v ve (r.nextPosition ve) := by
  obtain ⟨hstage, -⟩ : r.supervisor.stage = .prepared ∧ r.supervisor.preparing = false := by
    simpa [here, Position.Suits] using hs.suits
  cases h with
  | refuses _ idle early => exact absurd hstage early
  | starts s stage idle held spawned =>
    rw [nextPosition_back (.ok ()) here rfl]
    exact .starts s here held spawned
  | startFails s f stage idle held spawned =>
    obtain ⟨stop, hstop⟩ := lost_strategy s (f.within .spawning)
    rw [hstop, nextPosition_back (.error stop) here (by simp)]
    exact .startStops s stop here held

theorem Stationed.consults_join {outcome : Except Failure Outcome} (hs : Stationed r)
    (here : r.position = .joining outcome)
    (h : Supervisor.Move r.supervisor (.call .join) v ve) : Consult r v ve (r.nextPosition ve) := by
  obtain ⟨hstage, hthere⟩ : r.supervisor.stage = .running ∧ r.supervisor.worker ≠ .absent := by
    simpa [here, Position.Suits] using hs.suits
  cases h with
  | refuses _ idle early => exact absurd hstage early
  | joinsNone stage there => exact absurd there hthere
  | joins s res stage there =>
    rw [nextPosition_back _ here rfl]
    exact .joins outcome s res here there
  | joinsPanicked stage there =>
    rw [nextPosition_back _ here rfl]
    exact .joinsPanicked outcome here there

theorem Stationed.consults_finalize {outcome : Except Failure Outcome} {joined : Result Unit}
    (hs : Stationed r) (here : r.position = .finalizing outcome joined)
    (h : Supervisor.Move r.supervisor (.call .finalize) v ve) :
    Consult r v ve (r.nextPosition ve) := by
  have hstage : r.supervisor.stage = .joined := by simpa [here, Position.Suits] using hs.suits
  cases h with
  | refuses _ idle early => exact absurd hstage early
  | finalizes s stage held =>
    rw [nextPosition_back ((Strategy.finalize s).result) here (by simp)]
    exact .finalizes outcome joined s here held
  | finalizesNone stage held =>
    rw [nextPosition_back _ here rfl]
    exact .finalizesNone outcome joined here held

/-- At each position the stage is the one that its call needs. -/
theorem Stationed.consult {va : Supervisor.Action} (hs : Stationed r) (hdue : r.dueCall? = some va)
    (h : r.supervisor.step va = some (v, ve)) : Consult r v ve (r.nextPosition ve) := by
  have hmove := Supervisor.step_move hs.placed h
  unfold dueCall? at hdue
  split at hdue
  · rename_i here
    cases hdue
    exact hs.consults_setUp here hmove
  · rename_i here
    cases hdue
    split at hmove
    · exact consults_delivery here hmove
    · rename_i hout
      exact hs.consults_prepare here (by simpa using hout) hmove
  · rename_i here
    cases hdue
    exact hs.consults_start here hmove
  · rename_i outcome here
    cases hdue
    exact hs.consults_join here hmove
  · rename_i outcome joined here
    cases hdue
    exact hs.consults_finalize here hmove
  · cases hdue

/-- A call of the supervisor goes on. -/
theorem Stationed.consults {va : Supervisor.Action} (hs : Stationed r) (hdue : r.dueCall? = some va)
    (h : r.supervisor.step va = some (v, ve)) (hopen : supervised? ve = none) :
    Consult r v ve r.position := nextPosition_open (r := r) rfl hopen ▸ hs.consult hdue h

/-- A call of the supervisor comes back. -/
theorem Stationed.consulted {va : Supervisor.Action} {res : Result Unit} (hs : Stationed r)
    (hdue : r.dueCall? = some va) (h : r.supervisor.step va = some (v, ve))
    (hback : supervised? ve = some res) : Consult r v ve (r.position.after res) :=
  nextPosition_back (r := r) _ rfl hback ▸ hs.consult hdue h

theorem Jump.undue (h : Jump r p lines) : r.dueCall? = none := by
  cases h <;> simp [dueCall?, *]

omit [Strategy σ] in
theorem Drive.undue {k : Nat} {g : Gated} {c : Call} {res : Option (Result Answer)}
    (h : Drive r g k c res p lines) : r.dueCall? = none := by
  cases h <;> simp [dueCall?, *]

omit [Strategy σ] in
theorem Ends.undue (h : Ends r p lines) : r.dueCall? = none := by
  cases h <;> simp [dueCall?, *]

/-- Where the supervisor is to be asked for something, the manager does nothing else. -/
theorem Stationed.asked {va : Supervisor.Action} (hs : Stationed r) (hdue : r.dueCall? = some va)
    (h : Move r .manage r' e) :
    ∃ ve, Consult r r'.supervisor ve r'.position ∧ e = ofSupervisor ve := by
  cases h with
  | supervises va v ve due took open_ =>
    exact ⟨ve, hs.consults due took open_, rfl⟩
  | supervised va v ve res due took back =>
    exact ⟨ve, hs.consulted due took back, rfl⟩
  | jumps p lines leads => exact absurd (leads.undue.symm.trans hdue) (by simp)
  | drives k c g g' ge p lines there took leads => exact absurd (leads.undue.symm.trans hdue) (by simp)
  | ends p lines leads => exact absurd (leads.undue.symm.trans hdue) (by simp)
  | creates _ _ _ here | createFails _ _ _ here | enlists _ _ _ _ _ _ _ here | enlistFails _ _ here
  | arms here | polls _ _ _ _ here | disarms _ _ _ _ here | disarmed _ here | drains _ _ here =>
    simp [dueCall?, here] at hdue

/-- What is seen of the supervisor is a note, or comes of a step that the manager or the worker has
made. -/
theorem Move.heard {x : Supervisor.Entry} (hs : Stationed r) (h : Move r a r' e)
    (hx : .supervisor x ∈ e) : (∃ n, x = .note n) ∨ ∃ ve, x ∈ ve ∧
      ((r.dueCall?.isSome = true ∧ Consult r r'.supervisor ve r'.position) ∨
        (r'.position = r.position ∧ Supervisor.Move r.supervisor .work r'.supervisor ve)) := by
  have htalk : ∀ {lines : List Entry}, (∀ y ∈ lines, y.isTalk = true) → .supervisor x ∈ lines →
      ∃ n, x = .note n := by
    intro lines h hx
    cases x with
    | note n => exact ⟨n, rfl⟩
    | hook k => cases h _ hx
    | returned c res => cases h _ hx
  have hchild : ∀ k ge, .supervisor x ∉ ofChild k ge := by
    intro k ge hx
    simp [ofChild] at hx
  have hmem : ∀ {ve : List Supervisor.Entry}, .supervisor x ∈ ofSupervisor ve → x ∈ ve := by
    intro ve hx
    simpa [ofSupervisor] using hx
  cases h with
  | jumps p lines leads => exact .inl (htalk leads.talk hx)
  | supervises va v ve due took open_ =>
    exact .inr ⟨ve, hmem hx, .inl ⟨by simp [due], hs.consults due took open_⟩⟩
  | supervised va v ve res due took back =>
    exact .inr ⟨ve, hmem hx, .inl ⟨by simp [due], hs.consulted due took back⟩⟩
  | works v ve took => exact .inr ⟨ve, hmem hx, .inr ⟨rfl, Supervisor.step_move hs.placed took⟩⟩
  | creates | createFails => simp at hx
  | enlists k g g' pid w we ge => exact absurd hx (hchild k ge)
  | drives k c g g' ge p lines there took leads =>
    rcases List.mem_append.mp hx with hx | hx
    · exact absurd hx (hchild k ge)
    · exact .inl (htalk leads.talk hx)
  | childMoves k ga g g' ge => exact absurd hx (hchild k ge)
  | polls w we p lines here took leads => exact .inl (htalk leads.talk hx)
  | ends p lines leads => exact .inl (htalk leads.talk hx)
  | drains f lines here ended => exact .inl (htalk (by simp [Entry.isTalk]) hx)
  | enlistFails | arms | disarms | disarmed | publishes | alarmMoves => cases hx

theorem Fresh.stationed (hf : Fresh r) : Stationed r := by
  obtain ⟨s, spawn, hv⟩ := hf.supervisor
  refine ⟨hv ▸ Supervisor.create_placed s spawn, ?_⟩
  rw [hf.position, hv]
  rfl

/-- Only the worker works, and it stays until it is joined. -/
theorem work_keeps (h : Supervisor.Move v .work w ve) :
    w.stage = v.stage ∧ w.preparing = v.preparing ∧ v.worker ≠ .absent ∧ w.worker ≠ .absent := by
  have hafter : ∀ (hook : Step σ Unit), (Supervisor.Worker.afterHook .draining hook).1 ≠ .absent := by
    intro hook
    rcases Supervisor.afterHook_cases .draining hook with ⟨-, hn⟩ | ⟨f, -, hn⟩ | ⟨q, -, hn⟩ <;>
      simp [hn]
  cases h with
  | leaves s there | goesOn s there | ticks s there | drained s there => simp [there]
  | ticked s there | hands s x inbox there => exact ⟨rfl, rfl, by simp [there], hafter _⟩

omit [Strategy σ] in
theorem Position.Suits.keeps (h : p.Suits v) (hstage : w.stage = v.stage)
    (hpreparing : w.preparing = v.preparing) (hworker : v.worker ≠ .absent → w.worker ≠ .absent) :
    p.Suits w := by
  cases p with
  | entering | settingUp | creating | enlisting | finalizing => exact hstage.trans h
  | preparing => exact (hstage.trans h).trans (by rw [hpreparing])
  | starting | launching => exact ⟨hstage.trans h.1, hpreparing.trans h.2⟩
  | arming | polling | checkingLimit | checkingSupervisor | disarming | closing | joining =>
    exact ⟨hstage.trans h.1, hworker h.2⟩
  | aborting | cleaning | killing | draining | releasing | dismissing | returned => trivial

omit [Strategy σ] in
theorem Stationed.unworked (hs : Stationed r) (hl : r.position.isLaunch = true) :
    r.supervisor.worker = .absent := by
  have hsuits := hs.suits
  by_contra hthere
  have hrunning := (hs.placed.running hthere).1
  cases hp : r.position with
  | entering | settingUp | creating | enlisting =>
    rw [hp] at hsuits
    exact absurd (hrunning.symm.trans hsuits) (by simp)
  | preparing =>
    rw [hp] at hsuits
    exact absurd (hrunning.symm.trans hsuits) (by split <;> simp)
  | starting | launching =>
    rw [hp] at hsuits
    exact absurd (hrunning.symm.trans hsuits.1) (by simp)
  | _ =>
    rw [hp] at hl
    cases hl

theorem Stationed.not_works (hs : Stationed r) (hl : r.position.isLaunch = true) :
    r.supervisor.step .work = none := by
  simp [Supervisor.step, Supervisor.work, hs.unworked hl]

theorem Consult.worker (h : Consult r v ve p) (hw : v.worker ≠ .absent) :
    r.supervisor.worker ≠ .absent ∨ r.position = .launching := by
  cases h with
  | starts s here => exact .inr here
  | joins | joinsPanicked => exact absurd rfl hw
  | setsUp | prepares | delivers | deliveryStops | prepared | startStops | finalizes
  | finalizesNone => exact .inl hw

/-- The worker comes with the start of the supervisor. -/
theorem Move.worker (hs : Stationed r) (h : Move r a r' e) (hw : r'.supervisor.worker ≠ .absent) :
    r.supervisor.worker ≠ .absent ∨ r.position = .launching := by
  cases h with
  | supervises va v ve due took | supervised va v ve _ due took =>
    exact (hs.consult due took).worker hw
  | works v ve took => exact .inl (work_keeps (Supervisor.step_move hs.placed took)).2.2.1
  | _ => exact .inl hw

theorem Jump.suits (hs : Stationed r) (h : Jump r p lines) : p.Suits r.supervisor := by
  have hsuits := hs.suits
  cases h with
  | enters _ here | limitReached _ here | limitAhead here | supervisorGone here | supervisorThere here
  | unarmed _ here | unlimited here | unarmable _ here =>
    rw [here] at hsuits
    exact hsuits
  | allCreated k here =>
    have hplaced := hs.placed
    rw [here] at hsuits
    change r.supervisor.stage = .initialized at hsuits
    simp only [Supervisor.Placed, hsuits] at hplaced
    simp [Position.Suits, hsuits, hplaced.1]
  | allStarted k here =>
    rw [here] at hsuits
    exact hsuits
  | lacksBenchmarks | cleans | allKilled | keeps | allReleased | concludes => trivial

omit [Strategy σ] in
theorem Drive.suits {k : Nat} {g : Gated} {c : Call} {res : Option (Result Answer)}
    (h : Drive r g k c res p lines) (hs : r.position.Suits r.supervisor) : p.Suits r.supervisor := by
  cases h with
  | startGoesOn here | started _ here =>
    rw [here] at hs
    exact hs
  | startStops _ stop => cases stop <;> trivial
  | killGoesOn | killed | releaseGoesOn | released => trivial

theorem Consult.suits (hs : Stationed r) (h : Consult r v ve p) : p.Suits v := by
  have hplaced := hs.placed
  have hsuits := hs.suits
  cases h with
  | setsUp s here => rcases (Strategy.setUp s).result with (f | q) | _ <;> trivial
  | prepares here idle => rfl
  | delivers s x inbox here inside =>
    rw [here] at hsuits
    exact hsuits
  | deliveryStops s x inbox stop => cases stop <;> trivial
  | prepared s here inside =>
    rw [here] at hsuits
    change r.supervisor.stage = (if r.supervisor.preparing then .prepared else .initialized) at hsuits
    rw [inside] at hsuits
    rcases (Strategy.prepare s).result with (f | q) | _
    · trivial
    · trivial
    · exact ⟨hsuits, rfl⟩
  | starts s here => exact ⟨rfl, by simp⟩
  | startStops s stop => cases stop <;> trivial
  | joins | joinsPanicked => rfl
  | finalizes outcome joined s here =>
    rcases (Strategy.finalize s).result with (f | q) | _ <;> trivial
  | finalizesNone => trivial

theorem Stationed.move (hs : Stationed r) (h : Move r a r' e) : Stationed r' := by
  have hplaced := hs.placed
  have hsuits := hs.suits
  cases h with
  | jumps p lines leads =>
    have hsuits' := leads.suits hs
    exact ⟨hplaced, hsuits'⟩
  | supervises va v ve due took open_ =>
    exact ⟨hplaced.step took, (hs.consults due took open_).suits hs⟩
  | supervised va v ve res due took back =>
    exact ⟨hplaced.step took, (hs.consulted due took back).suits hs⟩
  | creates k b pid here =>
    rw [here] at hsuits
    exact ⟨hplaced, hsuits⟩
  | enlists k g g' pid w we ge here =>
    rw [here] at hsuits
    exact ⟨hplaced, hsuits⟩
  | createFails | enlistFails | drains => exact ⟨hplaced, trivial⟩
  | drives k c g g' ge p lines there took leads => exact ⟨hplaced, leads.suits hsuits⟩
  | arms here =>
    rw [here] at hsuits
    exact ⟨hplaced, hsuits⟩
  | polls w we p lines here took leads =>
    rw [here] at hsuits
    refine ⟨hplaced, ?_⟩
    cases leads <;> exact hsuits
  | disarmed outcome here =>
    rw [here] at hsuits
    exact ⟨hplaced, hsuits⟩
  | ends p lines leads =>
    refine ⟨hplaced, ?_⟩
    cases leads with
    | closes outcome here =>
      rw [here] at hsuits
      exact hsuits
    | aborts | dismisses => trivial
  | works v ve took =>
    obtain ⟨hstage, hpreparing, -, hthere⟩ := work_keeps (Supervisor.step_move hplaced took)
    exact ⟨hplaced.step took, hsuits.keeps hstage hpreparing fun _ => hthere⟩
  | disarms | childMoves | publishes | alarmMoves => exact ⟨hplaced, hsuits⟩

theorem Stationed.run (hs : Stationed r) (h : run r acts = some (r', e)) : Stationed r' :=
  Machine.run_invariant (P := fun u _ _ => Stationed u) hs
    (fun _ _ _ _ _ _ _ hu hstep => Stationed.move hu (step_move hstep)) h

/-- What every move of a run that began afresh keeps, the run keeps. -/
theorem Fresh.run_moves {P : Run σ → List Action → List Entry → Prop} (hf : Fresh r)
    (hstart : P r [] [])
    (hmove : ∀ acts u e a w e', Run.run r acts = some (u, e) → Manned u → Stationed u → P u acts e →
      Move u a w e' → P w (acts ++ [a]) (e ++ e'))
    (h : Run.run r acts = some (r', e)) : P r' acts e :=
  Run.run_moves hf.manned hstart
    (fun acts u e a w e' hu hm hsofar hmoved =>
      hmove acts u e a w e' hu hm (hf.stationed.run hu) hsofar hmoved) h

end Corun.Run
