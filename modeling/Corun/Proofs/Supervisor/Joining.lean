import Corun.Proofs.Supervisor.Leftovers
import Corun.Proofs.Supervisor.Lifecycle

namespace Corun

/-- A context stands before all that is said already. -/
theorem Failure.message_within (context : Context) (f : Failure) :
    (f.within context).message = context.text ++ ": " ++ f.message := by
  obtain ⟨contexts, cause⟩ := f
  unfold message within
  cases contexts with
  | nil => simp [String.intercalate_cons_cons, String.intercalate_singleton]
  | cons c contexts => simp [String.intercalate_cons_cons]

namespace Supervisor

variable {σ : Type} [Strategy σ] {u v w : Supervisor σ} {s : σ} {a : Action} {e : List Entry}
  {acts : List Action} {calls : List (Hook × Result Unit)}

/-- The call of a hook that comes back in the next step of the worker, and what it comes to. -/
def callBack? (v : Supervisor σ) : Option (Hook × Result Unit) :=
  match v.worker, v.inbox with
  | .ticking s, _ => some (.tick, (Strategy.tick s).result)
  | .draining s, a :: _ => some (.event a, (Strategy.handle a s).result.map fun _ => ())
  | _, _ => none

/-- The calls that come back in an action. -/
def callsBack (v : Supervisor σ) (a : Action) : List (Hook × Result Unit) :=
  if a = .work then v.callBack?.toList else []

theorem callsBack_of_ne (h : a ≠ .work) : v.callsBack a = [] := if_neg h

/-- The calls of the worker that came back in a run, in the order in which they were made. -/
def loopCalls : Supervisor σ → List Action → List (Hook × Result Unit)
  | _, [] => []
  | v, a :: acts =>
    match step v a with
    | none => []
    | some (w, _) => v.callsBack a ++ loopCalls w acts

theorem loopCalls_append {e' : List Entry} (h : run v acts = some (u, e))
    (hstep : step u a = some (w, e')) :
    loopCalls v (acts ++ [a]) = loopCalls v acts ++ u.callsBack a := by
  induction acts generalizing v e with
  | nil =>
    obtain ⟨rfl, rfl⟩ := Machine.run_nil.mp h
    simp [loopCalls, hstep]
  | cons b acts ih =>
    obtain ⟨x, e₁, e₂, hb, hrest, rfl⟩ := Machine.run_cons.mp h
    simp only [List.cons_append, loopCalls, hb]
    rw [ih hrest, List.append_assoc]

theorem dispatch_result (a : Announcement) (s : σ) :
    (dispatch a s).result = (Strategy.handle a s).result.map fun _ => () := by
  unfold dispatch
  rcases hr : (Strategy.handle a s).result with stop | (_ | _) <;> simp [hr, Except.map]

def Well (calls : List (Hook × Result Unit)) : Prop := ∀ c ∈ calls, c.2 = .ok ()

theorem Well.and {c : Hook × Result Unit} (h : Well calls) (hc : c.2 = .ok ()) :
    Well (calls ++ [c]) := by
  intro d hd
  rcases List.mem_append.mp hd with hd | hd
  · exact h d hd
  · exact List.mem_singleton.mp hd ▸ hc

/-- What the calls of a loop came to that has led the worker to where it is. -/
inductive Led (v : Supervisor σ) (calls : List (Hook × Result Unit)) : Prop
  | goesOn (there : v.worker ≠ .absent) (busy : v.hasStopped = false) (well : Well calls)
  | left (s : σ) (there : v.worker = .exited s (.ok ())) (well : Well calls)
      (ended : v.finished = true)
  | failed (s : σ) (f : Failure) (earlier : List (Hook × Result Unit)) (hook : Hook)
      (there : v.worker = .exited s (.error f)) (well : Well earlier)
      (last : calls = earlier ++ [(hook, .error (.failed f))])
  | panicked (p : Panic) (earlier : List (Hook × Result Unit)) (hook : Hook)
      (there : v.worker = .panicked) (well : Well earlier)
      (last : calls = earlier ++ [(hook, .error (.panicked p))])

omit [Strategy σ] in
theorem Led.there (h : Led v calls) : v.worker ≠ .absent := by
  cases h with
  | goesOn there => exact there
  | left s there | failed s f earlier hook there | panicked p earlier hook there => simp [there]

omit [Strategy σ] in
/-- While the worker is at work, all is well. -/
theorem Led.well (h : Led v calls) (hbusy : v.hasStopped = false) : Well calls := by
  cases h with
  | goesOn _ _ well => exact well
  | left s there | failed s f earlier hook there | panicked p earlier hook there =>
    simp [hasStopped, there] at hbusy

omit [Strategy σ] in
/-- Nothing that happens beside the worker changes what has led it there. -/
theorem Led.beside (h : Led v calls) (hworker : w.worker = v.worker)
    (hfinished : v.finished = true → w.finished = true) : Led w calls := by
  cases h with
  | goesOn there busy well =>
    refine .goesOn (hworker ▸ there) ?_ well
    unfold hasStopped at busy ⊢
    rwa [hworker]
  | left s there well ended => exact .left s (hworker.trans there) well (hfinished ended)
  | failed s f earlier hook there well last =>
    exact .failed s f earlier hook (hworker.trans there) well last
  | panicked p earlier hook there well last =>
    exact .panicked p earlier hook (hworker.trans there) well last

/-- A call that comes back leads the worker on to the drain, or out of the loop. -/
theorem Well.led (h : Well calls) (hook : Hook) {result : Result Unit} {called : Step σ Unit}
    (hresult : called.result = result)
    (hworker : w.worker = (Worker.afterHook .draining called).1) :
    Led w (calls ++ [(hook, result)]) := by
  subst hresult
  rcases afterHook_cases .draining called with ⟨hr, hn⟩ | ⟨f, hr, hn⟩ | ⟨p, hr, hn⟩
  · rw [hn] at hworker
    exact .goesOn (by simp [hworker]) (by simp [hasStopped, hworker]) (h.and hr)
  · rw [hn] at hworker
    exact .failed called.state f calls hook hworker h (by rw [hr])
  · rw [hn] at hworker
    exact .panicked p calls hook hworker h (by rw [hr])

/-- A step of the worker, or one beside it, or the join. -/
theorem Led.move (h : Led v calls) (hp : Placed v) (hm : Move v a w e) :
    w.stage = .running ∧ Led w (calls ++ v.callsBack a) ∨ w.stage = .joined := by
  obtain ⟨hrunning, hidle, -⟩ := hp.running h.there
  cases hm with
  | posts | ends | refuses =>
    refine .inl ⟨hrunning, ?_⟩
    rw [callsBack_of_ne (by simp), List.append_nil]
    exact h.beside rfl (by simp)
  | joinsNone | joins | joinsPanicked => exact .inr rfl
  | leaves s there closed =>
    refine .inl ⟨hrunning, ?_⟩
    have hwell := h.well (by simp [hasStopped, there])
    exact .left s rfl (by simpa [callsBack, callBack?, there] using hwell) closed
  | goesOn s there | ticks s there =>
    refine .inl ⟨hrunning, ?_⟩
    have hwell := h.well (by simp [hasStopped, there])
    exact .goesOn (by simp) rfl (by simpa [callsBack, callBack?, there] using hwell)
  | drained s there empty =>
    refine .inl ⟨hrunning, ?_⟩
    have hwell := h.well (by simp [hasStopped, there])
    exact .goesOn (by simp) rfl (by simpa [callsBack, callBack?, there, empty] using hwell)
  | ticked s there =>
    refine .inl ⟨hrunning, ?_⟩
    have hwell := h.well (by simp [hasStopped, there])
    have hback : v.callsBack .work = [(.tick, (Strategy.tick s).result)] := by
      simp [callsBack, callBack?, there]
    rw [hback]
    exact hwell.led .tick rfl rfl
  | hands s x inbox there next =>
    refine .inl ⟨hrunning, ?_⟩
    have hwell := h.well (by simp [hasStopped, there])
    have hback : v.callsBack .work =
        [(.event x, (Strategy.handle x s).result.map fun _ => ())] := by
      simp [callsBack, callBack?, there, next]
    rw [hback]
    exact hwell.led (.event x) (dispatch_result x s) rfl
  | setsUp s stage | prepares stage | starts s stage | startFails s f stage | prepared s stage
  | delivers s x inbox stage | deliveryStops s x inbox stop stage | finalizes s stage
  | finalizesNone stage => cases hrunning.symm.trans stage

/-- The call that the worker is inside. -/
def callInside (v : Supervisor σ) : List Hook :=
  match v.worker with
  | .ticking _ => [.tick]
  | _ => []

theorem callInside_afterHook (called : Step σ Unit) (inbox : List Announcement) :
    callInside { v with inbox := inbox, worker := (Worker.afterHook .draining called).1 } = [] := by
  rcases afterHook_cases .draining called with ⟨-, hn⟩ | ⟨f, -, hn⟩ | ⟨p, -, hn⟩ <;>
    simp [callInside, hn]

/-- A call is seen when it is made, and counted when it comes back. -/
theorem move_seen (hv : v.stage = .running) (hw : w.stage = .running) (hm : Move v a w e) :
    callInside v ++ hooks e = (v.callsBack a).map Prod.fst ++ callInside w := by
  cases hm with
  | posts | ends | refuses => simp [callsBack, callInside]
  | leaves s there | goesOn s there | ticks s there =>
    simp [callsBack, callBack?, callInside, there]
  | drained s there empty => simp [callsBack, callBack?, callInside, there, empty]
  | ticked s there =>
    have hafter := callInside_afterHook (v := v) (Strategy.tick s) v.inbox
    simpa [callsBack, callBack?, callInside, there] using hafter
  | hands s x inbox there next =>
    have hafter := callInside_afterHook (v := v) (dispatch x s) inbox
    simpa [callsBack, callBack?, callInside, there, next] using hafter
  | setsUp s stage | prepares stage | starts s stage | startFails s f stage | prepared s stage
  | delivers s x inbox stage | deliveryStops s x inbox stop stage | finalizes s stage
  | finalizesNone stage => cases hv.symm.trans stage
  | joinsNone | joins | joinsPanicked => cases hw

theorem move_rank (hm : Move v a w e) : v.stage.rank ≤ w.stage.rank := by
  rcases move_stage hm with hsame | ⟨c, -, hbefore, hafter⟩
  · exact Nat.le_of_eq (congrArg Stage.rank hsame.symm)
  · rw [hbefore, hafter]
    cases c <;> decide

/-- From the start of the worker on, until it is joined. -/
theorem run_led (hp : Placed u) (hl : Led u []) (hinside : callInside u = [])
    (h : run u acts = some (v, e)) :
    (v.stage = .running ∧ Led v (loopCalls u acts) ∧
      hooks e = (loopCalls u acts).map Prod.fst ++ callInside v) ∨
    Stage.joined.rank ≤ v.stage.rank := by
  refine Machine.run_invariant (P := fun v acts e => (v.stage = .running ∧
      Led v (loopCalls u acts) ∧ hooks e = (loopCalls u acts).map Prod.fst ++ callInside v) ∨
    Stage.joined.rank ≤ v.stage.rank) ?_ ?_ h
  · exact .inl ⟨(hp.running hl.there).1, hl, by simp [loopCalls, hinside]⟩
  · intro acts v e a w e' hv hsofar hstep
    have hm := step_move (hp.run hv) hstep
    rcases hsofar with ⟨hstage, hled, hseen⟩ | hlate
    · rcases hled.move (hp.run hv) hm with ⟨hrunning, hled'⟩ | hjoined
      · refine .inl ⟨hrunning, loopCalls_append hv hstep ▸ hled', ?_⟩
        calc hooks (e ++ e')
            = (loopCalls u acts).map Prod.fst ++ (callInside v ++ hooks e') := by
              rw [hooks_append, hseen, List.append_assoc]
          _ = (loopCalls u (acts ++ [a])).map Prod.fst ++ callInside w := by
              rw [move_seen hstage hrunning hm, loopCalls_append hv hstep, List.map_append,
                List.append_assoc]
      · exact .inr (Nat.le_of_eq (congrArg Stage.rank hjoined.symm))
    · exact .inr (Nat.le_trans hlate (move_rank hm))

/-- Steps that the worker has left to make when the run is over and nothing more is announced. -/
def stepsLeft (v : Supervisor σ) : Nat :=
  match v.worker with
  | .checking _ => 1
  | .entering _ => v.inbox.length + 4
  | .ticking _ => v.inbox.length + 3
  | .draining _ => v.inbox.length + 2
  | _ => 0

omit [Strategy σ] in
theorem stepsLeft_le (v : Supervisor σ) : stepsLeft v ≤ v.inbox.length + 4 := by
  unfold stepsLeft
  split <;> omega

theorem stepsLeft_afterHook (called : Step σ Unit) (inbox : List Announcement) :
    stepsLeft { v with inbox := inbox, worker := (Worker.afterHook .draining called).1 } ≤
      inbox.length + 2 := by
  rcases afterHook_cases .draining called with ⟨-, hn⟩ | ⟨f, -, hn⟩ | ⟨p, -, hn⟩ <;>
    simp [stepsLeft, hn]

/-- A step of the worker leaves one less to make, and an announcement at most one more. -/
theorem move_stepsLeft (hf : v.finished = true) (hlate : Stage.running.rank ≤ v.stage.rank)
    (hm : Move v a w e) :
    w.finished = true ∧ stepsLeft w + [a].count .work ≤ stepsLeft v + (posted [a]).length := by
  cases hm with
  | posts x =>
    refine ⟨hf, ?_⟩
    cases hw : v.worker <;> simp [stepsLeft, posted, hw, Nat.add_right_comm]
  | ends => exact ⟨rfl, by simp [stepsLeft]⟩
  | refuses => exact ⟨hf, by simp⟩
  | joinsNone | joins | joinsPanicked | finalizes | finalizesNone =>
    exact ⟨hf, by simp [stepsLeft]⟩
  | leaves s there closed => exact ⟨hf, by simp [stepsLeft, there]⟩
  | goesOn s there open_ => cases hf.symm.trans open_
  | ticks s there => exact ⟨hf, by simp [stepsLeft, there]⟩
  | drained s there empty => exact ⟨hf, by simp [stepsLeft, there, empty]⟩
  | ticked s there =>
    have hafter := stepsLeft_afterHook (v := v) (Strategy.tick s) v.inbox
    have hhere : stepsLeft v = v.inbox.length + 3 := by simp [stepsLeft, there]
    exact ⟨hf, by simpa [posted, hhere] using hafter⟩
  | hands s x inbox there next =>
    have hafter := stepsLeft_afterHook (v := v) (dispatch x s) inbox
    have hhere : stepsLeft v = inbox.length + 3 := by simp [stepsLeft, there, next]
    exact ⟨hf, by simpa [posted, hhere] using hafter⟩
  | setsUp s stage | prepares stage | starts s stage | startFails s f stage | prepared s stage
  | delivers s x inbox stage | deliveryStops s x inbox stop stage =>
    simp [stage, Stage.rank] at hlate

theorem run_stepsLeft (hp : Placed v) (hf : v.finished = true)
    (hlate : Stage.running.rank ≤ v.stage.rank) (h : run v acts = some (w, e)) :
    acts.count .work ≤ stepsLeft v + (posted acts).length := by
  have hrun : (w.finished = true ∧ Stage.running.rank ≤ w.stage.rank) ∧
      stepsLeft w + acts.count .work ≤ stepsLeft v + (posted acts).length := by
    refine run_moves (P := fun u acts _ =>
      (u.finished = true ∧ Stage.running.rank ≤ u.stage.rank) ∧
        stepsLeft u + acts.count .work ≤ stepsLeft v + (posted acts).length) hp
      ⟨⟨hf, hlate⟩, by simp⟩ ?_ h
    intro acts u e a w e' _ _ hsofar hm
    obtain ⟨⟨hfu, hlateu⟩, hleft⟩ := hsofar
    obtain ⟨hfw, hstep⟩ := move_stepsLeft hfu hlateu hm
    refine ⟨⟨hfw, Nat.le_trans hlateu (move_rank hm)⟩, ?_⟩
    rw [List.count_append, posted_append, List.length_append]
    omega
  omega

/-- What is told of a loop that made these calls. -/
structure Told (name : String) (calls : List (Hook × Result Unit)) (v : Supervisor σ)
    (r : Result Unit) : Prop where
  well_iff : r = .ok () ↔ ∀ c ∈ calls, c.2 = .ok ()
  ended : r = .ok () → v.finished = true
  /-- The first call that fails is the last of all. -/
  failed : ∀ earlier hook f later, calls = earlier ++ (hook, .error (.failed f)) :: later →
    Well earlier ∧ later = [] ∧ r = .error (.failed (f.within (.supervising name)))
  panicked : ∀ earlier hook p later, calls = earlier ++ (hook, .error (.panicked p)) :: later →
    Well earlier ∧ later = [] ∧ r = .error (.failed (.ofCause (.monitorPanicked name)))

theorem Well.unstopped {earlier later : List (Hook × Result Unit)} {hook : Hook} {stop : Stop}
    (h : Well calls) : calls ≠ earlier ++ (hook, .error stop) :: later := by
  rintro rfl
  have hbad := h (hook, .error stop) (by simp)
  cases hbad

/-- When all was well before, nothing but the last call can have stopped the loop. -/
theorem Well.stopped {earlier later first : List (Hook × Result Unit)} {hook last : Hook}
    {stop stop' : Stop} (h : Well first)
    (hcalls : first ++ [(last, .error stop')] = earlier ++ (hook, .error stop) :: later) :
    Well earlier ∧ later = [] ∧ stop = stop' := by
  rcases Machine.concat_eq_split.mp hcalls with ⟨rfl, rfl, hlast⟩ | ⟨rest, -, rfl⟩
  · cases hlast
    exact ⟨h, rfl, rfl⟩
  · exact absurd rfl h.unstopped

omit [Strategy σ] in
theorem told_well {name : String} (h : Well calls) (hended : v.finished = true) :
    Told name calls v (.ok ()) where
  well_iff := ⟨fun _ => h, fun _ => rfl⟩
  ended _ := hended
  failed _ _ _ _ hcalls := absurd hcalls h.unstopped
  panicked _ _ _ _ hcalls := absurd hcalls h.unstopped

omit [Strategy σ] in
theorem told_stopped {name : String} {earlier : List (Hook × Result Unit)} {hook : Hook}
    {stop : Stop} {failure : Failure} (h : Well earlier)
    (hfailed : ∀ f, stop = .failed f → failure = f.within (.supervising name))
    (hpanicked : ∀ p, stop = .panicked p → failure = .ofCause (.monitorPanicked name)) :
    Told name (earlier ++ [(hook, .error stop)]) v (.error (.failed failure)) where
  well_iff := ⟨nofun, fun hwell => absurd rfl (Well.unstopped hwell)⟩
  ended := nofun
  failed _ _ f _ hcalls := by
    obtain ⟨hwell, hlater, hstop⟩ := h.stopped hcalls
    exact ⟨hwell, hlater, by rw [hfailed f hstop.symm]⟩
  panicked _ _ p _ hcalls := by
    obtain ⟨hwell, hlater, hstop⟩ := h.stopped hcalls
    exact ⟨hwell, hlater, by rw [hpanicked p hstop.symm]⟩

/-- The call comes back of a worker that left, failed or panicked. -/
theorem Led.joins (hl : Led v calls) (hp : Placed v) (h : step v (.call .join) = some (w, e)) :
    ∃ r, e = [.returned .join r] ∧ Told v.name calls v r := by
  obtain ⟨hstage, -, -⟩ := hp.running hl.there
  cases step_move hp h with
  | refuses c idle early => exact absurd hstage early
  | joinsNone stage there => exact absurd there hl.there
  | joinsPanicked stage there =>
    refine ⟨_, rfl, ?_⟩
    cases hl with
    | panicked p earlier hook _ well last =>
      refine last ▸ told_stopped well ?_ fun _ _ => rfl
      intro f hf
      cases hf
    | goesOn _ busy => simp [hasStopped, there] at busy
    | left s there' | failed s f earlier hook there' => cases there.symm.trans there'
  | joins s r stage there =>
    refine ⟨_, rfl, ?_⟩
    cases hl with
    | left s' there' well ended =>
      cases there.symm.trans there'
      exact told_well well ended
    | failed s' f earlier hook there' well last =>
      cases there.symm.trans there'
      refine last ▸ told_stopped well ?_ ?_
      · intro f' hf
        cases hf
        rfl
      · intro p hp
        cases hp
    | goesOn _ busy => simp [hasStopped, there] at busy
    | panicked p earlier hook there' => cases there.symm.trans there'

theorem join_taken_iff (hthere : v.worker ≠ .absent) (hp : Placed v) :
    (step v (.call .join)).isSome ↔ v.hasStopped = true := by
  obtain ⟨hstage, hidle, -⟩ := hp.running hthere
  simp only [step, call, hidle, hstage, Call.before, Bool.false_eq_true, if_false, if_true]
  unfold enter hasStopped
  cases hw : v.worker <;> simp_all

theorem stopped_or_works (hthere : v.worker ≠ .absent) :
    v.hasStopped = true ∨ (step v .work).isSome := by
  cases hw : v.worker with
  | absent => exact absurd hw hthere
  | exited | panicked => exact .inl (by simp [hasStopped, hw])
  | checking s => cases hf : v.finished <;> simp [step, work, hw, hf]
  | entering s | ticking s => simp [step, work, hw]
  | draining s => cases hi : v.inbox <;> simp [step, work, hw, hi]

/-- Nothing is handed out any more. -/
theorem over_keeps (ho : Over v) (hp : Placed v) (h : run v acts = some (w, e)) :
    w.inbox = v.inbox ++ posted acts := by
  have hlast := (ho.run hp h).2
  have hnone : handled e = [] := by
    apply List.filterMap_eq_nil_iff.mpr
    intro k hk
    rw [hlast k hk]
  simpa [hnone] using run_conserves hp h

/-- Between join and finalize the strategy stays where it is. -/
theorem joined_keeps (hp : Placed v) (hv : v.stage = .joined) (h : run v acts = some (w, e)) :
    w.stage = .joined ∧ w.strategy = v.strategy ∨ w.stage = .finalized := by
  refine run_moves (P := fun u _ _ =>
    u.stage = .joined ∧ u.strategy = v.strategy ∨ u.stage = .finalized) hp (.inl ⟨hv, rfl⟩) ?_ h
  rintro acts u e a w e' - hpu (⟨hstage, hs⟩ | hstage) hm
  · have hplaced : u.preparing = false ∧ u.worker = .absent := by simpa [Placed, hstage] using hpu
    cases hm with
    | posts | ends | refuses => exact .inl ⟨hstage, hs⟩
    | finalizes | finalizesNone => exact .inr rfl
    | setsUp t stage | prepares stage | starts t stage | startFails t f stage | joinsNone stage
    | joins t r stage | joinsPanicked stage | prepared t stage | delivers t x inbox stage
    | deliveryStops t x inbox stop stage => cases hstage.symm.trans stage
    | leaves t there | goesOn t there | ticks t there | ticked t there | drained t there
    | hands t x inbox there => cases hplaced.2.symm.trans there
  · refine .inr ?_
    rcases move_stage hm with hsame | ⟨c, -, hbefore, -⟩
    · exact hsame.trans hstage
    · rw [hstage] at hbefore
      cases c <;> cases hbefore

theorem finalize_taken {t : σ} (hp : Placed v) (hv : v.stage = .joined) (hs : v.strategy = some t) :
    ∃ w, step v (.call .finalize) = some (w, .hook .finalize :: notes (Strategy.finalize t)
      ++ [.returned .finalize (Strategy.finalize t).result]) := by
  have hplaced : v.preparing = false ∧ v.worker = .absent := by simpa [Placed, hv] using hp
  exact ⟨{ v with stage := .finalized, strategy := some (Strategy.finalize t).state },
    by simp [step, call, enter, Call.before, Call.after, hplaced.1, hv, hs]⟩

theorem finalize_passed (hp : Placed v) (hv : v.stage = .joined) (hs : v.strategy = none) :
    ∃ w, step v (.call .finalize) = some (w, [.returned .finalize (.ok ())]) := by
  have hplaced : v.preparing = false ∧ v.worker = .absent := by simpa [Placed, hv] using hp
  exact ⟨{ v with stage := .finalized },
    by simp [step, call, enter, Call.before, Call.after, hplaced.1, hv, hs]⟩

/-- What there is to join and to finalize where a worker has made these calls. -/
structure Joining (name : String) (calls : List (Hook × Result Unit)) (v : Supervisor σ) :
    Prop where
  /-- Join waits for the worker. -/
  waits : (step v (.call .join)).isSome ↔ v.hasStopped = true
  works : v.hasStopped = true ∨ (step v .work).isSome
  /-- Once the run is over the worker comes to its end, however its steps fall between others. -/
  ends : ∀ later w e, v.finished = true → run v later = some (w, e) →
    later.count .work ≤ v.inbox.length + 4 + (posted later).length
  gives : ∀ w e, step v (.call .join) = some (w, e) →
    ∃ r, e = [.returned .join r] ∧ Told name calls v r
  /-- What is in the inbox when the worker stops is not touched any more. -/
  keeps : ∀ later w e, v.hasStopped = true → run v later = some (w, e) →
    w.inbox = v.inbox ++ posted later
  finalizes : ∀ later w e, run v (.call .join :: later) = some (w, e) → w.stage = .joined →
    (∀ c ∈ calls, ∀ p, c.2 ≠ .error (.panicked p)) →
    ∃ t r x, v.worker = .exited t r ∧
      step w (.call .finalize) = some (x, .hook .finalize :: notes (Strategy.finalize t)
        ++ [.returned .finalize (Strategy.finalize t).result])
  passes : ∀ later w e, run v (.call .join :: later) = some (w, e) → w.stage = .joined →
    (∃ c ∈ calls, ∃ p, c.2 = .error (.panicked p)) →
    ∃ x, step w (.call .finalize) = some (x, [.returned .finalize (.ok ())])

omit [Strategy σ] in
theorem Led.over (hl : Led v calls) (hstopped : v.hasStopped = true) : Over v := by
  cases hl with
  | goesOn _ busy => cases hstopped.symm.trans busy
  | left s there => exact .inl ⟨s, _, there⟩
  | failed s f earlier hook there => exact .inl ⟨s, _, there⟩
  | panicked p earlier hook there => exact .inr (.inl there)

/-- The strategy comes back of a worker that did not panic, and is still there after the join. -/
theorem Led.brings (hl : Led v calls) (hp : Placed v)
    (h : run v (.call .join :: acts) = some (w, e)) (hw : w.stage = .joined) :
    (∃ t r, v.worker = .exited t r ∧ w.strategy = some t ∧
      ∀ c ∈ calls, ∀ p, c.2 ≠ .error (.panicked p)) ∨
    w.strategy = none ∧ ∃ c ∈ calls, ∃ p, c.2 = .error (.panicked p) := by
  obtain ⟨u, e₁, e₂, hjoin, hrest, rfl⟩ := Machine.run_cons.mp h
  obtain ⟨hstage, hidle, hnone⟩ := hp.running hl.there
  have hkeeps : u.stage = .joined → w.strategy = u.strategy := by
    intro hu
    rcases joined_keeps (hp.step hjoin) hu hrest with ⟨-, hs⟩ | hlate
    · exact hs
    · cases hw.symm.trans hlate
  cases step_move hp hjoin with
  | refuses c idle early => exact absurd hstage early
  | joinsNone _ there => exact absurd there hl.there
  | joins t r _ there =>
    refine .inl ⟨t, r, there, hkeeps rfl, ?_⟩
    cases hl with
    | left _ _ well =>
      intro c hc p hbad
      cases (well c hc).symm.trans hbad
    | failed _ f earlier hook _ well last =>
      subst last
      intro c hc p hbad
      rcases List.mem_append.mp hc with hc | hc
      · cases (well c hc).symm.trans hbad
      · cases List.mem_singleton.mp hc
        cases hbad
    | goesOn _ busy => simp [hasStopped, there] at busy
    | panicked p earlier hook there' => cases there.symm.trans there'
  | joinsPanicked _ there =>
    refine .inr ⟨(hkeeps rfl).trans hnone, ?_⟩
    cases hl with
    | panicked p earlier hook _ _ last =>
      subst last
      exact ⟨(hook, .error (.panicked p)), by simp, p, rfl⟩
    | goesOn _ busy => simp [hasStopped, there] at busy
    | left s there' | failed s f earlier hook there' => cases there.symm.trans there'

theorem Led.joining (hl : Led v calls) (hp : Placed v) : Joining v.name calls v where
  waits := join_taken_iff hl.there hp
  works := stopped_or_works hl.there
  ends later w e hf h := by
    have hstage := (hp.running hl.there).1
    have hleft := run_stepsLeft hp hf (Nat.le_of_eq (congrArg Stage.rank hstage.symm)) h
    have hle := stepsLeft_le v
    omega
  gives w e h := hl.joins hp h
  keeps later w e hstopped h := over_keeps (hl.over hstopped) hp h
  finalizes later w e h hw hcalls := by
    rcases hl.brings hp h hw with ⟨t, r, there, hs, -⟩ | ⟨-, c, hc, p, hbad⟩
    · obtain ⟨x, hx⟩ := finalize_taken (hp.run h) hw hs
      exact ⟨t, r, x, there, hx⟩
    · exact absurd hbad (hcalls c hc p)
  passes later w e h hw hcalls := by
    rcases hl.brings hp h hw with ⟨t, r, -, -, hno⟩ | ⟨hs, -⟩
    · obtain ⟨c, hc, p, hbad⟩ := hcalls
      exact absurd hbad (hno c hc p)
    · exact finalize_passed (hp.run h) hw hs

theorem move_name (hm : Move v a w e) : w.name = v.name := by
  cases hm <;> rfl

theorem run_name (hp : Placed v) (h : run v acts = some (w, e)) : w.name = v.name :=
  run_moves (P := fun u _ _ => u.name = v.name) hp rfl
    (fun _ _ _ _ _ _ _ _ hsofar hm => (move_name hm).trans hsofar) h

/-- A start that came back well leaves the worker about to look at the flag. -/
theorem move_started (hm : Move v (.call .start) w e) (hr : .returned .start (.ok ()) ∈ e) :
    ∃ s, w.worker = .checking s := by
  cases hm with
  | starts s => exact ⟨s, rfl⟩
  | startFails s f =>
    cases hd : (Strategy.discard s).1 <;> simp [hd, Except.bind] at hr
  | refuses c idle early => simp [Result.panics] at hr

/-- After a start that came back well, where the supervisor is not yet joined: what is seen of the
worker are its calls, and what join and finalize come to is told by what the calls came to. -/
theorem join_tells_how_the_calls_came_out (s : σ) (spawn : Except Failure Unit)
    {before during : List Action} {t u v : Supervisor σ} {e₁ e₂ e₃ : List Entry}
    (hbefore : run (create s spawn) before = some (t, e₁))
    (hstart : step t (.call .start) = some (u, e₂)) (hstarted : .returned .start (.ok ()) ∈ e₂)
    (hduring : run u during = some (v, e₃)) (hdue : v.stage = .running) :
    hooks e₃ = (loopCalls u during).map Prod.fst ++ callInside v ∧
      Joining (Strategy.name s) (loopCalls u during) v := by
  have hpt := (create_placed s spawn).run hbefore
  have hpu := hpt.step hstart
  obtain ⟨r, hr⟩ := move_started (step_move hpt hstart) hstarted
  have hled : Led u [] := .goesOn (by simp [hr]) (by simp [hasStopped, hr]) (by simp [Well])
  have hname : v.name = Strategy.name s := by
    rw [run_name hpu hduring, move_name (step_move hpt hstart),
      run_name (create_placed s spawn) hbefore]
    rfl
  rcases run_led hpu hled (by simp [callInside, hr]) hduring with ⟨-, hl, hseen⟩ | hlate
  · exact ⟨hseen, hname ▸ hl.joining (hpu.run hduring)⟩
  · simp [hdue, Stage.rank] at hlate

/-- The handler of the second announcement fails. Join says so, a third announcement stays in the
inbox with one that is posted between join and finalize, and the last hook runs. -/
theorem failed_handler_told_by_join :
    let start : Supervisor Strategy.Script :=
      create { name := "script", handlers := [(2, { outcome := .fails "refused" })] }
    let before : List Action := [.call .setUp, .call .prepare, .deliver]
    let during : List Action :=
      [.post (.created 1), .work, .work, .post (.created 2), .post (.created 3), .work, .work,
        .work]
    let after : List Action := [.call .join, .post (.created 4)]
    ∃ t u v w x e₁ e₂ e₃ e₄ f, run start before = some (t, e₁) ∧
      step t (.call .start) = some (u, e₂) ∧ run u during = some (v, e₃) ∧
      hooks e₃ = [.tick, .event (.created 1), .event (.created 2)] ∧
      run v after = some (w, [.returned .join (.error (.failed f))]) ∧
      f.message = "execution monitor script failed: refused" ∧ w.inbox = [.created 3, .created 4] ∧
      step w (.call .finalize) = some (x, e₄) ∧ .finalize ∈ hooks e₄ := by
  intro start before during after
  obtain ⟨t, u, v, e₁, e₂, e₃, hbefore, hstart, hstarted, hduring, hidle, hdue, hstopped, hinbox,
      hinside, hcalls⟩ : ∃ t u v e₁ e₂ e₃, run start before = some (t, e₁) ∧
      step t (.call .start) = some (u, e₂) ∧ .returned .start (.ok ()) ∈ e₂ ∧
      run u during = some (v, e₃) ∧ v.preparing = false ∧ v.stage = Call.join.before ∧
      v.hasStopped = true ∧ v.inbox = [.created 3] ∧ callInside v = [] ∧
      loopCalls u during = [(.tick, .ok ()), (.event (.created 1), .ok ()),
        (.event (.created 2), Result.fail (.scripted "refused"))] :=
    ⟨_, _, _, _, _, _, rfl, rfl, List.mem_singleton.mpr rfl, rfl, rfl, rfl, rfl, rfl, rfl, rfl⟩
  obtain ⟨hseen, hjoining⟩ :=
    join_tells_how_the_calls_came_out _ _ hbefore hstart hstarted hduring hdue
  rw [hcalls] at hseen hjoining
  obtain ⟨y, ey, hjoin, hlate⟩ := due_call_taken hidle hdue fun _ => .inr hstopped
  obtain ⟨r, rfl, htold⟩ := hjoining.gives y ey hjoin
  obtain ⟨-, -, rfl⟩ := htold.failed [(.tick, .ok ()), (.event (.created 1), .ok ())] _ _ [] rfl
  have hafter : run v after =
      some ({ y with inbox := y.inbox ++ [.created 4] }, [.returned .join _]) :=
    Machine.run_cons.mpr ⟨_, _, _, hjoin, rfl, rfl⟩
  obtain ⟨s, _, x, -, hfinalize⟩ := hjoining.finalizes _ _ _ hafter hlate (by simp [Result.fail])
  refine ⟨t, u, v, _, x, e₁, e₂, e₃, _, _, hbefore, hstart, hduring, ?_, hafter, ?_, ?_,
    hfinalize, ?_⟩
  · rw [hseen, hinside]
    rfl
  · rw [Failure.message_within]
    rfl
  · rw [hjoining.keeps _ _ _ hstopped hafter, hinbox]
    rfl
  · simp

end Supervisor

end Corun
