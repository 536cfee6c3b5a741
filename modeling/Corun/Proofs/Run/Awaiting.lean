import Corun.Proofs.Run.Lives
import Corun.Proofs.Watch.Moves

namespace Corun.Run
open Os Child

/-- The processes that the tasks of the watch have published, in that order. -/
def published (acts : List Action) : List Pid :=
  acts.filterMap fun
    | .publish pid => some pid
    | _ => none

@[simp] theorem published_nil : published [] = [] := rfl

@[simp] theorem published_append (acts acts' : List Action) :
    published (acts ++ acts') = published acts ++ published acts' := List.filterMap_append

variable {σ : Type} [Strategy σ] {r r' : Run σ} {a : Action} {e e' lines : List Entry} {k : Nat}
  {p : Position} {acts : List Action} {pid : Pid} {x : Except Failure Termination}
  {g g' : Gated} {ge : List Gated.Entry} {task : Watch.Task}

/-- What awaiting a child has come to. A child whose end is known is reaped. -/
def Awaited (r : Run σ) (e : List Entry) (k : Nat) (pid : Pid) : Except Failure Termination → Prop
  | .ok t => ∃ g status, r.children[k]? = some g ∧ g.pid? = some pid ∧ g.life = .reaped status ∧
    Termination.ofStatus? status = some t ∧ .child k (.returned watcher .await (.ok (.ended t))) ∈ e
  | .error f => ∃ g, r.children[k]? = some g ∧ g.pid? = some pid ∧
    .child k (.returned watcher .await (.error (.failed f))) ∈ e

omit [Strategy σ] in
theorem Awaited.there (h : Awaited r e k pid x) : ∃ g, r.children[k]? = some g ∧ g.pid? = some pid := by
  cases x with
  | ok t =>
    obtain ⟨g, -, hg, hpid, -⟩ := h
    exact ⟨g, hg, hpid⟩
  | error f =>
    obtain ⟨g, hg, hpid, -⟩ := h
    exact ⟨g, hg, hpid⟩

theorem Awaited.move (h : Awaited r e k pid x) (hm : Manned r) (hmove : Move r a r' e') :
    Awaited r' (e ++ e') k pid x := by
  cases x with
  | ok t =>
    obtain ⟨g, status, hg, hpid, hlife, hstatus, hx⟩ := h
    obtain ⟨g', hg', hchild⟩ := hm.childStep hmove hg
    exact ⟨g', status, hg', hchild.later.pid.trans hpid, hchild.later.reaped status hlife, hstatus,
      List.mem_append_left _ hx⟩
  | error f =>
    obtain ⟨g, hg, hpid, hx⟩ := h
    obtain ⟨g', hg', hchild⟩ := hm.childStep hmove hg
    exact ⟨g', hg', hchild.later.pid.trans hpid, List.mem_append_left _ hx⟩

/-- A task of the watch stands where awaiting its child stands. -/
def Explains (r : Run σ) (e : List Entry) (k : Nat) (pid : Pid) : Watch.Task → Prop
  | .awaiting => ∃ g, r.children[k]? = some g ∧ g.pid? = some pid
  | .publishing x | .ended x => Awaited r e k pid x
  | .panicked _ => False

theorem Explains.move (h : Explains r e k pid task) (hm : Manned r) (hmove : Move r a r' e') :
    Explains r' (e ++ e') k pid task := by
  cases task with
  | awaiting =>
    obtain ⟨g, hg, hpid⟩ := h
    obtain ⟨g', hg', hchild⟩ := hm.childStep hmove hg
    exact ⟨g', hg', hchild.later.pid.trans hpid⟩
  | publishing x | ended x => exact Awaited.move h hm hmove
  | panicked q => exact h

theorem returned?_mem {t : Nat} {res : Result Answer} (h : Gated.returned? t ge = some res) :
    ∃ c, .returned t c res ∈ ge := by
  obtain ⟨y, hy, hres⟩ := List.exists_of_findSome?_eq_some h
  cases y with
  | returned u c res' =>
    simp only [Gated.Entry.returned?] at hres
    split at hres
    · rename_i hu
      cases hres
      exact ⟨c, hu ▸ hy⟩
    · cases hres
  | _ => cases hres

omit [Strategy σ] in
/-- What awaiting a child comes to beside the manager, the task that awaits it takes as its own. -/
theorem settled_explained {res : Result Answer} (hbackground : Gated.BackgroundStep manager g g' ge)
    (hback : Gated.returned? watcher ge = some res) (hk : r.children[k]? = some g')
    (hpid : g'.pid? = some pid) (hseen : ∀ y ∈ ge, .child k y ∈ e) :
    Explains r e k pid (.settled (awaited res)) := by
  obtain ⟨c, hmem⟩ := returned?_mem hback
  obtain rfl : c = .await := by
    rcases hbackground.shown _ hmem with ⟨_, h⟩ | ⟨_, h⟩ | ⟨_, _, _, h⟩
    · cases h
    · cases h
    · cases h
      rfl
  rcases hbackground.answered watcher res (by decide) hback with ⟨t, rfl, htold, hphase⟩ | ⟨f, rfl⟩
  · obtain ⟨status, hlife⟩ := hbackground.tended.reaped.mp hphase
    obtain ⟨t', hstatus, htold'⟩ := hbackground.tended.told status hlife
    cases htold.symm.trans htold'
    exact ⟨g', status, hk, hpid, hlife, hstatus, hseen _ hmem⟩
  · exact ⟨g', hk, hpid, hseen _ hmem⟩

/-- The pids that the watch was given. -/
def Position.given (names : List (Option Pid)) : Position → List (Option Pid)
  | enlisting k => names.take k
  | _ => names

structure Tracking (r : Run σ) (acts : List Action) (e : List Entry) : Prop where
  somebody : r.position = .entering ∨ r.benchmarks ≠ []
  sound : r.watch.Sound
  queued : r.watch.published = published acts
  tracked : ∀ pid, some pid ∈ r.position.given r.names → r.watch.contains pid = true
  apart : (r.position.given r.names).Nodup
  known : ∀ pid task, PidMap.find? pid r.watch.tasks = some task → ∃ k, Explains r e k pid task

omit [Strategy σ] in
theorem Tracking.names_nodup (ht : Tracking r acts e) (hl : r.position.isEarly = false) :
    r.names.Nodup := by
  have hapart := ht.apart
  unfold Position.given at hapart
  split at hapart
  · rename_i here
    simp [here, Position.isEarly, Position.phase] at hl
  · exact hapart

/-- Nothing happens to the watch. -/
theorem Tracking.keeps {u : Run σ} (ht : Tracking r acts e) (hm : Manned r) (h : Move r a u e')
    (hsome : u.position = .entering ∨ r.benchmarks ≠ []) (hwatch : u.watch = r.watch)
    (hgiven : u.position.given u.names = r.position.given r.names) (ha : published [a] = []) :
    Tracking u (acts ++ [a]) (e ++ e') := by
  refine ⟨h.sameTask.benchmarks ▸ hsome, hwatch ▸ ht.sound, ?_, ?_, hgiven ▸ ht.apart, ?_⟩
  · rw [hwatch, ht.queued, published_append, ha, List.append_nil]
  · rw [hwatch, hgiven]
    exact ht.tracked
  · intro pid task htask
    obtain ⟨k, hk⟩ := ht.known pid task (hwatch ▸ htask)
    exact ⟨k, hk.move hm h⟩

/-- The watch accepts a child. -/
theorem Tracking.enlists {w : Watch} {we : List Watch.Entry} {thread : Except Failure Unit}
    (ht : Tracking r acts e) (hm : Manned r) (h : Move r a r' e')
    (here : r.position = .enlisting k) (hk : r.children[k]? = some g) (hpid : g.pid? = some pid)
    (took : r.watch.step (.add pid thread) = some (w, we)) (accepted : refusal? we = none)
    (hwatch : r'.watch = w) (hposition : r'.position = .creating (k + 1))
    (ha : published [a] = []) : Tracking r' (acts ++ [a]) (e ++ e') := by
  have hcounted : r.children.length = k + 1 := hm.counted_at here
  have hnames : r'.names = r.names := by
    rcases h.names hm with hnames | ⟨j, _, _, hj, -⟩
    · exact hnames
    · exact absurd (here.symm.trans hj) (by simp)
  have hall : r.names = r.names.take k ++ [some pid] := by
    have hlast : r.names[k]? = some (some pid) := by simp [names, hk, hpid]
    have hlength : r.names.length = k + 1 := by simp [names, hcounted]
    calc r.names = r.names.take (k + 1) := (List.take_of_length_le (by omega)).symm
      _ = r.names.take k ++ [some pid] := by rw [List.take_add_one, hlast]; rfl
  have htracked := ht.tracked
  have hapart := ht.apart
  rw [here] at htracked hapart
  have hsome : r.benchmarks ≠ [] := by simpa [here] using ht.somebody
  cases Watch.step_move ht.sound took with
  | refuses | lacksThread => cases accepted
  | findsNobody _ waits | takes _ _ _ _ waits => cases waits
  | adds _ fresh =>
    refine ⟨.inr (h.sameTask.benchmarks ▸ hsome), hwatch ▸ ht.sound.step took, ?_, ?_, ?_, ?_⟩
    · rw [hwatch, published_append, ha, List.append_nil]
      exact ht.queued
    · intro q hq
      rw [hposition, hnames] at hq
      change some q ∈ r.names at hq
      rw [hall, List.mem_append, List.mem_singleton] at hq
      rw [hwatch, Watch.contains, PidMap.contains_insert]
      exact hq.symm.imp Option.some.inj (htracked q)
    · rw [hposition, hnames]
      change r.names.Nodup
      rw [hall]
      refine List.nodup_append.mpr ⟨hapart, by simp, ?_⟩
      rintro q hq _ hlast rfl
      -- All earlier pids are tracked, and the watch has just found that this one is not.
      rw [List.mem_singleton.mp hlast] at hq
      exact absurd ((htracked pid hq).symm.trans fresh) (by simp)
    · intro q task htask
      rw [hwatch, PidMap.find?_insert] at htask
      split at htask
      · rename_i hq
        cases htask
        obtain ⟨g', hg', hchild⟩ := hm.childStep h hk
        exact ⟨k, g', hg', hchild.later.pid.trans (hq ▸ hpid)⟩
      · obtain ⟨j, hj⟩ := ht.known q task htask
        exact ⟨j, hj.move hm h⟩

/-- A task learns what awaiting its child has come to. -/
theorem Tracking.settles {ga : Gated.Action} {res : Result Answer} {w : Watch}
    {we : List Watch.Entry} (ht : Tracking r acts e) (hm : Manned r)
    (h : Move r (.child k ga) r' (ofChild k ge))
    (hbackground : Gated.BackgroundStep manager g g' ge)
    (hk : r'.children[k]? = some g') (hback : Gated.returned? watcher ge = some res)
    (hpid : g'.pid? = some pid) (took : r.watch.step (.settle pid (awaited res)) = some (w, we))
    (hwatch : r'.watch = w) (hposition : r'.position = r.position) (hnames : r'.names = r.names) :
    Tracking r' (acts ++ [.child k ga]) (e ++ ofChild k ge) := by
  have hsound := ht.sound.step took
  cases Watch.step_move ht.sound took with
  | findsNobody _ waits | takes _ _ _ _ waits => cases waits
  | settles _ _ due =>
    refine ⟨hposition ▸ h.sameTask.benchmarks ▸ ht.somebody, hwatch ▸ hsound, ?_, ?_, ?_, ?_⟩
    · rw [hwatch, published_append]
      exact ht.queued.trans (List.append_nil _).symm
    · intro q hq
      rw [hposition, hnames] at hq
      rw [hwatch, Watch.contains, PidMap.contains_insert]
      exact .inr (ht.tracked q hq)
    · rw [hposition, hnames]
      exact ht.apart
    · intro q task htask
      rw [hwatch, PidMap.find?_insert] at htask
      split at htask
      · rename_i hq
        cases htask
        refine ⟨k, settled_explained hbackground hback hk (hq ▸ hpid) ?_⟩
        intro y hy
        exact List.mem_append_right _ (by simp [ofChild, hy])
      · obtain ⟨j, hj⟩ := ht.known q task htask
        exact ⟨j, hj.move hm h⟩

omit [Strategy σ] in
theorem Tracking.publishes {w : Watch} {we : List Watch.Entry} (ht : Tracking r acts e)
    (took : r.watch.step (.publish pid) = some (w, we)) :
    Tracking { r with watch := w } (acts ++ [.publish pid]) (e ++ []) := by
  have hsound := ht.sound.step took
  have hknown := ht.known
  cases Watch.step_move ht.sound took with
  | findsNobody _ waits | takes _ _ _ _ waits => cases waits
  | publishes _ x due =>
    rw [List.append_nil]
    refine ⟨ht.somebody, hsound, ?_, ?_, ht.apart, ?_⟩
    · rw [published_append, ← ht.queued]
      rfl
    · intro q hq
      rw [Watch.contains, PidMap.contains_insert]
      exact .inr (ht.tracked q hq)
    · intro q task htask
      rw [PidMap.find?_insert] at htask
      split at htask
      · rename_i hq
        cases htask
        exact hq ▸ hknown pid _ due
      · exact hknown q task htask

/-- The manager gives the watch nothing, and finds that there are children to be watched. -/
theorem Jump.given (names : List (Option Pid)) (h : Jump r p lines) :
    p.given names = r.position.given names ∧
      (p.isWatching = true → r.position = .entering → r.benchmarks ≠ []) := by
  cases h with
  | enters _ here somebody => exact ⟨by rw [here]; rfl, fun _ _ => somebody⟩
  | lacksBenchmarks here => exact ⟨by rw [here]; rfl, fun h => by cases h⟩
  | allCreated _ here | allStarted _ here | unlimited here | unarmable _ here | limitReached _ here
  | limitAhead here | supervisorGone here | supervisorThere here | unarmed _ here | cleans _ _ here
  | allKilled _ _ here | keeps _ _ _ here | allReleased _ _ here | concludes _ here =>
    rw [here]
    exact ⟨rfl, fun _ h => by cases h⟩

theorem Position.given_afterStop (names : List (Option Pid)) (stop : Stop) :
    (Position.afterStop stop).given names = names := by
  cases stop <;> rfl

omit [Strategy σ] in
theorem after_given {va : Supervisor.Action} (names : List (Option Pid))
    (hdue : r.dueCall? = some va) (res : Result Unit) :
    (r.position.after res).given names = r.position.given names := by
  rcases dueCall?_cases hdue with here | here | here | ⟨outcome, here⟩ | ⟨outcome, joined, here⟩ <;>
  · rw [here]
    rcases res with (f | q) | _ <;> rfl

omit [Strategy σ] in
theorem Drive.given {c : Call} {res : Option (Result Answer)} (names : List (Option Pid))
    (h : Drive r g k c res p lines) :
    p.given names = r.position.given names ∧ r.position ≠ .entering := by
  cases h with
  | startStops stop stop' here =>
    rw [here, Position.given_afterStop]
    exact ⟨rfl, by simp⟩
  | startGoesOn here | started _ here | killGoesOn _ here | killed _ _ _ here
  | releaseGoesOn _ _ _ here | released _ _ here =>
    rw [here]
    exact ⟨rfl, by simp⟩

omit [Strategy σ] in
/-- With a pid of its own for each child, a child is found by its pid. -/
theorem benchmarkOf?_eq (hapart : r.names.Nodup) (hk : r.children[k]? = some g)
    (hpid : g.pid? = some pid) : r.benchmarkOf? pid = r.benchmarks[k]? := by
  obtain ⟨hlt, hg⟩ := List.getElem?_eq_some_iff.mp hk
  have hfound : r.children.findIdx? (fun g => g.pid? == some pid) = some k := by
    refine List.findIdx?_eq_some_iff_getElem.mpr ⟨hlt, by simp [hg, hpid], ?_⟩
    intro j hj hsame
    have hnames : r.names[j]? = r.names[k]? := by
      have hjg := List.getElem?_eq_getElem (Nat.lt_trans hj hlt)
      simp [names, hk, hjg, hpid, eq_of_beq hsame]
    have hjk := (List.getElem?_inj (by simpa [names] using Nat.lt_trans hj hlt) hapart).mp hnames
    omega
  simp [benchmarkOf?, hfound]

omit [Strategy σ] in
/-- What polling the watch comes to: nothing was published so far, or the first process that was is
taken, with what awaiting it has come to. -/
theorem Tracking.poll {w : Watch} {we : List Watch.Entry} (ht : Tracking r acts e) (hm : Manned r)
    (here : r.position = .polling) (took : r.watch.step .waitTimed = some (w, we))
    (leads : Poll r we p lines) :
    (p = .checkingLimit ∧ w = r.watch ∧ published acts = []) ∨
      ∃ k pid x, (published acts).head? = some pid ∧ Awaited r e k pid x ∧
        ((∃ b t, x = .ok t ∧ r.benchmarks[k]? = some b ∧
            p = .disarming (.ok (.completed b pid t))) ∨
          ∃ f, x = .error f ∧ p = .disarming (.error (f.within (.collecting pid)))) := by
  have hcounted : r.children.length = r.benchmarks.length := hm.counted_at here
  have htracked := ht.tracked
  have hapart := ht.apart
  rw [here] at htracked hapart
  change r.names.Nodup at hapart
  cases Watch.step_move ht.sound took with
  | findsNobody _ waits nobody =>
    have hsome : r.benchmarks ≠ [] := by simpa [here] using ht.somebody
    have hpos := List.length_pos_iff.mpr hsome
    obtain ⟨g, hg⟩ : ∃ g, r.children[0]? = some g := ⟨_, List.getElem?_eq_getElem (hcounted ▸ hpos)⟩
    obtain ⟨pid, hpid⟩ := (hm.tended 0 g hg).named
    have hthere := htracked pid (List.mem_map.mpr ⟨g, List.mem_of_getElem? hg, hpid⟩)
    rw [Watch.contains, nobody] at hthere
    cases hthere
  | givesUp tracked silent =>
    have hback : Watch.returned? [.returned (.ok none)] = some (.ok none) := rfl
    cases leads with
    | nothing => exact .inl ⟨rfl, rfl, ht.queued.symm.trans silent⟩
    | fails _ got | takes _ _ _ _ got | unknown _ _ got => cases hback.symm.trans got
  | takes _ pid rest x waits next due =>
    obtain ⟨k, hk⟩ := ht.known pid _ due
    obtain ⟨g, hg, hpid⟩ := Awaited.there hk
    have hfirst : (published acts).head? = some pid := by rw [← ht.queued, next]; rfl
    refine .inr ⟨k, pid, x, hfirst, hk, ?_⟩
    have hback : Watch.returned? [.returned (Watch.reportOf pid x)] = some (Watch.reportOf pid x) := rfl
    cases leads with
    | fails f got =>
      cases x with
      | ok t => cases hback.symm.trans got
      | error f' =>
        cases hback.symm.trans got
        exact .inr ⟨f', rfl, rfl⟩
    | takes q t b line got known =>
      cases x with
      | ok t' =>
        cases hback.symm.trans got
        rw [benchmarkOf?_eq hapart hg hpid] at known
        exact .inl ⟨b, t, rfl, known, rfl⟩
      | error f => cases hback.symm.trans got
    | unknown q t got stranger =>
      cases x with
      | ok t' =>
        cases hback.symm.trans got
        rw [benchmarkOf?_eq hapart hg hpid] at stranger
        have hlt := (List.getElem?_eq_some_iff.mp hg).1
        have hle := List.getElem?_eq_none_iff.mp stranger
        omega
      | error f => cases hback.symm.trans got
    | nothing got => rcases got with got | got <;> cases x <;> cases hback.symm.trans got

theorem Tracking.move (ht : r.position.isWatching = true → Tracking r acts e) (hm : Manned r)
    (h : Move r a r' e') (hl : r'.position.isWatching = true) :
    Tracking r' (acts ++ [a]) (e ++ e') := by
  have hmove := h
  have ht := ht (h.watching hl)
  have hlater : ∀ {va}, r.dueCall? = some va → r.benchmarks ≠ [] := by
    intro va hdue
    refine ht.somebody.resolve_left ?_
    intro hentering
    simp [dueCall?, hentering] at hdue
  cases h with
  | jumps p lines leads =>
    obtain ⟨hgiven, henters⟩ := leads.given r.names
    exact ht.keeps hm hmove (.inr (ht.somebody.elim (henters hl) id)) rfl hgiven rfl
  | supervises va v ve due took open_ => exact ht.keeps hm hmove (.inr (hlater due)) rfl rfl rfl
  | supervised va v ve res due took back =>
    exact ht.keeps hm hmove (.inr (hlater due)) rfl (after_given r.names due res) rfl
  | creates k b pid here next forked =>
    have hsome : r.benchmarks ≠ [] := by simpa [here] using ht.somebody
    have hcounted : r.children.length = k := hm.counted_at here
    refine ht.keeps hm hmove (.inr hsome) rfl ?_ rfl
    simp [here, Position.given, names, ← hcounted]
  | enlists k g g' pid w we ge here there named took accepted =>
    exact ht.enlists hm hmove here there named took accepted rfl rfl rfl
  | drives k c g g' ge p lines there took leads =>
    obtain ⟨hgiven, hlater⟩ := leads.given r.names
    have hnames : Run.names ({ r with children := r.children.set k g' }.goTo p) = r.names :=
      names_set there (hm.ownerStep there leads took).later.pid rfl
    exact ht.keeps hm hmove (.inr (ht.somebody.resolve_left hlater)) rfl
      ((congrArg (fun names => p.given names) hnames).trans hgiven) rfl
  | arms here =>
    have hsome : r.benchmarks ≠ [] := by simpa [here] using ht.somebody
    exact ht.keeps hm hmove (.inr hsome) rfl (by rw [here]; rfl) rfl
  | polls w we p lines here took leads =>
    have hsome : r.benchmarks ≠ [] := by simpa [here] using ht.somebody
    obtain ⟨rfl, rfl, -⟩ | ⟨_, _, _, -, -, ⟨_, _, -, -, rfl⟩ | ⟨_, -, rfl⟩⟩ :=
      ht.poll hm here took leads
    · exact ht.keeps hm hmove (.inr hsome) rfl (by rw [here]; rfl) rfl
    · cases hl
    · cases hl
  | childMoves k ga g g' ge w background there took hears =>
    have hbackground := background_backgroundStep (hm.tended k g there) background took
    have hnames : ∀ w, Run.names { r with children := r.children.set k g', watch := w } = r.names :=
      fun w => names_set there hbackground.later.pid rfl
    have hlt := (List.getElem?_eq_some_iff.mp there).1
    cases hears with
    | nothing => exact ht.keeps hm hmove ht.somebody rfl (by rw [hnames]) rfl
    | settles res pid _ we back named took =>
      exact ht.settles hm hmove hbackground (List.getElem?_set_self hlt) back named took rfl rfl
        (hnames _)
  | publishes pid w we took => exact ht.publishes took
  | works | alarmMoves =>
    exact ht.keeps hm hmove ht.somebody rfl rfl rfl
  | ends p lines leads => cases leads <;> cases hl
  | disarms _ _ _ _ here =>
    simp only [here] at hl
    cases hl
  | createFails | enlistFails | disarmed | drains => cases hl

theorem Fresh.tracking (hf : Fresh r) (h : run r acts = some (r', e))
    (hl : r'.position.isWatching = true) : Tracking r' acts e := by
  refine run_moves (P := fun u acts e => u.position.isWatching = true → Tracking u acts e) hf.manned
    ?_ ?_ h hl
  · intro _
    refine ⟨.inl hf.position, hf.watch ▸ Watch.empty_sound, by simp [hf.watch, Watch.empty], ?_, ?_, ?_⟩
    · simp [hf.position, Position.given, names, hf.children]
    · simp [hf.position, Position.given, names, hf.children]
    · simp [hf.watch, Watch.empty, PidMap.find?_nil]
  · intro acts u e a w e' _ hm ht hmoved hl
    exact Tracking.move ht hm hmoved hl

end Corun.Run
