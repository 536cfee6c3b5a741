import Corun.Proofs.Child.Alone
import Corun.Proofs.Child.OwnerSteps
import Corun.Proofs.Run.Moves
import Corun.Run.State

namespace Corun.Run
open Os Child

@[simp] theorem entriesOf_nil (k : Nat) : entriesOf k [] = [] := rfl

@[simp] theorem entriesOf_append (k : Nat) (e e' : List Entry) :
    entriesOf k (e ++ e') = entriesOf k e ++ entriesOf k e' := List.filterMap_append

@[simp] theorem entriesOf_child (k i : Nat) (x : Gated.Entry) (e : List Entry) :
    entriesOf k (.child i x :: e) = if i = k then x :: entriesOf k e else entriesOf k e := by
  by_cases h : i = k <;> simp [entriesOf, h]

@[simp] theorem entriesOf_ofChild (k i : Nat) (ge : List Gated.Entry) :
    entriesOf k (ofChild i ge) = if i = k then ge else [] := by
  induction ge with
  | nil => simp [ofChild]
  | cons x ge ih =>
    have hcons : ofChild i (x :: ge) = .child i x :: ofChild i ge := rfl
    rw [hcons, entriesOf_child, ih]
    split <;> rfl

@[simp] theorem entriesOf_ofSupervisor (k : Nat) (ve : List Supervisor.Entry) :
    entriesOf k (ofSupervisor ve) = [] := by
  simp [entriesOf, ofSupervisor]

theorem mem_entriesOf {k : Nat} {x : Gated.Entry} {e : List Entry} :
    x ∈ entriesOf k e ↔ Entry.child k x ∈ e := by
  simp only [entriesOf, List.mem_filterMap]
  constructor
  · rintro ⟨y, hy, hx⟩
    split at hx
    · split at hx
      · rename_i hk
        cases hx
        exact hk ▸ hy
      · cases hx
    · cases hx
  · intro hx
    exact ⟨_, hx, by simp⟩

/-- What the manager says and what it gives back. -/
def Entry.isTalk : Entry → Bool
  | log _ => true
  | supervisor (.note _) => true
  | returned _ => true
  | _ => false

theorem entriesOf_talk (k : Nat) {lines : List Entry} (h : ∀ x ∈ lines, x.isTalk = true) :
    entriesOf k lines = [] := by
  refine List.filterMap_eq_nil_iff.mpr ?_
  intro x hx
  have ht := h x hx
  cases x with
  | child i y => cases ht
  | log line => rfl
  | supervisor y => rfl
  | returned res => rfl

variable {σ : Type} [Strategy σ] {r r' : Run σ} {a : Action} {e lines : List Entry} {k i : Nat}
  {c : Call} {g g' : Gated} {p : Position}

theorem Jump.talk (h : Jump r p lines) : ∀ x ∈ lines, x.isTalk = true := by
  cases h with
  | concludes f here =>
    intro x hx
    rcases List.mem_append.mp hx with hx | hx
    · obtain ⟨y, hy, rfl⟩ := List.mem_map.mp hx
      obtain ⟨n, _, rfl⟩ := List.mem_map.mp hy
      rfl
    · rw [List.mem_singleton.mp hx]
      rfl
  | enters | limitReached | cleans => simp [Entry.isTalk]
  | lacksBenchmarks | allCreated | allStarted | limitAhead | supervisorGone | supervisorThere
  | unarmed | unlimited | unarmable | allKilled | keeps | allReleased => simp

omit [Strategy σ] in
theorem Drive.talk {res : Option (Result Answer)} (h : Drive r g k c res p lines) :
    ∀ x ∈ lines, x.isTalk = true := by
  cases h with
  | started => simp [startedLine, info, Entry.isTalk]
  | killed => simp [Entry.isTalk]
  | startGoesOn | startStops | killGoesOn | releaseGoesOn | released => simp

omit [Strategy σ] in
theorem Poll.talk {we : List Watch.Entry} (h : Poll r we p lines) :
    ∀ x ∈ lines, x.isTalk = true := by
  cases h <;> simp [Entry.isTalk]

omit [Strategy σ] in
theorem Ends.talk (h : Ends r p lines) : ∀ x ∈ lines, x.isTalk = true := by
  cases h <;> simp [Entry.isTalk]

/-- Whether the manager may be inside of a call of a child. -/
def Position.Calls (k : Nat) (c : Call) : Position → Prop
  | starting j => j = k ∧ c = .start
  | killing j _ => j = k ∧ c = .kill
  | releasing j _ => j = k ∧ (c = .kill ∨ c = .wait)
  | _ => False

/-- How many children there are of so many benchmarks, until it no longer matters. -/
def Position.Counts (benchmarks children : Nat) : Position → Prop
  | entering | settingUp => children = 0
  | creating k => children = k
  | enlisting k => children = k + 1
  | preparing | starting _ | launching | arming | polling | checkingLimit | checkingSupervisor
  | disarming _ | closing _ | joining _ | finalizing .. => children = benchmarks
  | _ => True

structure Manned (r : Run σ) : Prop where
  tended : ∀ (k : Nat) (g : Gated), r.children[k]? = some g → g.Tended manager
  inside : ∀ (k : Nat) (g : Gated) (p : Pending), r.children[k]? = some g → g.pending? manager = some p →
    r.position.Calls k p.call
  counted : r.position.Counts r.benchmarks.length r.children.length
  few : r.children.length ≤ r.benchmarks.length

omit [Strategy σ] in
theorem Manned.counted_at (hm : Manned r) (here : r.position = p) :
    p.Counts r.benchmarks.length r.children.length := here ▸ hm.counted

omit [Strategy σ] in
/-- A child that is to be created is none of those that are there. -/
theorem Manned.newcomer (hm : Manned r) (here : r.position = .creating k)
    (hlt : i < r.children.length) : k ≠ i := by
  have hcounted : r.children.length = k := hm.counted_at here
  omega

/-- All that one step of a run does to a child, which the task of the watch alone awaits. -/
inductive ChildStep (g : Gated) : Gated → List Gated.Entry → Prop where
  | rests : ChildStep g g []
  | ownerStep (c : Call) (g' : Gated) (ge : List Gated.Entry)
      (step : Gated.OwnerStep manager g c g' ge) (ga : Gated.Action) (spares : ga.KeepsSole watcher)
      (took : g.step ga = some (g', ge)) : ChildStep g g' ge
  | backgroundStep (g' : Gated) (ge : List Gated.Entry)
      (step : Gated.BackgroundStep manager g g' ge) (ga : Gated.Action)
      (spares : ga.KeepsSole watcher) (took : g.step ga = some (g', ge)) : ChildStep g g' ge

theorem ChildStep.tended {ge : List Gated.Entry} (h : ChildStep g g' ge) (ht : g.Tended manager) :
    g'.Tended manager := by
  cases h with
  | rests => exact ht
  | ownerStep c _ _ step => exact step.tended ht
  | backgroundStep _ _ step => exact step.tended

theorem ChildStep.later {ge : List Gated.Entry} (h : ChildStep g g' ge) : g.Later g' := by
  cases h with
  | rests => exact .ofLife rfl rfl rfl
  | ownerStep c _ _ step => exact step.later
  | backgroundStep _ _ step => exact step.later

theorem born_tended (b : Benchmark) (mode : KillMode) (pid : Pid) :
    (born b mode pid).Tended manager := by
  refine ⟨⟨pid, rfl⟩, ?_, ?_, ?_, ?_, ?_, ?_, ?_, ?_, ?_⟩ <;>
  simp [born, Gated.create, Gated.ofCommand, Gated.back, Gated.without, Gated.pending?,
    Sync.Latch.create, Sync.Bell.silent, Sync.Bell.threads]

theorem born_idle (b : Benchmark) (mode : KillMode) (pid : Pid) (t : Nat) :
    (born b mode pid).pending? t = none := rfl

/-- A call that the manager makes is one of its turns. -/
theorem nextAction_ownerStep {ge : List Gated.Entry} (ht : g.Tended manager)
    (hidle : g.pending? manager = none → c.holds = true ∨ c = .wait ∧ g.phase = .killed)
    (hin : ∀ p, g.pending? manager = some p → p.call = c)
    (h : g.step (nextAction c g) = some (g', ge)) : Gated.OwnerStep manager g c g' ge := by
  unfold nextAction at h
  split at h
  · rename_i hp
    exact Gated.begin_ownerStep ht (hidle hp) h
  · rename_i d bytes hp
    obtain rfl : d = c := hin _ hp
    exact Gated.receive_ownerStep ht hp h
  · rename_i p _ hp
    obtain rfl := hin _ hp
    exact Gated.advance_ownerStep ht hp h

theorem background_backgroundStep {ga : Gated.Action} {ge : List Gated.Entry}
    (ht : g.Tended manager)
    (ha : isBackground ga = true) (h : g.step ga = some (g', ge)) :
    Gated.BackgroundStep manager g g' ge := by
  cases ga with
  | advance t => exact Gated.advance_backgroundStep ht (by simpa [isBackground] using ha) h
  | bell b => exact Gated.bell_backgroundStep ht h
  | resume j => exact Gated.resume_backgroundStep ht h
  | child m => exact Gated.move_backgroundStep ht h
  | call | receive | refuse | seize => cases ha

theorem await_keepsSole {t : Nat} (ht : t = watcher) :
    (Gated.Action.call t .await).KeepsSole watcher := by
  refine ⟨nofun, ?_⟩
  intro u hu
  cases hu
  exact ht

theorem nextAction_keepsSole {ge : List Gated.Entry} (h : Gated.OwnerStep manager g c g' ge) :
    (nextAction c g).KeepsSole watcher := by
  have hcall : c ≠ .await := by
    rintro rfl
    cases h with
    | notifies _ _ _ _ leads => simp at leads
  unfold nextAction
  split
  · refine ⟨nofun, ?_⟩
    intro u hu
    cases hu
    exact absurd rfl hcall
  · exact ⟨nofun, fun _ hu => nomatch hu⟩
  · exact ⟨nofun, fun _ hu => nomatch hu⟩

theorem background_keepsSole {ga : Gated.Action} (ha : isBackground ga = true) :
    ga.KeepsSole watcher := by
  cases ga with
  | advance | bell | resume | child => exact ⟨nofun, fun _ hu => nomatch hu⟩
  | call | receive | refuse | seize => cases ha

/-- Giving up a record, the manager waits only for a child that is killed. -/
theorem releaseCall?_due (hidle : g.pending? manager = none) (h : releaseCall? g = some c) :
    c.holds = true ∨ c = .wait ∧ g.phase = .killed := by
  simp only [releaseCall?, hidle] at h
  split at h
  · cases h
    exact .inl rfl
  · cases h
    exact .inl rfl
  · rename_i hphase
    cases h
    exact .inr ⟨rfl, hphase⟩
  · cases h

omit [Strategy σ] in
/-- What the manager drives a child to is what it has to do there. -/
theorem Manned.ownerStep {ge : List Gated.Entry} {res : Option (Result Answer)} (hm : Manned r)
    (hg : r.children[k]? = some g) (hd : Drive r g k c res p lines)
    (h : g.step (nextAction c g) = some (g', ge)) : Gated.OwnerStep manager g c g' ge := by
  have ht := hm.tended k g hg
  have hin := hm.inside k g
  refine nextAction_ownerStep ht ?_ ?_ h
  · intro hidle
    cases hd with
    | startGoesOn | started | startStops | killGoesOn | killed => exact .inl rfl
    | releaseGoesOn _ _ _ here due | released _ _ here due => exact releaseCall?_due hidle due
  · intro q hq
    have hcalls := hin q hg hq
    cases hd with
    | startGoesOn here | started _ here | startStops _ _ here | killGoesOn _ here
    | killed _ _ _ here =>
      rw [here] at hcalls
      exact hcalls.2
    | releaseGoesOn _ _ _ here due | released _ _ here due =>
      simp only [releaseCall?, hq] at due
      exact Option.some.inj due

theorem childStep_set {children : List Gated} {h : Gated} {ge : List Gated.Entry}
    (hi : children[i]? = some h) (hk : children[k]? = some g) (hf : ChildStep g g' ge) :
    ∃ h', (children.set k g')[i]? = some h' ∧ ChildStep h h' (entriesOf i (ofChild k ge)) := by
  have hlt : k < children.length := (List.getElem?_eq_some_iff.mp hk).1
  by_cases hik : k = i
  · subst hik
    cases hi.symm.trans hk
    exact ⟨g', by simp [hlt], by simpa using hf⟩
  · exact ⟨h, by rw [List.getElem?_set_ne hik, hi], by simpa [hik] using ChildStep.rests⟩

theorem Manned.childStep (hm : Manned r) (h : Move r a r' e) (hi : r.children[i]? = some g) :
    ∃ g', r'.children[i]? = some g' ∧ ChildStep g g' (entriesOf i e) := by
  have hlt : i < r.children.length := (List.getElem?_eq_some_iff.mp hi).1
  have hrests : ∀ e, entriesOf i e = [] → ChildStep g g (entriesOf i e) := by
    intro e he
    rw [he]
    exact .rests
  cases h with
  | jumps p lines leads => exact ⟨g, hi, hrests _ (entriesOf_talk i leads.talk)⟩
  | supervises | supervised | works => exact ⟨g, hi, hrests _ (by simp)⟩
  | creates k b pid here =>
    have hne := hm.newcomer here hlt
    exact ⟨g, by simp [List.getElem?_append_left hlt, hi], hrests _ (by simp [hne])⟩
  | createFails k b f here => exact ⟨g, hi, hrests _ (by simp [hm.newcomer here hlt])⟩
  | enlists k h h' pid w we ge here there named took accepted awaits =>
    have hbackground := Gated.await_backgroundStep (hm.tended k h there) (by decide) awaits
    exact childStep_set hi there (.backgroundStep _ _ hbackground _ (await_keepsSole rfl) awaits)
  | enlistFails | arms | disarms | disarmed | publishes | alarmMoves =>
    exact ⟨g, hi, hrests _ rfl⟩
  | drives k c h h' ge p lines there took leads =>
    rw [entriesOf_append, entriesOf_talk i leads.talk, List.append_nil]
    have howner := hm.ownerStep there leads took
    exact childStep_set hi there (.ownerStep c _ _ howner _ (nextAction_keepsSole howner) took)
  | polls w we p lines here took leads => exact ⟨g, hi, hrests _ (entriesOf_talk i leads.talk)⟩
  | ends p lines leads => exact ⟨g, hi, hrests _ (entriesOf_talk i leads.talk)⟩
  | drains f lines here ended =>
    exact ⟨g, hi, hrests _ (entriesOf_talk i (by simp [Entry.isTalk]))⟩
  | childMoves k ga h h' ge w background there took hears =>
    have hbackground := background_backgroundStep (hm.tended k h there) background took
    exact childStep_set hi there
      (.backgroundStep _ _ hbackground _ (background_keepsSole background) took)

/-- A child that was not there was created in this step. -/
theorem Manned.newborn (hm : Manned r) (h : Move r a r' e) (hi : r.children[i]? = none)
    (hi' : r'.children[i]? = some g') : ∃ b pid, r.position = .creating i ∧
      r.benchmarks[i]? = some b ∧ r.forks i = .ok pid ∧ g' = born b r.killMode pid ∧
      e = [.child i (.returned manager (.create (.ok pid)) (.ok (.pid pid)))] := by
  have hkept : r.children[i]? ≠ some g' := by simp [hi]
  have hset : ∀ (k : Nat) (h : Gated), (r.children.set k h)[i]? ≠ some g' := by
    intro k h hs
    have hlength : (r.children.set k h).length ≤ i := by
      rw [List.length_set]
      exact List.getElem?_eq_none_iff.mp hi
    rw [List.getElem?_eq_none_iff.mpr hlength] at hs
    cases hs
  cases h with
  | creates k b pid here next forked =>
    have hlength : r.children.length = k := hm.counted_at here
    have hle : r.children.length ≤ i := List.getElem?_eq_none_iff.mp hi
    have hlt := (List.getElem?_eq_some_iff.mp hi').1
    simp only [goTo_children, List.length_append, List.length_singleton] at hlt
    obtain rfl : k = i := by omega
    rw [goTo_children, List.getElem?_append_right hle, hlength, Nat.sub_self] at hi'
    cases hi'
    exact ⟨b, pid, here, next, forked, rfl, rfl⟩
  | enlists k h h' => exact absurd hi' (hset k h')
  | drives k c h h' => exact absurd hi' (hset k h')
  | childMoves k ga h h' => exact absurd hi' (hset k h')
  | jumps | supervises | supervised | createFails | enlistFails | arms | polls | disarms | disarmed
  | ends | drains | publishes | works | alarmMoves => exact absurd hi' hkept

omit [Strategy σ] in
theorem Manned.idle (hm : Manned r) (h : ∀ c, ¬ r.position.Calls k c)
    (hk : r.children[k]? = some g) : g.pending? manager = none := by
  cases hp : g.pending? manager with
  | none => rfl
  | some p => exact absurd (hm.inside k g p hk hp) (h p.call)

theorem Jump.idle (hm : Manned r) (h : Jump r p lines) (hk : r.children[k]? = some g) :
    g.pending? manager = none := by
  have hlt : k < r.children.length := (List.getElem?_eq_some_iff.mp hk).1
  cases h with
  | allStarted j here past =>
    refine hm.idle (fun c hc => ?_) hk
    rw [here] at hc
    obtain ⟨rfl, -⟩ := hc
    rcases past with past | past
    · exact absurd (hk.symm.trans past) (by simp)
    · have hle := List.getElem?_eq_none_iff.mp past
      have hfew := hm.few
      omega
  | allKilled j f here past | allReleased j f here past =>
    refine hm.idle (fun c hc => ?_) hk
    rw [here] at hc
    obtain ⟨rfl, -⟩ := hc
    exact absurd (hk.symm.trans past) (by simp)
  | keeps j f h here there done =>
    cases hp : g.pending? manager with
    | none => rfl
    | some q =>
      have hcalls := hm.inside k g q hk hp
      rw [here] at hcalls
      obtain ⟨rfl, -⟩ := hcalls
      cases hk.symm.trans there
      simp [releaseCall?, hp] at done
  | lacksBenchmarks here | enters _ here | allCreated _ here | limitReached _ here | limitAhead here
  | supervisorGone here | supervisorThere here | unarmed _ here | unlimited here | unarmable _ here
  | cleans _ _ here | concludes _ here => exact hm.idle (fun c hc => by rw [here] at hc; exact hc) hk

theorem Jump.counts (hm : Manned r) (h : Jump r p lines) :
    p.Counts r.benchmarks.length r.children.length := by
  cases h with
  | allCreated k here past =>
    have hcreated : r.children.length = k := hm.counted_at here
    have hle := List.getElem?_eq_none_iff.mp past
    have hfew := hm.few
    change r.children.length = r.benchmarks.length
    omega
  | lacksBenchmarks here | enters _ here | allStarted _ here | limitReached _ here | limitAhead here
  | supervisorGone here | supervisorThere here | unarmed _ here | unlimited here | unarmable _ here
  | cleans _ _ here | allKilled _ _ here | keeps _ _ _ here | allReleased _ _ here | concludes _ here =>
    have hcounted := hm.counted_at here
    first
    | exact hcounted
    | trivial

omit [Strategy σ] in
/-- The manager asks nothing of a child while it waits for the supervisor. -/
theorem dueCall?_idle {v : Supervisor.Action} (hdue : r.dueCall? = some v) (c : Call) :
    ¬ r.position.Calls k c := by
  rcases dueCall?_cases hdue with here | here | here | ⟨outcome, here⟩ | ⟨outcome, joined, here⟩ <;>
  simp [here, Position.Calls]

omit [Strategy σ] in
theorem after_counts {v : Supervisor.Action} {n m : Nat} (hdue : r.dueCall? = some v)
    (h : r.position.Counts n m) (res : Result Unit) : (r.position.after res).Counts n m := by
  rcases dueCall?_cases hdue with here | here | here | ⟨outcome, here⟩ | ⟨outcome, joined, here⟩ <;>
  · rw [here] at h ⊢
    rcases res with (f | p) | _ <;> first | exact h | trivial

omit [Strategy σ] in
theorem Drive.counts {n m : Nat} {res : Option (Result Answer)} (h : Drive r g k c res p lines)
    (hc : r.position.Counts n m) : p.Counts n m := by
  cases h with
  | startStops _ stop here => cases stop <;> trivial
  | startGoesOn here | started _ here =>
    rw [here] at hc
    exact hc
  | killGoesOn | killed | releaseGoesOn | released => trivial

theorem Manned.tends (hm : Manned r) (h : Move r a r' e) (k : Nat) (g' : Gated)
    (hk : r'.children[k]? = some g') : g'.Tended manager := by
  cases hg : r.children[k]? with
  | none =>
    obtain ⟨b, pid, -, -, -, rfl, -⟩ := hm.newborn h hg hk
    exact born_tended b _ pid
  | some g =>
    obtain ⟨g₁, hg₁, hf⟩ := hm.childStep h hg
    cases hk.symm.trans hg₁
    exact hf.tended (hm.tended k g hg)

omit [Strategy σ] in
/-- The manager goes on while it is inside of no call. -/
theorem Manned.goes {u : Run σ} (hm : Manned r) (hidle : ∀ k c, ¬ r.position.Calls k c)
    (hchildren : u.children = r.children) (hbenchmarks : u.benchmarks = r.benchmarks)
    (hcounted : u.position.Counts r.benchmarks.length r.children.length) : Manned u := by
  refine ⟨?_, ?_, by rwa [hbenchmarks, hchildren], by rw [hbenchmarks, hchildren]; exact hm.few⟩
  · rw [hchildren]
    exact hm.tended
  · intro k g q hk hq
    rw [hchildren] at hk
    exact absurd ((hm.idle (hidle k) hk).symm.trans hq) (by simp)

omit [Strategy σ] in
/-- One child moves. -/
theorem Manned.sets {u : Run σ} (hm : Manned r) (hk : r.children[k]? = some g)
    (hchildren : u.children = r.children.set k g') (hbenchmarks : u.benchmarks = r.benchmarks)
    (htended : ∀ (i : Nat) (h : Gated), u.children[i]? = some h → h.Tended manager)
    (hcounted : u.position.Counts r.benchmarks.length r.children.length)
    (hown : ∀ q, g'.pending? manager = some q → u.position.Calls k q.call)
    (hothers : ∀ i h q, i ≠ k → r.children[i]? = some h → h.pending? manager = some q →
      u.position.Calls i q.call) : Manned u := by
  have hlt : k < r.children.length := (List.getElem?_eq_some_iff.mp hk).1
  refine ⟨htended, ?_, ?_, ?_⟩
  · intro i h q hi hq
    rw [hchildren] at hi
    by_cases hik : k = i
    · subst hik
      rw [List.getElem?_set_self hlt] at hi
      cases hi
      exact hown q hq
    · rw [List.getElem?_set_ne hik] at hi
      exact hothers i h q (Ne.symm hik) hi hq
  · rwa [hbenchmarks, hchildren, List.length_set]
  · rw [hbenchmarks, hchildren, List.length_set]
    exact hm.few

theorem Position.Calls.same {p : Position} {d : Call} (h : p.Calls k c) (h' : p.Calls i d) :
    i = k := by
  cases p <;> first | exact h'.1.symm.trans h.1 | exact h.elim

omit [Strategy σ] in
theorem Drive.calls {res : Option (Result Answer)} (hm : Manned r) (hk : r.children[k]? = some g)
    (h : Drive r g k c res p lines) : r.position.Calls k c := by
  cases h with
  | startGoesOn here | started _ here | startStops _ _ here | killGoesOn _ here
  | killed _ _ _ here =>
    rw [here]
    exact ⟨rfl, rfl⟩
  | releaseGoesOn f _ _ here due | released f _ here due =>
    cases hp : g.pending? manager with
    | none =>
      rw [here]
      simp only [releaseCall?, hp] at due
      split at due <;> cases due <;> simp [Position.Calls]
    | some q =>
      simp only [releaseCall?, hp] at due
      have hcalls := hm.inside k g q hk hp
      rwa [Option.some.inj due] at hcalls

omit [Strategy σ] in
/-- A call that goes on is one that the position has the manager make. -/
theorem Drive.goesOn (h : Drive r g k c none p lines) (hc : r.position.Calls k c) :
    p.Calls k c := by
  cases h with
  | startGoesOn here | killGoesOn _ here | releaseGoesOn _ _ _ here => rwa [here] at hc

omit [Strategy σ] in
theorem Manned.creates {b : Benchmark} {pid : Pid} (hm : Manned r) (here : r.position = .creating k)
    (hnext : r.benchmarks[k]? = some b) :
    Manned ({ r with children := r.children ++ [born b r.killMode pid] }.goTo (.enlisting k)) := by
  have hcreated : r.children.length = k := hm.counted_at here
  have hlt := (List.getElem?_eq_some_iff.mp hnext).1
  have hwhose : ∀ {i : Nat} {h : Gated}, (r.children ++ [born b r.killMode pid])[i]? = some h →
      (∃ j : Nat, r.children[j]? = some h) ∨ h = born b r.killMode pid := by
    intro i h hi
    rcases List.mem_append.mp (List.mem_of_getElem? hi) with hmem | hmem
    · exact .inl (List.mem_iff_getElem?.mp hmem)
    · exact .inr (List.mem_singleton.mp hmem)
  refine ⟨?_, ?_, ?_, ?_⟩
  · intro i h hi
    obtain ⟨j, hj⟩ | rfl := hwhose hi
    · exact hm.tended j h hj
    · exact born_tended b _ pid
  · intro i h q hi hq
    obtain ⟨j, hj⟩ | rfl := hwhose hi
    · exact absurd ((hm.idle (by simp [here, Position.Calls]) hj).symm.trans hq) (by simp)
    · rw [born_idle] at hq
      cases hq
  · simp [Position.Counts, hcreated]
  · simp only [goTo_children, List.length_append, List.length_singleton]
    exact hcreated ▸ hlt

theorem Manned.move (hm : Manned r) (h : Move r a r' e) : Manned r' := by
  have htended := hm.tends h
  have hinside := hm.inside
  have hcounted := hm.counted
  have hfew := hm.few
  cases h with
  | jumps p lines leads =>
    have hcounts := leads.counts hm
    refine ⟨htended, ?_, hcounts, hfew⟩
    intro k g q hk hq
    exact absurd ((leads.idle hm hk).symm.trans hq) (by simp)
  | supervises v w ve due took open_ => exact ⟨htended, hinside, hcounted, hfew⟩
  | supervised v w ve res due took back =>
    exact hm.goes (fun k => dueCall?_idle due) rfl rfl (after_counts due hcounted res)
  | creates k b pid here next forked => exact hm.creates here next
  | createFails k b f here next forked => exact hm.goes (by simp [here, Position.Calls]) rfl rfl trivial
  | enlists k g g' pid w we ge here there named took accepted awaits =>
    have hidle : ∀ k c, ¬ r.position.Calls k c := by simp [here, Position.Calls]
    have hcounted : r.children.length = k + 1 := hm.counted_at here
    refine hm.sets there rfl rfl htended hcounted ?_ ?_
    · intro q hq
      rw [(Gated.await_backgroundStep (hm.tended k g there) (by decide) awaits).owned,
        hm.idle (hidle k) there] at hq
      cases hq
    · intro i h q _ hi hq
      rw [hm.idle (hidle i) hi] at hq
      cases hq
  | enlistFails k f here => exact hm.goes (by simp [here, Position.Calls]) rfl rfl trivial
  | drives k c g g' ge p lines there took leads =>
    refine hm.sets there rfl rfl htended (leads.counts hcounted) ?_ ?_
    · intro q hq
      obtain ⟨⟨s, hs⟩, hopen⟩ | ⟨hnone, -⟩ := (hm.ownerStep there leads took).callProgress.own
      · cases hs.symm.trans hq
        rw [hopen] at leads
        exact leads.goesOn (leads.calls hm there)
      · exact absurd (hnone.symm.trans hq) (by simp)
    · intro i h q hik hi hq
      exact absurd ((leads.calls hm there).same (hinside i h q hi hq)) hik
  | arms here =>
    have hcounted := hm.counted_at here
    exact hm.goes (by simp [here, Position.Calls]) rfl rfl hcounted
  | polls w we p lines here took leads =>
    have hcounted := hm.counted_at here
    refine hm.goes (by simp [here, Position.Calls]) rfl rfl ?_
    cases leads <;> exact hcounted
  | disarms outcome al al' ae here armed took => exact ⟨htended, hinside, hcounted, hfew⟩
  | disarmed outcome here =>
    have hcounted := hm.counted_at here
    exact hm.goes (by simp [here, Position.Calls]) rfl rfl hcounted
  | ends p lines leads =>
    cases leads with
    | closes outcome here =>
      have hcounted := hm.counted_at here
      exact hm.goes (by simp [here, Position.Calls]) rfl rfl hcounted
    | aborts f line here => exact hm.goes (by simp [here, Position.Calls]) rfl rfl trivial
    | dismisses f here => exact hm.goes (by simp [here, Position.Calls]) rfl rfl trivial
  | drains f lines here ended => exact hm.goes (by simp [here, Position.Calls]) rfl rfl trivial
  | childMoves k ga g g' ge w background there took hears =>
    refine hm.sets there rfl rfl htended hcounted ?_ fun i h q _ hi hq => hinside i h q hi hq
    intro q hq
    rw [(background_backgroundStep (hm.tended k g there) background took).owned] at hq
    exact hinside k g q there hq
  | publishes pid w we took => exact ⟨htended, hinside, hcounted, hfew⟩
  | works v ve took => exact ⟨htended, hinside, hcounted, hfew⟩
  | alarmMoves al a₁ a₂ ae background armed took => exact ⟨htended, hinside, hcounted, hfew⟩

end Corun.Run
