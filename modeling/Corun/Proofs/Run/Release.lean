import Corun.Proofs.Run.Consulting
import Corun.Proofs.Supervisor.Lifecycle
import Corun.Strategy.Script

namespace Corun.Run
open Os Child

def supervisorOf (e : List Entry) : List Supervisor.Entry :=
  e.filterMap fun
    | .supervisor x => some x
    | _ => none

/-- The announcements that the strategy was passed. -/
def told (e : List Entry) : List Announcement := Supervisor.handled (supervisorOf e)

@[simp] theorem supervisorOf_nil : supervisorOf [] = [] := rfl

@[simp] theorem supervisorOf_append (e e' : List Entry) :
    supervisorOf (e ++ e') = supervisorOf e ++ supervisorOf e' := List.filterMap_append

@[simp] theorem supervisorOf_ofSupervisor (ve : List Supervisor.Entry) :
    supervisorOf (ofSupervisor ve) = ve := by
  simp [supervisorOf, ofSupervisor]

@[simp] theorem supervisorOf_ofChild (k : Nat) (ge : List Gated.Entry) :
    supervisorOf (ofChild k ge) = [] := by
  simp [supervisorOf, ofChild]

theorem mem_supervisorOf {x : Supervisor.Entry} {e : List Entry} :
    x ∈ supervisorOf e ↔ Entry.supervisor x ∈ e := by
  simp only [supervisorOf, List.mem_filterMap]
  constructor
  · rintro ⟨y, hy, hx⟩
    split at hx
    · cases hx
      exact hy
    · cases hx
  · intro hx
    exact ⟨_, hx, rfl⟩

@[simp] theorem told_nil : told [] = [] := rfl

@[simp] theorem told_append (e e' : List Entry) : told (e ++ e') = told e ++ told e' := by
  simp [told]

@[simp] theorem told_child (k : Nat) (x : Gated.Entry) (e : List Entry) :
    told (.child k x :: e) = told e := rfl

@[simp] theorem told_ofChild (k : Nat) (ge : List Gated.Entry) : told (ofChild k ge) = [] := by
  simp [told]

@[simp] theorem told_ofSupervisor (ve : List Supervisor.Entry) :
    told (ofSupervisor ve) = Supervisor.handled ve := by
  simp [told]

/-- Without a hook the strategy is told nothing. -/
theorem told_hookless {e : List Entry} (h : ∀ x ∈ e, ∀ hook, x ≠ .supervisor (.hook hook)) :
    told e = [] := by
  have hnone : Supervisor.hooks (supervisorOf e) = [] := by
    refine List.filterMap_eq_nil_iff.mpr ?_
    intro x hx
    have hmem := mem_supervisorOf.mp hx
    cases x with
    | hook k => exact absurd rfl (h _ hmem k)
    | note n => rfl
    | returned c res => rfl
  simp [told, Supervisor.handled, hnone]

theorem told_talk {lines : List Entry} (h : ∀ x ∈ lines, x.isTalk = true) : told lines = [] := by
  refine told_hookless ?_
  rintro x hx hook rfl
  cases h _ hx

variable {σ : Type} [Strategy σ] {r r' : Run σ} {a : Action} {e e₁ e₂ lines : List Entry} {k i : Nat}
  {c : Call} {g g' : Gated} {p : Position} {v : Supervisor σ} {ve : List Supervisor.Entry}
  {acts : List Action} {pid : Pid}

/-- What has been told and what is still to be told while the children are launched. -/
def Position.Tells (pids : List Pid) (told inbox : List Announcement) : Position → Prop
  | entering | settingUp => told = [] ∧ inbox = []
  | creating _ => told = [] ∧ inbox = pids.map .created
  | enlisting k => told = [] ∧ inbox = (pids.take k).map .created
  | preparing => told ++ inbox = pids.map .created
  | starting _ => told = pids.map .created ∧ inbox = []
  | _ => True

structure Announced (r : Run σ) (e : List Entry) (pids : List Pid) : Prop where
  named : r.names = pids.map some
  forked : ∀ i pid, pids[i]? = some pid → r.forks i = .ok pid
  tells : r.position.Tells pids (told e) r.supervisor.inbox

theorem Jump.tells {pids : List Pid} {heard inbox : List Announcement} (h : Jump r p lines)
    (ht : r.position.Tells pids heard inbox) : p.Tells pids heard inbox := by
  cases h with
  | enters _ here =>
    rw [here] at ht
    exact ht
  | allCreated k here =>
    rw [here] at ht
    simp [Position.Tells, ht.1, ht.2]
  | lacksBenchmarks | allStarted | limitReached | limitAhead | supervisorGone | supervisorThere
  | unarmed | unlimited | unarmable | cleans | allKilled | keeps | allReleased | concludes => trivial

omit [Strategy σ] in
theorem Drive.tells {pids : List Pid} {heard inbox : List Announcement} {res : Option (Result Answer)}
    (h : Drive r g k c res p lines) (ht : r.position.Tells pids heard inbox) :
    p.Tells pids heard inbox := by
  cases h with
  | startGoesOn here | started _ here =>
    rw [here] at ht
    exact ht
  | startStops _ stop => cases stop <;> trivial
  | killGoesOn | killed | releaseGoesOn | released => trivial

theorem Consult.tells {pids : List Pid} (hempty : r.position = .settingUp → pids = [])
    (h : Consult r v ve p) (ht : r.position.Tells pids (told e) r.supervisor.inbox) :
    p.Tells pids (told (e ++ ofSupervisor ve)) v.inbox := by
  cases h with
  | setsUp s here =>
    rw [here] at ht
    obtain ⟨htold, hinbox⟩ := ht
    rcases (Strategy.setUp s).result with (f | q) | _
    · trivial
    · trivial
    · simp [Position.after, Position.Tells, htold, hinbox, Supervisor.handled, hempty here]
  | prepares here idle =>
    rw [here] at ht
    simpa [Position.Tells] using ht
  | delivers s x inbox here inside held next passed =>
    rw [here] at ht
    simpa [Position.Tells, Supervisor.handled, next] using ht
  | deliveryStops s x inbox stop => cases stop <;> trivial
  | prepared s here inside held empty =>
    rw [here] at ht
    rcases (Strategy.prepare s).result with (f | q) | _
    · trivial
    · trivial
    · simpa [Position.after, Position.Tells, Supervisor.handled, empty] using ht
  | startStops s stop => cases stop <;> trivial
  | finalizes outcome joined s here =>
    rcases (Strategy.finalize s).result with (f | q) | _ <;> trivial
  | starts | joins | joinsPanicked | finalizesNone => trivial

theorem Position.tells_later {pids : List Pid} {heard inbox : List Announcement}
    (h : p.isLaunch = false) : p.Tells pids heard inbox := by
  cases p <;> trivial

omit [Strategy σ] in
theorem Announced.sets {pids : List Pid} {u : Run σ} {ge : List Gated.Entry} (ha : Announced r e pids)
    (hk : r.children[k]? = some g) (hpid : g'.pid? = g.pid?)
    (hchildren : u.children = r.children.set k g') (hforks : u.forks = r.forks)
    (htells : u.position.Tells pids (told e) u.supervisor.inbox) :
    Announced u (e ++ ofChild k ge) pids := by
  exact ⟨(names_set hk hpid hchildren).trans ha.named, hforks ▸ ha.forked, by simpa using htells⟩

omit [Strategy σ] in
theorem Announced.length {pids : List Pid} (ha : Announced r e pids) :
    pids.length = r.children.length := by
  simpa [Run.names] using (congrArg List.length ha.named).symm

omit [Strategy σ] in
theorem Announced.creates {pids : List Pid} {k : Nat} {b : Benchmark} {pid : Pid} (ha : Announced r e pids)
    (hm : Manned r) (here : r.position = .creating k) (hforked : r.forks k = .ok pid) :
    Announced ({ r with children := r.children ++ [born b r.killMode pid] }.goTo (.enlisting k))
      (e ++ [.child k (.returned manager (.create (.ok pid)) (.ok (.pid pid)))]) (pids ++ [pid]) := by
  have hcounted : r.children.length = k := hm.counted_at here
  have hlength := ha.length
  have htells := ha.tells
  rw [here] at htells
  refine ⟨?_, ?_, ?_⟩
  · rw [List.map_append, ← ha.named]
    simp [Run.names, born, Gated.create, Gated.ofCommand, Gated.back]
  · intro i q hq
    rw [List.getElem?_append] at hq
    split at hq
    · exact ha.forked i q hq
    · have hi : i = k := by
        have hlt := (List.getElem?_eq_some_iff.mp hq).1
        simp only [List.length_singleton] at hlt
        omega
      subst hi
      simp only [hlength, hcounted, Nat.sub_self, List.getElem?_cons_zero] at hq
      cases hq
      exact hforked
  · simp [Position.Tells, htells.1, htells.2, ← hlength.trans hcounted]

omit [Strategy σ] in
theorem Announced.last {pids : List Pid} {pid : Pid} (ha : Announced r e pids)
    (hcounted : r.children.length = k + 1) (hk : r.children[k]? = some g) (hpid : g.pid? = some pid) :
    pids = pids.take k ++ [pid] := by
  have hlength := ha.length
  have hlast : pids[k]? = some pid := by
    have hmap := congrArg (fun l => l[k]?) ha.named
    simpa [Run.names, hk, hpid] using hmap.symm
  calc pids = pids.take (k + 1) := (List.take_of_length_le (by omega)).symm
    _ = pids.take k ++ [pid] := by rw [List.take_add_one, hlast]; rfl

theorem Announced.move {pids : List Pid} {e' : List Entry} (ha : Announced r e pids) (hm : Manned r)
    (hs : Stationed r) (h : Move r a r' e') : ∃ pids', Announced r' (e ++ e') pids' := by
  have hnamed := ha.named
  have hforked := ha.forked
  have htells := ha.tells
  have hlength := ha.length
  have hempty : r.position = .settingUp → pids = [] :=
    fun here => List.length_eq_zero_iff.mp (hlength.trans (hm.counted_at here))
  have hquiet : ∀ lines, (∀ x ∈ lines, x.isTalk = true) → told (e ++ lines) = told e := by
    intro lines htalk
    rw [told_append, told_talk htalk, List.append_nil]
  cases h with
  | jumps p lines leads =>
    refine ⟨pids, hnamed, hforked, ?_⟩
    rw [hquiet _ leads.talk]
    exact leads.tells htells
  | supervises va v ve due took open_ =>
    exact ⟨pids, hnamed, hforked, (hs.consults due took open_).tells hempty htells⟩
  | supervised va v ve res due took back =>
    exact ⟨pids, hnamed, hforked, (hs.consulted due took back).tells hempty htells⟩
  | creates k b pid here next forked => exact ⟨pids ++ [pid], ha.creates hm here forked⟩
  | createFails | enlistFails | drains => exact ⟨pids, hnamed, hforked, trivial⟩
  | enlists k g g' pid w we ge here there named took accepted awaits =>
    have hcounted : r.children.length = k + 1 := hm.counted_at here
    rw [here] at htells
    have hbackground := Gated.await_backgroundStep (hm.tended k g there) (by decide) awaits
    have hall := ha.last hcounted there named
    refine ⟨pids, ha.sets there hbackground.later.pid rfl rfl ⟨htells.1, ?_⟩⟩
    calc r.supervisor.inbox ++ [Announcement.created pid]
        = (pids.take k ++ [pid]).map .created := by simp [htells.2]
      _ = pids.map .created := by rw [← hall]
  | drives k c g g' ge p lines there took leads =>
    refine ⟨pids, ?_⟩
    have hset : Announced ({ r with children := r.children.set k g' }.goTo p) (e ++ ofChild k ge) pids :=
      ha.sets there (hm.ownerStep there leads took).later.pid rfl rfl (leads.tells htells)
    refine ⟨hset.named, hset.forked, ?_⟩
    have htold := hset.tells
    rwa [told_append, told_append, told_talk leads.talk, List.append_nil, ← told_append]
  | arms | disarmed => exact ⟨pids, hnamed, hforked, trivial⟩
  | polls w we p lines here took leads =>
    refine ⟨pids, hnamed, hforked, ?_⟩
    cases leads <;> trivial
  | ends p lines leads =>
    refine ⟨pids, hnamed, hforked, ?_⟩
    cases leads <;> trivial
  | childMoves k ga g g' ge w background there took hears =>
    exact ⟨pids, ha.sets there (background_backgroundStep (hm.tended k g there) background took).later.pid rfl rfl
      htells⟩
  | works v ve took =>
    cases hl : r.position.isLaunch with
    | false => exact ⟨pids, hnamed, hforked, Position.tells_later hl⟩
    | true =>
      rw [hs.not_works hl] at took
      cases took
  | disarms | publishes | alarmMoves => exact ⟨pids, hnamed, hforked, by simpa using htells⟩

theorem Fresh.announced (hf : Fresh r) (h : run r acts = some (r', e)) :
    ∃ pids, Announced r' e pids := by
  refine hf.run_moves (P := fun u _ e => ∃ pids, Announced u e pids) ?_ ?_ h
  · obtain ⟨s, spawn, hv⟩ := hf.supervisor
    refine ⟨[], by simp [Run.names, hf.children], by simp, ?_⟩
    rw [hf.position, hv]
    exact ⟨rfl, rfl⟩
  · rintro acts u e a w e' - hm hs ⟨pids, ha⟩ hmoved
    exact ha.move hm hs hmoved

theorem ChildStep.opened {seen ge : List Gated.Entry} (h : ChildStep g g' ge)
    (ho : g.GateOpened manager seen) :
    g'.GateOpened manager (seen ++ ge) := by
  cases h with
  | rests => rwa [List.append_nil]
  | ownerStep c _ _ step => exact step.opened ho
  | backgroundStep _ _ step => exact step.opened ho

theorem run_gateOpened (hf : Fresh r) (h : run r acts = some (r', e))
    (hk : r'.children[k]? = some g) :
    g.GateOpened manager (entriesOf k e) := by
  refine children_run (P := fun g seen => g.GateOpened manager seen) hf ?_
    (fun _ _ _ _ _ ho hchild => hchild.opened ho) h k g hk
  intro b pid
  exact ⟨by simp [born_idle], by simp⟩

theorem Position.Calls.start (h : p.Calls k .start) : p = .starting k := by
  cases p with
  | starting j => exact h.1 ▸ rfl
  | killing j f => cases h.2
  | releasing j f => rcases h.2 with h | h <;> cases h
  | _ => exact h.elim

theorem mem_ofChild {j : Nat} {x : Gated.Entry} {ge : List Gated.Entry} :
    .child k x ∈ ofChild j ge ↔ j = k ∧ x ∈ ge := by
  simp [ofChild, and_comm, eq_comm]

theorem backgroundStep_unreleased {ge : List Gated.Entry}
    (h : Gated.BackgroundStep manager g g' ge) :
    .released ∉ ge := by
  intro hx
  rcases h.shown _ hx with ⟨_, h⟩ | ⟨_, h⟩ | ⟨_, _, _, h⟩ <;> cases h

theorem ownerStep_releases {ge : List Gated.Entry} (h : Gated.OwnerStep manager g c g' ge)
    (hx : .released ∈ ge) : c = .start := by
  cases h <;> simp at hx ⊢

theorem Entry.child_not_talk {x : Gated.Entry} (h : ∀ y ∈ lines, y.isTalk = true) :
    .child k x ∉ lines := by
  intro hx
  cases h _ hx

/-- A gate is opened only where the manager starts its child. -/
theorem Move.releases (hm : Manned r) (h : Move r a r' e) (hx : .child k .released ∈ e) :
    r.position = .starting k := by
  cases h with
  | jumps p lines leads => exact absurd hx (Entry.child_not_talk leads.talk)
  | supervises | supervised | works => simp [ofSupervisor] at hx
  | creates | createFails => simp at hx
  | enlists j g g' pid w we ge here there named took accepted awaits =>
    have hbackground := Gated.await_backgroundStep (hm.tended j g there) (by decide) awaits
    exact absurd (mem_ofChild.mp hx).2 (backgroundStep_unreleased hbackground)
  | drives j c g g' ge p lines there took leads =>
    rcases List.mem_append.mp hx with hx | hx
    · obtain ⟨rfl, hmem⟩ := mem_ofChild.mp hx
      obtain rfl := ownerStep_releases (hm.ownerStep there leads took) hmem
      exact (leads.calls hm there).start
    · exact absurd hx (Entry.child_not_talk leads.talk)
  | polls w we p lines here took leads => exact absurd hx (Entry.child_not_talk leads.talk)
  | ends p lines leads => exact absurd hx (Entry.child_not_talk leads.talk)
  | drains f lines here ended => simp at hx
  | childMoves j ga g g' ge w background there took hears =>
    have hbackground := background_backgroundStep (hm.tended j g there) background took
    exact absurd (mem_ofChild.mp hx).2 (backgroundStep_unreleased hbackground)
  | enlistFails | arms | disarms | disarmed | publishes | alarmMoves => cases hx

/-- No gate is opened any more once the run is being wound up. -/
theorem over_unreleased (hm : Manned r) (hl : r.position.isOver = true)
    (h : run r acts = some (r', e)) : .child k .released ∉ e := by
  have hinv : r'.position.isOver = true ∧ .child k .released ∉ e := by
    refine run_moves (P := fun u _ e => u.position.isOver = true ∧ .child k .released ∉ e) hm
      ⟨hl, by simp⟩ ?_ h
    rintro acts u e a w e' - hu ⟨hover, hnone⟩ hmoved
    refine ⟨hmoved.over hover, ?_⟩
    intro hx
    rcases List.mem_append.mp hx with hx | hx
    · exact hnone hx
    · rw [hmoved.releases hu hx] at hover
      cases hover
  exact hinv.2

/-- A child was released and has started. -/
def ReleasedAndStarted (e : List Entry) (i : Nat) : Prop :=
  .child i .released ∈ e ∧ .child i (.returned manager .start (.ok .done)) ∈ e

theorem ReleasedAndStarted.more {e' : List Entry} (h : ReleasedAndStarted e i) :
    ReleasedAndStarted (e ++ e') i :=
  ⟨List.mem_append_left _ h.1, List.mem_append_left _ h.2⟩

structure Gates (r : Run σ) (e : List Entry) : Prop where
  shut : r.position.isShut = true → ∀ k, .child k .released ∉ e
  prepared : ∀ k, r.position = .starting k →
    .supervisor (.hook .prepare) ∈ e ∧ .supervisor (.returned .prepare (.ok ())) ∈ e
  started : ∀ k, r.position = .starting k → ∀ i < k, ReleasedAndStarted e i
  launched : r.position = .launching ∨ r.supervisor.worker ≠ .absent →
    ∀ i < r.benchmarks.length, ReleasedAndStarted e i

/-- A start that comes back well says no more than that. -/
theorem ownerStep_starts {ge : List Gated.Entry} {answer : Answer}
    (h : Gated.OwnerStep manager g .start g' ge)
    (hback : Gated.returned? manager ge = some (.ok answer)) :
    .returned manager .start (.ok .done) ∈ ge := by
  cases h with
  | learns bytes reportBytes res inside heard =>
    obtain rfl | ⟨f, rfl⟩ := heard
    · exact List.mem_singleton_self _
    · simp at hback
  | refuses | breaks => simp at hback
  | starts | notifies | releases | closes | reads => cases hback

theorem drive_hasReleased {ge : List Gated.Entry} {answer : Answer}
    (ho : g.GateOpened manager (entriesOf k e)) (h : Gated.OwnerStep manager g .start g' ge)
    (hback : Gated.returned? manager ge = some (.ok answer)) :
    ReleasedAndStarted (e ++ ofChild k ge) k := by
  have hstarted := ownerStep_starts h hback
  have hopened := (h.opened ho).after (List.mem_append_right _ hstarted)
  have hseen : entriesOf k (e ++ ofChild k ge) = entriesOf k e ++ ge := by simp
  rw [← hseen] at hopened
  exact ⟨mem_entriesOf.mp hopened, List.mem_append_right _ (mem_ofChild.mpr ⟨rfl, hstarted⟩)⟩

theorem Consult.starting (h : Consult r v ve p) (hp : p = .starting k) :
    k = 0 ∧ .hook .prepare ∈ ve ∧ .returned .prepare (.ok ()) ∈ ve := by
  cases h with
  | prepared s here inside held empty =>
    rcases hr : (Strategy.prepare s).result with (f | q) | _
    · simp [hr, Position.after, Position.afterStop] at hp
    · simp [hr, Position.after, Position.afterStop] at hp
    · simp only [hr, Position.after, Position.starting.injEq] at hp
      exact ⟨hp.symm, by simp, by simp⟩
  | setsUp s here =>
    rcases hr : (Strategy.setUp s).result with (f | q) | _ <;> simp [hr, Position.after] at hp
  | finalizes outcome joined s here =>
    rcases hr : (Strategy.finalize s).result with (f | q) | _ <;> simp [hr, Position.after] at hp
  | deliveryStops _ _ _ stop | startStops _ stop => cases stop <;> cases hp
  | prepares | delivers | starts | joins | joinsPanicked | finalizesNone => cases hp

/-- The manager comes to start a child when the strategy has prepared, or the child before has
started. -/
theorem Move.starting {k : Nat} (hm : Manned r) (hs : Stationed r) (h : Move r a r' e)
    (hp : r'.position = .starting k) : r.position = .starting k ∨
      k = 0 ∧ .supervisor (.hook .prepare) ∈ e ∧ .supervisor (.returned .prepare (.ok ())) ∈ e ∨
      ∃ j g g' ge answer, k = j + 1 ∧ r.position = .starting j ∧ r.children[j]? = some g ∧
        Gated.OwnerStep manager g .start g' ge ∧ Gated.returned? manager ge = some (.ok answer) ∧
        ∃ lines, e = ofChild j ge ++ lines := by
  cases h with
  | jumps p lines leads => cases leads <;> cases hp
  | supervised va v ve res due took back =>
    obtain ⟨rfl, hhook, hreturned⟩ := (hs.consulted due took back).starting hp
    exact .inr (.inl ⟨rfl, by simpa [ofSupervisor] using hhook, by simpa [ofSupervisor] using hreturned⟩)
  | drives j c g g' ge p lines there took leads =>
    have howner := hm.ownerStep there leads took
    rw [goTo_position] at hp
    generalize hres : Gated.returned? manager ge = res at leads
    cases leads with
    | startGoesOn here =>
      cases hp
      exact .inl here
    | started answer here =>
      cases hp
      exact .inr (.inr ⟨j, g, g', ge, answer, rfl, here, there, howner, hres, _, rfl⟩)
    | startStops stop stop' => cases stop' <;> cases hp
    | killGoesOn | killed | releaseGoesOn | released => cases hp
  | polls w we p lines here took leads => cases leads <;> cases hp
  | ends p lines leads => cases leads <;> cases hp
  | creates | createFails | enlists | enlistFails | arms | disarmed | drains => cases hp
  | supervises | disarms | childMoves | publishes | works | alarmMoves => exact .inl hp

theorem Consult.not_launching (h : Consult r v ve p) : p ≠ .launching := by
  cases h with
  | prepared s here =>
    rcases hr : (Strategy.prepare s).result with (f | q) | _ <;>
      simp [Position.after, Position.afterStop]
  | setsUp s here => rcases hr : (Strategy.setUp s).result with (f | q) | _ <;> simp [Position.after]
  | finalizes outcome joined s here =>
    rcases hr : (Strategy.finalize s).result with (f | q) | _ <;> simp [Position.after]
  | deliveryStops _ _ _ stop | startStops _ stop => cases stop <;> simp [Position.afterStop]
  | prepares | delivers | starts | joins | joinsPanicked | finalizesNone => simp

/-- The manager comes to start the supervisor when there is no child left to be started. -/
theorem Move.launching (hs : Stationed r) (h : Move r a r' e) (hp : r'.position = .launching) :
    r.position = .launching ∨ ∃ j, r.position = .starting j ∧
      (r.children[j]? = none ∨ r.benchmarks[j]? = none) := by
  cases h with
  | jumps p lines leads =>
    cases leads with
    | allStarted j here past => exact .inr ⟨j, here, past⟩
    | _ => cases hp
  | supervised va v ve res due took back =>
    exact absurd hp (hs.consulted due took back).not_launching
  | drives j c g g' ge p lines there took leads =>
    rw [goTo_position] at hp
    generalize Gated.returned? manager ge = res at leads
    cases leads with
    | startStops stop stop' => cases stop' <;> cases hp
    | startGoesOn | started | killGoesOn | killed | releaseGoesOn | released => cases hp
  | polls w we p lines here took leads => cases leads <;> cases hp
  | ends p lines leads => cases leads <;> cases hp
  | creates | createFails | enlists | enlistFails | arms | disarmed | drains => cases hp
  | supervises | disarms | childMoves | publishes | works | alarmMoves => exact .inl hp

theorem Gates.move {e' : List Entry} (hg : Gates r e)
    (hf : ∀ (k : Nat) (g : Gated), r.children[k]? = some g → g.GateOpened manager (entriesOf k e))
    (hm : Manned r) (hs : Stationed r) (h : Move r a r' e') : Gates r' (e ++ e') := by
  refine ⟨?_, ?_, ?_, ?_⟩
  · intro hl k hx
    have hbefore := h.shut hl
    rcases List.mem_append.mp hx with hx | hx
    · exact hg.shut hbefore k hx
    · rw [h.releases hm hx] at hbefore
      cases hbefore
  · intro k hp
    obtain hbefore | ⟨-, hhook, hreturned⟩ | ⟨j, g, g', ge, answer, -, hbefore, -⟩ :=
      h.starting hm hs hp
    · exact (hg.prepared k hbefore).imp (List.mem_append_left _) (List.mem_append_left _)
    · exact ⟨List.mem_append_right _ hhook, List.mem_append_right _ hreturned⟩
    · exact (hg.prepared j hbefore).imp (List.mem_append_left _) (List.mem_append_left _)
  · intro k hp i hi
    obtain hbefore | ⟨rfl, -⟩ |
      ⟨j, g, g', ge, answer, rfl, hbefore, hj, howner, hback, lines, rfl⟩ :=
      h.starting hm hs hp
    · exact (hg.started k hbefore i hi).more
    · exact absurd hi (Nat.not_lt_zero i)
    · by_cases hij : i = j
      · subst hij
        rw [← List.append_assoc]
        exact (drive_hasReleased (hf i g hj) howner hback).more
      · exact (hg.started j hbefore i (by omega)).more
  · intro hl i hi
    rw [h.sameTask.benchmarks] at hi
    have hnow : r.position = .launching ∨ r.supervisor.worker ≠ .absent → ReleasedAndStarted
      (e ++ e') i :=
      fun hbefore => (hg.launched hbefore i hi).more
    rcases hl with hp | hw
    · obtain hbefore | ⟨j, hbefore, hpast⟩ := h.launching hs hp
      · exact hnow (.inl hbefore)
      · -- A place without a child is past all benchmarks, so all before it have started.
        have hcounted : r.children.length = r.benchmarks.length := hm.counted_at hbefore
        have hle : r.benchmarks.length ≤ j := by
          rcases hpast with hpast | hpast
          · exact hcounted ▸ List.getElem?_eq_none_iff.mp hpast
          · exact List.getElem?_eq_none_iff.mp hpast
        exact (hg.started j hbefore i (by omega)).more
    · exact hnow (h.worker hs hw).symm

theorem Fresh.gates (hf : Fresh r) (h : run r acts = some (r', e)) : Gates r' e := by
  refine hf.run_moves (P := fun u _ e => Gates u e) ?_ ?_ h
  · obtain ⟨s, spawn, hv⟩ := hf.supervisor
    refine ⟨by simp, by simp [hf.position], by simp [hf.position], ?_⟩
    simp [hf.position, hv, Supervisor.create]
  · intro acts u e a w e' hrun hm hs hg hmoved
    exact hg.move (fun k g hk => run_gateOpened hf hrun hk) hm hs hmoved

/-- The handler of an announcement that prepare is about to hand out, or the hook of prepare, fails or
panics. -/
def PreparingFails (r : Run σ) : Prop :=
  r.position = .preparing ∧ r.supervisor.preparing = true ∧ ∃ s, r.supervisor.strategy = some s ∧
    ((∃ x inbox stop, r.supervisor.inbox = x :: inbox ∧ (Strategy.handle x s).result = .error stop) ∨
      r.supervisor.inbox = [] ∧ ∃ stop, (Strategy.prepare s).result = .error stop)

/-- The order of a launch and of what comes after it. -/
structure LaunchOrder (start : Run σ) (acts : List Action) (e : List Entry) : Prop where
  /-- When a gate is opened, all children are created, the strategy was passed exactly their
  announcements, in their order, and has prepared. -/
  released : ∀ e₁ e₂ k, e = e₁ ++ .child k .released :: e₂ →
    ∃ pids : List Pid, pids.length = start.benchmarks.length ∧
      (∀ i pid, pids[i]? = some pid → start.forks i = .ok pid ∧
        .child i (.returned manager (.create (.ok pid)) (.ok (.pid pid))) ∈ e₁) ∧
      told e₁ = pids.map .created ∧
      .supervisor (.hook .prepare) ∈ e₁ ∧ .supervisor (.returned .prepare (.ok ())) ∈ e₁
  /-- If something of that fails, no gate is ever opened. -/
  shut : ((∃ i f, i < start.benchmarks.length ∧ start.forks i = .error f) ∨
      ∃ before after u e₁, acts = before ++ .manage :: after ∧ run start before = some (u, e₁) ∧
        PreparingFails u) →
    ∀ k, .child k .released ∉ e
  /-- When a tick begins, all children were released and have started. -/
  ticks : ∀ e₁ e₂, e = e₁ ++ .supervisor (.hook .tick) :: e₂ →
    ∀ i < start.benchmarks.length, .child i .released ∈ e₁ ∧
      .child i (.returned manager .start (.ok .done)) ∈ e₁

/-- The strategy is told nothing while the children are being started. -/
theorem Move.starting_told (hs : Stationed r) (h : Move r a r' e) (here : r.position = .starting k) :
    ∀ x ∈ e, ∀ hook, x ≠ .supervisor (.hook hook) := by
  rintro x hx hook rfl
  obtain ⟨n, hn⟩ | ⟨ve, -, ⟨hdue, -⟩ | ⟨-, hwork⟩⟩ := h.heard hs hx
  · cases hn
  · simp [dueCall?, here] at hdue
  · exact (work_keeps hwork).2.2.1 (hs.unworked (by simp [here, Position.isLaunch, Position.phase]))

theorem Consult.tickless (h : Consult r v ve p) : .hook .tick ∉ ve := by
  have hnotes : ∀ hook : Step σ Unit, Supervisor.Entry.hook .tick ∉ Supervisor.notes hook := by
    intro hook
    simp [Supervisor.notes]
  cases h <;> simp [hnotes]

theorem Fresh.released (hf : Fresh r) (h : run r acts = some (r', e₁ ++ .child k .released :: e₂)) :
    ∃ pids : List Pid, pids.length = r.benchmarks.length ∧
      (∀ i pid, pids[i]? = some pid → r.forks i = .ok pid ∧
        .child i (.returned manager (.create (.ok pid)) (.ok (.pid pid))) ∈ e₁) ∧
      told e₁ = pids.map .created ∧
      .supervisor (.hook .prepare) ∈ e₁ ∧ .supervisor (.returned .prepare (.ok ())) ∈ e₁ := by
  obtain ⟨before, a, after, u, w, f₁, f₂, g₁, g₂, -, hu, ha, rfl, rfl⟩ := Machine.step_of_split h
  have hm := hf.manned.run hu
  have hs := hf.stationed.run hu
  have hmoved := step_move ha
  have here := hmoved.releases (k := k) hm (by simp)
  obtain ⟨pids, hannounced⟩ := hf.announced hu
  have htells := hannounced.tells
  have hcounted : u.children.length = u.benchmarks.length := hm.counted_at here
  rw [here] at htells
  have hprepared := (hf.gates hu).prepared k here
  have hsilent : told g₁ = [] :=
    told_hookless fun x hx => hmoved.starting_told hs here x (List.mem_append_left _ hx)
  refine ⟨pids, ?_, ?_, ?_, List.mem_append_left _ hprepared.1, List.mem_append_left _ hprepared.2⟩
  · rw [hannounced.length, hcounted, (run_sameTask hu).benchmarks]
  · intro i pid hi
    have hnamed := congrArg (fun l => l[i]?) hannounced.named
    simp only [Run.names, List.getElem?_map, hi, Option.map_some] at hnamed
    obtain ⟨g, hg, hpid⟩ := Option.map_eq_some_iff.mp hnamed
    exact ⟨(run_sameTask hu).forks ▸ hannounced.forked i pid hi,
      List.mem_append_left _ (there_created hf hu hg hpid)⟩
  · rw [told_append, hsilent, List.append_nil]
    exact htells.1

theorem PreparingFails.over (hp : PreparingFails r) (hs : Stationed r)
    (h : Move r .manage r' e) : r'.position.isOver = true := by
  obtain ⟨here, hin, s, held, hfails⟩ := hp
  have hdue : r.dueCall? = some .deliver := by simp [dueCall?, here, hin]
  obtain ⟨ve, hc, rfl⟩ := hs.asked hdue h
  generalize r'.supervisor = v at hc
  generalize r'.position = p at hc
  cases hc with
  | prepares here idle => exact absurd (hin.symm.trans idle) (by simp)
  | delivers s' x inbox _ _ held' next passed =>
    cases held.symm.trans held'
    rcases hfails with ⟨y, rest, stop, hi, hr⟩ | ⟨hi, -⟩
    · cases hi.symm.trans next
      exact absurd ((Supervisor.dispatch_error hr).symm.trans passed) (by simp)
    · exact absurd (hi.symm.trans next) (by simp)
  | deliveryStops _ _ _ stop => exact decide_eq_true (afterStop_phase stop)
  | prepared s' _ _ held' empty =>
    cases held.symm.trans held'
    rcases hfails with ⟨y, rest, stop, hi, hr⟩ | ⟨-, stop, hr⟩
    · exact absurd (hi.symm.trans empty) (by simp)
    · rw [hr]
      exact decide_eq_true (afterStop_phase stop)
  | setsUp _ here' | starts _ here' | startStops _ _ here' | joins _ _ _ here'
  | joinsPanicked _ here' | finalizes _ _ _ here' | finalizesNone _ _ here' =>
    exact absurd (here.symm.trans here') (by simp)

theorem Fresh.shut (hf : Fresh r) {before after : List Action} {u : Run σ}
    (h : run r (before ++ .manage :: after) = some (r', e)) (hu : run r before = some (u, e₁))
    (hfails : PreparingFails u) : .child k .released ∉ e := by
  obtain ⟨u', f₁, f₂, hu', hrest, rfl⟩ := Machine.run_append.mp h
  cases hu.symm.trans hu'
  obtain ⟨w, g₁, g₂, hw, hlast, rfl⟩ := Machine.run_cons.mp hrest
  have hm := hf.manned.run hu
  have hmoved := step_move hw
  have hbefore := (hf.gates hu).shut (by simp [hfails.1, Position.isShut, Position.phase]) k
  have hnow : .child k .released ∉ g₁ := by
    intro hx
    exact absurd (hfails.1.symm.trans (hmoved.releases hm hx)) (by simp)
  have hafter := over_unreleased (k := k) (hm.move hmoved)
    (hfails.over (hf.stationed.run hu) hmoved) hlast
  simp [hbefore, hnow, hafter]

theorem Fresh.ticks (hf : Fresh r)
    (h : run r acts = some (r', e₁ ++ .supervisor (.hook .tick) :: e₂)) :
    ∀ i < r.benchmarks.length, ReleasedAndStarted e₁ i := by
  obtain ⟨before, a, after, u, w, f₁, f₂, g₁, g₂, -, hu, ha, rfl, rfl⟩ := Machine.step_of_split h
  have hs := hf.stationed.run hu
  have hthere : u.supervisor.worker ≠ .absent := by
    have hmem : Entry.supervisor (.hook .tick) ∈ g₁ ++ .supervisor (.hook .tick) :: g₂ := by simp
    obtain ⟨n, hn⟩ | ⟨ve, hx, ⟨-, hc⟩ | ⟨-, hwork⟩⟩ := (step_move ha).heard hs hmem
    · cases hn
    · exact absurd hx hc.tickless
    · exact (work_keeps hwork).2.2.1
  intro i hi
  rw [← (run_sameTask hu).benchmarks] at hi
  exact ((hf.gates hu).launched (.inr hthere) i hi).more

/-- In every run all children are created and announced, in their order, and the strategy has prepared
before a child is released; if something of that fails, none is; and all of them are released and have
started before the first tick. -/
theorem launch_is_orderly {benchmarks : List Benchmark} {mode : KillMode} {hasLimit : Bool}
    {forks : Nat → Except Failure Pid} {strategy : σ} {spawn : Except Failure Unit}
    {watchers : Nat → Except Failure Unit} {timer : Except Failure Unit}
    (h : run (create benchmarks mode hasLimit forks strategy spawn watchers timer) acts = some (r, e)) :
    LaunchOrder (create benchmarks mode hasLimit forks strategy spawn watchers timer) acts e := by
  have hf := create_fresh benchmarks mode hasLimit forks strategy spawn watchers timer
  refine ⟨?_, ?_, ?_⟩
  · rintro e₁ e₂ k rfl
    exact hf.released h
  · rintro (⟨i, f, hi, hforks⟩ | ⟨before, after, u, e₁, rfl, hu, hfails⟩) k
    · intro hx
      obtain ⟨e₁, e₂, rfl⟩ := List.append_of_mem hx
      obtain ⟨pids, hlength, hcreated, -⟩ := hf.released h
      have hlt : i < pids.length := hlength ▸ hi
      have hforked := (hcreated i pids[i] (List.getElem?_eq_getElem hlt)).1
      exact absurd (hforks.symm.trans hforked) (by simp)
    · exact hf.shut h hu hfails
  · rintro e₁ e₂ rfl i hi
    exact hf.ticks h i hi

/-- Two children are announced and then started, and the first tick begins. -/
theorem launch_is_orderly_for_two :
    let start : Run Strategy.Script := create [⟨0, "a", "/bin/a", []⟩, ⟨1, "b", "/bin/b", []⟩] .single
      false (fun k => .ok (100 + k)) { name := "script" }
    let launch (k : Nat) : List Action := .child k (.child .settle) :: List.replicate 4 .manage ++
      [.child k (.child .pass), .child k (.child (.execute none)), .manage]
    let acts := List.replicate 11 .manage ++ launch 0 ++ launch 1 ++ [.manage, .manage, .work, .work]
    ∃ r e, run start acts = some (r, e) ∧
      Supervisor.hooks (supervisorOf e) =
        [.setUp, .event (.created 100), .event (.created 101), .prepare, .tick] ∧
      LaunchOrder start acts e := by
  intro start launch acts
  have hend : (run start acts).map (fun x => Supervisor.hooks (supervisorOf x.2)) =
      some [.setUp, .event (.created 100), .event (.created 101), .prepare, .tick] := by
    decide +kernel
  obtain ⟨⟨r, e⟩, hrun, hhooks⟩ := Option.map_eq_some_iff.mp hend
  exact ⟨r, e, hrun, hhooks, launch_is_orderly hrun⟩

end Corun.Run
