import Corun.Proofs.Child.Record

namespace Corun.Os.Errno

/-- The number fits into the four bytes of a report. -/
def Fits (e : Errno) : Prop := -2147483648 ≤ e.number ∧ e.number < 2147483648

/-- Four bytes are enough for a number of 32 bits. -/
theorem bytes_add_up {n : Nat} (h : n < 4294967296) :
    ([0, 8, 16, 24].map fun k => UInt8.ofNat (n >>> k)).foldr (fun b m => b.toNat + 256 * m) 0 = n := by
  have hbyte : ∀ k, (UInt8.ofNat (n >>> k)).toNat = n / 2 ^ k % 256 := by
    intro k
    rw [UInt8.toNat_ofNat', Nat.shiftRight_eq_div_pow]
  simp only [List.map_cons, List.map_nil, List.foldr_cons, List.foldr_nil, hbyte]
  omega

theorem recognized_of_known {e : Errno} (h : e.isKnown = true) : e.recognized = e := if_pos h

theorem recognized_of_not_known {e : Errno} (h : e.isKnown = false) : e.recognized = unknown := by
  rw [recognized, h]
  rfl

theorem recognized_recognized (e : Errno) : e.recognized.recognized = e.recognized := by
  cases h : e.isKnown with
  | true => rw [recognized_of_known h, recognized_of_known h]
  | false =>
    rw [recognized_of_not_known h]
    rfl

theorem fits_of_known {e : Errno} (h : e.isKnown = true) : e.Fits := by
  obtain ⟨entry, hentry⟩ := Option.isSome_iff_exists.mp h
  have hall : ∀ x ∈ table, Fits ⟨x.1⟩ := by simp [table, Fits]
  have hmem : (e.number, entry) ∈ table := by
    obtain ⟨before, after, htable, -⟩ := List.lookup_eq_some_iff.mp hentry
    rw [htable]
    simp
  exact hall _ hmem

theorem recognized_fits (e : Errno) : e.recognized.Fits := by
  cases h : e.isKnown with
  | true =>
    rw [recognized_of_known h]
    exact fits_of_known h
  | false =>
    rw [recognized_of_not_known h]
    exact ⟨by decide, by decide⟩

theorem ofBytes_toBytes {e : Errno} (h : e.Fits) : ofBytes e.toBytes = e.recognized := by
  have hpos : (0 : Int) < UInt32.size := by decide
  have hsmall : (e.number % UInt32.size).toNat < 4294967296 := by
    have hlt := Int.emod_lt_of_pos e.number hpos
    exact (Int.toNat_lt (Int.emod_nonneg _ (Int.ne_of_gt hpos))).mpr hlt
  have hword : ((e.number % UInt32.size).toNat : Int).bmod UInt32.size = e.number := by
    rw [Int.toNat_of_nonneg (Int.emod_nonneg _ (Int.ne_of_gt hpos)), Int.emod_bmod]
    obtain ⟨hlow, hhigh⟩ := h
    apply Int.bmod_eq_of_le_mul_two
    · change -4294967296 ≤ e.number * 2
      omega
    · change e.number * 2 < 4294967296
      omega
  have hbytes := bytes_add_up hsmall
  have heq : ofBytes e.toBytes =
      recognized ⟨((e.number % UInt32.size).toNat : Int).bmod UInt32.size⟩ := by
    unfold ofBytes toBytes
    rw [hbytes]
  rw [heq, hword]

/-- Whatever the system gives, what is recognized of it comes through. -/
theorem ofBytes_toBytes_recognized (e : Errno) : ofBytes e.recognized.toBytes = e.recognized := by
  rw [ofBytes_toBytes (recognized_fits e), recognized_recognized]

end Corun.Os.Errno

namespace Corun.Child
open Os

/-- What the child has yet to write of its report. -/
def Life.unsent : Life → List UInt8
  | refused unsent => unsent
  | _ => []

/-- The child has not gone past its gate, and may have ended there. -/
def Life.spared : Life → Bool
  | released | running | refused _ => false
  | _ => true

/-- What start has read of the report. -/
def Stage.got : Stage → List UInt8
  | reading bytes => bytes
  | _ => []

namespace Gated
open Sync

variable {g g' : Gated} {t u : Nat} {c : Call} {s : Stage} {r : Result Answer} {a : Action}
  {e seen : List Entry} {acts : List Action} {path : String} {operands : List String}
  {mode : KillMode}

/-- What trying to execute the command came to, each time that the child tried. -/
def attempts (entries : List Entry) : List (Option Errno) :=
  entries.filterMap fun
    | .executed refusal => some refusal
    | _ => none

@[simp] theorem attempts_nil : attempts [] = [] := rfl

@[simp] theorem attempts_append (e e' : List Entry) :
    attempts (e ++ e') = attempts e ++ attempts e' := List.filterMap_append

@[simp] theorem attempts_returned (t : Nat) (c : Call) (r : Result Answer) (e : List Entry) :
    attempts (.returned t c r :: e) = attempts e := rfl

@[simp] theorem attempts_signaled (mode : KillMode) (sent : Except Errno Unit) (e : List Entry) :
    attempts (.signaled mode sent :: e) = attempts e := rfl

@[simp] theorem attempts_reaped (status : WaitStatus) (e : List Entry) :
    attempts (.reaped status :: e) = attempts e := rfl

@[simp] theorem attempts_released (e : List Entry) : attempts (.released :: e) = attempts e := rfl

@[simp] theorem attempts_executed (refusal : Option Errno) (e : List Entry) :
    attempts (.executed refusal :: e) = refusal :: attempts e := rfl

/-- How far child and channels have come, by what was seen of them. -/
inductive Wired (g : Gated) (seen : List Entry) : Prop where
  | unborn (phase : g.phase = .notStarted) (untried : attempts seen = []) (shut : .released ∉ seen)
  /-- At the gate, with start not there or not yet at the gate. -/
  | gated (here : g.life = .forked ∨ g.life = .gated)
      (phase : g.phase = .ready ∨ g.phase = .running ∧ g.holder ≠ none)
      (stages : ∀ t s, g.pending? t = some ⟨.start, s⟩ → s = .notifying ∨ s = .releasing)
      (gateBytes : g.gateBytes = []) (gateOpen : g.gateOpen = true)
      (reportBytes : g.reportBytes = []) (reportOpen : g.reportOpen = true)
      (untried : attempts seen = []) (shut : .released ∉ seen)
  /-- Killed at the gate. -/
  | spared (here : g.life.spared = true) (phase : g.phase = .killed ∨ g.phase = .terminated)
      (gateBytes : g.gateBytes = []) (untried : attempts seen = []) (shut : .released ∉ seen)
  /-- Let through by a thread that is inside of start. -/
  | opened (here : (g.life = .forked ∨ g.life = .gated) ∧ g.gateBytes = [1] ∨
        g.life = .released ∧ g.gateBytes = [])
      (phase : g.phase = .running ∧ g.holder ≠ none)
      (stages : ∀ t s, g.pending? t = some ⟨.start, s⟩ → s = .closing ∨ s = .reading [])
      (reportBytes : g.reportBytes = []) (reportOpen : g.reportOpen = true)
      (untried : attempts seen = []) (opened : .released ∈ seen)
  | executed (here : g.life = .running ∨ (∃ status, g.life = .zombie status) ∨
        ∃ status, g.life = .reaped status)
      (phase : g.phase.Left)
      (stages : ∀ t s, g.pending? t = some ⟨.start, s⟩ → s = .closing ∨ s = .reading [])
      (reportBytes : g.reportBytes = []) (tried : attempts seen = [none])
      (opened : .released ∈ seen)
  /-- Not executed. What was read of the report, what is in the channel and what is not yet sent are the
  error number. -/
  | refused (errno : Errno)
      (here : (∃ unsent, g.life = .refused unsent) ∨ (∃ status, g.life = .zombie status) ∨
        ∃ status, g.life = .reaped status)
      (phase : g.phase.Left)
      (stages : ∀ t s, g.pending? t = some ⟨.start, s⟩ →
        (s = .closing ∨ ∃ bytes, s = .reading bytes ∧ bytes.length < reportSize) ∧
          s.got ++ g.reportBytes ++ g.life.unsent = errno.recognized.toBytes ∧ g.reportOpen = true)
      (tried : attempts seen = [some errno]) (opened : .released ∈ seen)

theorem ofCommand_wired : Wired (ofCommand path operands mode) [] := .unborn rfl rfl (by simp)

/-- Nothing has changed but what others wait for, and the step by which start leaves the latch. -/
structure WiringUnchanged (g g' : Gated) : Prop where
  phase : g'.phase = g.phase
  holder : g'.holder = g.holder
  life : g'.life = g.life
  gateBytes : g'.gateBytes = g.gateBytes
  gateOpen : g'.gateOpen = g.gateOpen
  reportBytes : g'.reportBytes = g.reportBytes
  reportOpen : g'.reportOpen = g.reportOpen
  stages : ∀ t s, g'.pending? t = some ⟨.start, s⟩ → g.pending? t = some ⟨.start, s⟩ ∨
    s = .releasing ∧ g.pending? t = some ⟨.start, .notifying⟩

theorem Wired.wiringUnchanged (hw : Wired g seen) (h : WiringUnchanged g g') : Wired g' seen := by
  have hlater : ∀ {P : Stage → Prop}, (∀ t s, g.pending? t = some ⟨.start, s⟩ → P s) →
      ¬ P .notifying → ∀ t s, g'.pending? t = some ⟨.start, s⟩ → P s := by
    intro P hstages hnot t s hin
    rcases h.stages t s hin with hsame | ⟨-, hbefore⟩
    · exact hstages t s hsame
    · exact absurd (hstages t _ hbefore) hnot
  cases hw with
  | unborn phase untried shut => exact .unborn (h.phase.trans phase) untried shut
  | gated here phase stages gateBytes gateOpen reportBytes reportOpen untried shut =>
    refine .gated (h.life ▸ here) (h.phase ▸ h.holder ▸ phase) ?_ (h.gateBytes.trans gateBytes)
      (h.gateOpen.trans gateOpen) (h.reportBytes.trans reportBytes) (h.reportOpen.trans reportOpen)
      untried shut
    intro t s hin
    rcases h.stages t s hin with hsame | ⟨hs, -⟩
    · exact stages t s hsame
    · exact .inr hs
  | spared here phase gateBytes untried shut =>
    exact .spared (h.life ▸ here) (h.phase ▸ phase) (h.gateBytes.trans gateBytes) untried shut
  | opened here phase stages reportBytes reportOpen untried opened =>
    exact .opened (h.life ▸ h.gateBytes ▸ here) (h.phase ▸ h.holder ▸ phase)
      (hlater stages (by simp)) (h.reportBytes.trans reportBytes) (h.reportOpen.trans reportOpen)
      untried opened
  | executed here phase stages reportBytes tried opened =>
    exact .executed (h.life ▸ here) (h.phase ▸ phase) (hlater stages (by simp))
      (h.reportBytes.trans reportBytes) tried opened
  | refused errno here phase stages tried opened =>
    refine .refused errno (h.life ▸ here) (h.phase ▸ phase) ?_ tried opened
    rw [h.reportBytes, h.life, h.reportOpen]
    exact hlater stages (by simp)

/-- What is seen besides does not matter. -/
theorem Wired.beside (hw : Wired g seen) (hsilent : attempts e = []) (hshut : .released ∉ e) :
    Wired g (seen ++ e) := by
  have htried : attempts (seen ++ e) = attempts seen := by rw [attempts_append, hsilent, List.append_nil]
  have hopened : .released ∈ seen ++ e ↔ .released ∈ seen := by simp [hshut]
  cases hw with
  | unborn phase untried shut =>
    exact .unborn phase (htried.trans untried) (fun h => shut (hopened.mp h))
  | gated here phase stages gateBytes gateOpen reportBytes reportOpen untried shut =>
    exact .gated here phase stages gateBytes gateOpen reportBytes reportOpen (htried.trans untried)
      (fun h => shut (hopened.mp h))
  | spared here phase gateBytes untried shut =>
    exact .spared here phase gateBytes (htried.trans untried) (fun h => shut (hopened.mp h))
  | opened here phase stages reportBytes reportOpen untried opened =>
    exact .opened here phase stages reportBytes reportOpen (htried.trans untried) (hopened.mpr opened)
  | executed here phase stages reportBytes tried opened =>
    exact .executed here phase stages reportBytes (htried.trans tried) (hopened.mpr opened)
  | refused errno here phase stages tried opened =>
    exact .refused errno here phase stages (htried.trans tried) (hopened.mpr opened)

theorem WiringUnchanged.place {l : Latch} (h : c = .start → s = .releasing ∧
    g.pending? t = some ⟨.start, .notifying⟩) :
    WiringUnchanged g ({ g with latch := l }.place t c s) := by
  refine ⟨rfl, rfl, rfl, rfl, rfl, rfl, rfl, ?_⟩
  intro x s' hin
  rw [pending?_place] at hin
  split at hin
  · rename_i hx
    cases hin
    subst hx
    exact .inr (h rfl)
  · exact .inl hin

theorem WiringUnchanged.refl : WiringUnchanged g g :=
  ⟨rfl, rfl, rfl, rfl, rfl, rfl, rfl, fun _ _ h => .inl h⟩

theorem WaitStep.wiringUnchanged (hs : Shared g) (h : WaitStep g t c s) :
    WiringUnchanged g (g.place t c s) := by
  apply WiringUnchanged.place (l := g.latch)
  intro hc
  cases h with
  | observes c status x inside =>
    rcases ((hs.inside t _ inside).waits (.inl rfl)).1 with h | h <;> cases h.symm.trans hc
  | _ => cases hc

theorem Answers.wiringUnchanged (hs : Shared g) (h : Answers g t c r) :
    WiringUnchanged g (g.back t c r).1 := by
  have hback := back_unheld (h.unheld hs) c r
  refine ⟨by rw [hback], by rw [hback], by rw [hback], by rw [hback], by rw [hback], by rw [hback],
    by rw [hback], ?_⟩
  intro x s hin
  rw [pending?_back] at hin
  split at hin
  · cases hin
  · exact .inl hin

theorem LatchStep.wiringUnchanged (h : LatchStep g g') : WiringUnchanged g g' := by
  cases h with
  | notifies t c s inside leads =>
    apply WiringUnchanged.place
    rintro rfl
    rcases leads with ⟨-, hs⟩ | ⟨hc, -⟩
    · exact ⟨hs, inside⟩
    · cases hc
  | slips | sleeps | wakes =>
    apply WiringUnchanged.place
    intro hc
    cases hc
  | rings | turns | leaves => exact ⟨rfl, rfl, rfl, rfl, rfl, rfl, rfl, fun _ _ h => .inl h⟩

/-- There is one thread inside of start, and it holds the lock. -/
theorem Shared.starter (hs : Shared g) (hin : g.pending? t = some ⟨.start, s⟩) :
    g.phase = .running ∧ g.holder = some t ∧
      ∀ x s', g.pending? x = some ⟨.start, s'⟩ → x = t ∧ s' = s := by
  have hheld := hs.held t _ hin rfl
  have hfits := hs.inside t _ hin
  refine ⟨?_, hheld, ?_⟩
  · cases s <;> simp_all [Pending.Fits]
  · intro x s' hx
    have hxheld := hs.held x _ hx rfl
    cases hheld.symm.trans hxheld
    cases hin.symm.trans hx
    exact ⟨rfl, rfl⟩

/-- Nobody is inside of start while the lock is free, or the child is not running. -/
theorem Shared.unstarted (hs : Shared g) (h : g.holder = none ∨ g.phase ≠ .running) (t : Nat)
    (s : Stage) : g.pending? t ≠ some ⟨.start, s⟩ := by
  intro hin
  obtain ⟨hrunning, hheld, -⟩ := hs.starter hin
  rcases h with hfree | hphase
  · cases hfree.symm.trans hheld
  · exact hphase hrunning

theorem Wired.creates {pid : Pid} (hs : Shared g) (hw : Wired g seen) (hunborn : g.phase = .notStarted)
    (t : Nat) (c : Call) (r : Result Answer) : Wired
      ({ g with
        phase := .ready, pid? := some pid, hasGate := true, hasReport := true
        gateBytes := [], gateOpen := true, reportBytes := [], reportOpen := true
        life := .forked }.back t c r).1 seen := by
  cases hw with
  | unborn phase untried shut =>
    refine .gated (.inl rfl) (.inl rfl) ?_ rfl rfl rfl rfl untried shut
    intro x s hin
    rw [pending?_back] at hin
    split at hin
    · cases hin
    · exact absurd hin (hs.unstarted (.inr (by simp [hunborn])) x s)
  | _ => simp_all [Phase.Left]

theorem Wired.starts (hs : Shared g) (hw : Wired g seen) (hready : g.phase = .ready) (t : Nat) : Wired
      ({ g with phase := .running, hasGate := false, hasReport := false, holder := some t }.place
        t .start .notifying) seen := by
  cases hw with
  | gated here phase stages gateBytes gateOpen reportBytes reportOpen untried shut =>
    refine .gated here (.inr ⟨rfl, by simp [Gated.place]⟩) ?_ gateBytes gateOpen reportBytes reportOpen
      untried shut
    intro x s hin
    rw [pending?_place] at hin
    split at hin
    · cases hin
      exact .inl rfl
    · exact absurd hin (hs.unstarted (.inr (by simp [hready])) x s)
  | _ => simp_all [Phase.Left]

theorem Wired.kills (hs : Shared g) (hw : Wired g seen) (hfree : g.holder = none)
    (halive : g.phase = .ready ∨ g.phase = .running) (t : Nat) : Wired
      ({ g with phase := .killed, holder := some t }.place t .kill .notifying) seen := by
  have hnobody : ∀ x s, Gated.pending? x
      ({ g with phase := .killed, holder := some t }.place t .kill .notifying) ≠ some ⟨.start, s⟩ := by
    intro x s hin
    rw [pending?_place] at hin
    split at hin
    · cases hin
    · exact hs.unstarted (.inl hfree) x s hin
  cases hw with
  | gated here phase stages gateBytes gateOpen reportBytes reportOpen untried shut =>
    refine .spared ?_ (.inl rfl) gateBytes untried shut
    rcases here with hl | hl <;> simp [Gated.place, hl, Life.spared]
  | executed here phase stages reportBytes tried opened =>
    exact .executed here (.inr (.inl rfl)) (fun x s hin => absurd hin (hnobody x s)) reportBytes tried
      opened
  | refused errno here phase stages tried opened =>
    exact .refused errno here (.inr (.inl rfl)) (fun x s hin => absurd hin (hnobody x s)) tried opened
  | unborn phase => simp [phase] at halive
  | spared here phase => rcases phase with hp | hp <;> simp [hp] at halive
  | opened here phase => exact absurd hfree phase.2

theorem Wired.signals {life : Life} (hs : Shared g) (hw : Wired g seen) (hkilled : g.phase = .killed)
    (hhit : g.life = life ∨ ∃ status, life = .zombie status) (t : Nat) (c : Call) (r : Result Answer) :
    Wired ({ g with life }.back t c r).1 seen := by
  have hnobody : ∀ x s, Gated.pending? x ({ g with life }.back t c r).1 ≠ some ⟨.start, s⟩ := by
    intro x s hin
    rw [pending?_back] at hin
    split at hin
    · cases hin
    · exact hs.unstarted (.inr (by simp [hkilled])) x s hin
  cases hw with
  | spared here phase gateBytes untried shut =>
    refine .spared ?_ phase gateBytes untried shut
    rcases hhit with rfl | ⟨status, rfl⟩
    · exact here
    · rfl
  | executed here phase stages reportBytes tried opened =>
    refine .executed ?_ phase (fun x s hin => absurd hin (hnobody x s)) reportBytes tried opened
    rcases hhit with rfl | hz
    · exact here
    · exact .inr (.inl hz)
  | refused errno here phase stages tried opened =>
    refine .refused errno ?_ phase (fun x s hin => absurd hin (hnobody x s)) tried opened
    rcases hhit with rfl | hz
    · exact here
    · exact .inr (.inl hz)
  | _ => simp_all

theorem Wired.reaps {status : WaitStatus} {x : Termination} (hs : Shared g) (hw : Wired g seen)
    (hfree : g.holder = none) (hended : g.life = .zombie status) (t : Nat) (c : Call)
    (r : Result Answer) : Wired
      (Gated.back t c r
        { g with life := .reaped status, termination? := some x, phase := .terminated }).1 seen := by
  have hnobody : ∀ y s, Gated.pending? y (Gated.back t c r
      { g with life := .reaped status, termination? := some x, phase := .terminated }).1 ≠
        some ⟨.start, s⟩ := by
    intro y s hin
    rw [pending?_back] at hin
    split at hin
    · cases hin
    · exact hs.unstarted (.inl hfree) y s hin
  cases hw with
  | spared here phase gateBytes untried shut =>
    exact .spared rfl (.inr rfl) gateBytes untried shut
  | executed here phase stages reportBytes tried opened =>
    exact .executed (.inr (.inr ⟨status, rfl⟩)) (.inr (.inr rfl))
      (fun x s hin => absurd hin (hnobody x s)) reportBytes tried opened
  | refused errno here phase stages tried opened =>
    exact .refused errno (.inr (.inr ⟨status, rfl⟩)) (.inr (.inr rfl))
      (fun x s hin => absurd hin (hnobody x s)) tried opened
  | unborn phase => cases (hs.absent.mpr phase).symm.trans hended
  | gated here | opened here => simp [hended] at here

theorem Wired.seizes {status : WaitStatus} (hs : Shared g) (hw : Wired g seen)
    (hended : g.life = .zombie status) : Wired { g with life := .reaped status } seen := by
  cases hw with
  | spared here phase gateBytes untried shut => exact .spared rfl phase gateBytes untried shut
  | executed here phase stages reportBytes tried opened =>
    exact .executed (.inr (.inr ⟨status, rfl⟩)) phase stages reportBytes tried opened
  | refused errno here phase stages tried opened =>
    refine .refused errno (.inr (.inr ⟨status, rfl⟩)) phase ?_ tried opened
    simp only [hended, Life.unsent] at stages
    exact stages
  | unborn phase => cases (hs.absent.mpr phase).symm.trans hended
  | gated here | opened here => simp [hended] at here

/-- A child that is past its gate is about to make its first attempt. -/
theorem Wired.past_gate (hs : Shared g) (hw : Wired g seen) (hl : g.life = .released) :
    (g.phase = .running ∧ g.holder ≠ none) ∧
      (∀ t s, g.pending? t = some ⟨.start, s⟩ → s = .closing ∨ s = .reading []) ∧
      g.reportBytes = [] ∧ g.reportOpen = true ∧ attempts seen = [] ∧ .released ∈ seen := by
  cases hw with
  | opened here phase stages reportBytes reportOpen untried opened =>
    exact ⟨phase, stages, reportBytes, reportOpen, untried, opened⟩
  | unborn phase => cases (hs.absent.mpr phase).symm.trans hl
  | gated here | executed here | refused errno here => simp [hl] at here
  | spared here => simp [hl, Life.spared] at here

/-- A child that could not execute its command has an error number to report. -/
theorem Wired.has_report {unsent : List UInt8} (hs : Shared g) (hw : Wired g seen)
    (hl : g.life = .refused unsent) : ∃ errno, g.phase.Left ∧
      (∀ t s, g.pending? t = some ⟨.start, s⟩ →
        (s = .closing ∨ ∃ bytes, s = .reading bytes ∧ bytes.length < reportSize) ∧
          s.got ++ g.reportBytes ++ unsent = errno.recognized.toBytes ∧ g.reportOpen = true) ∧
      attempts seen = [some errno] ∧ .released ∈ seen := by
  cases hw with
  | refused errno here phase stages tried opened =>
    rw [hl] at stages
    exact ⟨errno, phase, stages, tried, opened⟩
  | unborn phase => cases (hs.absent.mpr phase).symm.trans hl
  | gated here | opened here | executed here => simp [hl] at here
  | spared here => simp [hl, Life.spared] at here

/-- A child that has executed its command ends in whatever way. -/
theorem Wired.ends (hs : Shared g) (hw : Wired g seen) (hrunning : g.life = .running)
    (status : WaitStatus) : Wired { g with life := .zombie status } seen := by
  cases hw with
  | executed here phase stages reportBytes tried opened =>
    exact .executed (.inr (.inl ⟨status, rfl⟩)) phase stages reportBytes tried opened
  | unborn phase => cases (hs.absent.mpr phase).symm.trans hrunning
  | gated here | opened here | refused errno here => simp [hrunning] at here
  | spared here => simp [hrunning, Life.spared] at here

theorem Wired.settles (hs : Shared g) (hw : Wired g seen) (hl : g.life = .forked) :
    Wired { g with life := .gated } seen := by
  cases hw with
  | gated here phase stages gateBytes gateOpen reportBytes reportOpen untried shut =>
    exact .gated (.inr rfl) phase stages gateBytes gateOpen reportBytes reportOpen untried shut
  | spared here phase gateBytes untried shut => exact .spared rfl phase gateBytes untried shut
  | opened here phase stages reportBytes reportOpen untried opened =>
    rcases here with ⟨-, hbyte⟩ | ⟨hreleased, -⟩
    · exact .opened (.inl ⟨.inr rfl, hbyte⟩) phase stages reportBytes reportOpen untried opened
    · cases hreleased.symm.trans hl
  | unborn phase => cases (hs.absent.mpr phase).symm.trans hl
  | executed here | refused errno here => simp [hl] at here

/-- The gate has a byte only for a child that start lets through. -/
theorem Wired.passes {byte : UInt8} {rest : List UInt8} (hs : Shared g) (hw : Wired g seen)
    (hl : g.life = .gated) (hsent : g.gateBytes = byte :: rest) :
    Wired { g with gateBytes := rest, life := .released } seen := by
  cases hw with
  | opened here phase stages reportBytes reportOpen untried opened =>
    rcases here with ⟨-, hbyte⟩ | ⟨hreleased, -⟩
    · rw [hsent, List.cons.injEq] at hbyte
      exact .opened (.inr ⟨rfl, hbyte.2⟩) phase stages reportBytes reportOpen untried opened
    · cases hreleased.symm.trans hl
  | unborn phase => cases (hs.absent.mpr phase).symm.trans hl
  | gated here phase stages gateBytes | spared here phase gateBytes => cases gateBytes.symm.trans hsent
  | executed here | refused errno here => simp [hl] at here

/-- The gate is shut before a child only when that was killed. -/
theorem Wired.findsGateShut (hs : Shared g) (hw : Wired g seen) (hl : g.life = .gated)
    (hsilent : g.gateBytes = []) (hshut : g.gateOpen = false) :
    Wired { g with life := .zombie (.exited Life.gateClosed) } seen := by
  cases hw with
  | spared here phase gateBytes untried shut => exact .spared rfl phase gateBytes untried shut
  | unborn phase => cases (hs.absent.mpr phase).symm.trans hl
  | gated here phase stages gateBytes gateOpen => cases gateOpen.symm.trans hshut
  | opened here => simp [hl, hsilent] at here
  | executed here | refused errno here => simp [hl] at here

/-- A child that has not ended does so only when it has found its gate shut, has executed its command or
has reported that it cannot. -/
theorem Wired.moves {m : Child.Move} (hs : Shared g) (hw : Wired g seen) (h : MoveEffect g m g' e)
    (hunharmed : ∀ signal, m = .die signal → g.life = .running) : Wired g' (seen ++ e) := by
  cases h with
  | settles here₁ =>
    rw [List.append_nil]
    exact hw.settles hs here₁
  | passes byte rest here₁ sent =>
    rw [List.append_nil]
    exact hw.passes hs here₁ sent
  | findsGateShut here₁ silent shut₁ =>
    rw [List.append_nil]
    exact hw.findsGateShut hs here₁ silent shut₁
  | executes here₁ =>
    obtain ⟨phase, stages, reportBytes, -, untried, opened⟩ := hw.past_gate hs here₁
    exact .executed (.inl rfl) (.inl phase.1) stages reportBytes (by simp [untried])
      (List.mem_append_left _ opened)
  | isRefused errno here₁ =>
    obtain ⟨phase, stages, reportBytes, reportOpen, untried, opened⟩ := hw.past_gate hs here₁
    refine .refused errno (.inl ⟨_, rfl⟩) (.inl phase.1) ?_ (by simp [untried])
      (List.mem_append_left _ opened)
    intro t s hin
    simp only [reportBytes, Life.unsent]
    rcases stages t s hin with rfl | rfl
    · exact ⟨.inl rfl, rfl, reportOpen⟩
    · exact ⟨.inr ⟨[], rfl, by decide⟩, rfl, reportOpen⟩
  | reports unsent here₁ some heard =>
    rw [List.append_nil]
    obtain ⟨errno, phase, stages, tried, opened⟩ := hw.has_report hs here₁
    refine .refused errno (.inl ⟨_, rfl⟩) phase ?_ tried opened
    intro t s hin
    obtain ⟨hstage, hbytes, hopen⟩ := stages t s hin
    rw [List.append_assoc] at hbytes
    exact ⟨hstage, by simpa [Life.unsent] using hbytes, hopen⟩
  | reportsToNobody unsent here₁ some deserted =>
    rw [List.append_nil]
    obtain ⟨errno, phase, stages, tried, opened⟩ := hw.has_report hs here₁
    refine .refused errno (.inl ⟨_, rfl⟩) phase ?_ tried opened
    intro t s hin
    -- Whoever is inside of start has the other end.
    obtain ⟨-, -, hopen⟩ := stages t s hin
    cases hopen.symm.trans deserted
  | givesUp here₁ =>
    rw [List.append_nil]
    obtain ⟨errno, phase, stages, tried, opened⟩ := hw.has_report hs here₁
    exact .refused errno (.inr (.inl ⟨_, rfl⟩)) phase stages tried opened
  | exits status here₁ =>
    rw [List.append_nil]
    exact hw.ends hs here₁ _
  | dies signal live =>
    rw [List.append_nil]
    exact hw.ends hs (hunharmed signal rfl) _
  | follows others born =>
    rw [List.append_nil]
    exact hw.wiringUnchanged ⟨rfl, rfl, rfl, rfl, rfl, rfl, rfl, fun _ _ h => .inl h⟩

/-- Nobody is inside of start any more when it has come back. -/
theorem Shared.startEnded (hs : Shared g) (hin : g.pending? t = some ⟨.start, s⟩) (r : Result Answer)
    (reportBytes : List UInt8) (x : Nat) (s' : Stage) :
    (Gated.endStart t r { g with reportBytes }).1.pending? x ≠ some ⟨.start, s'⟩ := by
  intro hx
  rw [pending?_endStart] at hx
  split at hx
  · cases hx
  · rename_i hne
    exact hne ((hs.starter hin).2.2 x s' hx).1

theorem Shared.startStages (hs : Shared g) (hin : g.pending? t = some ⟨.start, s⟩) {next : Stage}
    {gateOpen : Bool} {gateBytes reportBytes : List UInt8} {x : Nat} {s' : Stage}
    (hx : Gated.pending? x ({ g with gateOpen, gateBytes, reportBytes }.place t .start next) =
      some ⟨.start, s'⟩) : s' = next := by
  rw [pending?_place] at hx
  split at hx
  · cases hx
    rfl
  · rename_i hne
    exact absurd ((hs.starter hin).2.2 x s' hx).1 hne

theorem Wired.unopened (hs : Shared g) (hw : Wired g seen)
    (hin : g.pending? t = some ⟨.start, .releasing⟩) :
    (g.life = .forked ∨ g.life = .gated) ∧ g.gateBytes = [] ∧ g.reportBytes = [] ∧
      g.reportOpen = true ∧ attempts seen = [] := by
  obtain ⟨hrunning, -, -⟩ := hs.starter hin
  cases hw with
  | gated here phase stages gateBytes gateOpen reportBytes reportOpen untried =>
    exact ⟨here, gateBytes, reportBytes, reportOpen, untried⟩
  | unborn phase => cases phase.symm.trans hrunning
  | spared here phase => simp [hrunning] at phase
  | opened here phase stages | executed here phase stages =>
    rcases stages t _ hin with h | h <;> cases h
  | refused errno here phase stages =>
    rcases (stages t _ hin).1 with h | ⟨_, h, _⟩ <;> cases h

/-- The child is at the gate when start is about to open it. -/
theorem Wired.heard (hs : Shared g) (hw : Wired g seen)
    (hin : g.pending? t = some ⟨.start, .releasing⟩) : g.life.gateReaders = 1 := by
  obtain ⟨here, -⟩ := hw.unopened hs hin
  rcases here with hl | hl <;> rw [hl] <;> rfl

theorem Wired.opens (hs : Shared g) (hw : Wired g seen)
    (hin : g.pending? t = some ⟨.start, .releasing⟩) :
    Wired ({ g with gateBytes := g.gateBytes ++ [1] }.place t .start .closing)
      (seen ++ [.released]) := by
  obtain ⟨hrunning, hheld, -⟩ := hs.starter hin
  obtain ⟨here, gateBytes, reportBytes, reportOpen, untried⟩ := hw.unopened hs hin
  refine .opened (.inl ⟨here, by simp [Gated.place, gateBytes]⟩) ⟨hrunning, ?_⟩ ?_ reportBytes
    reportOpen (by simp [untried]) (by simp)
  · simp [Gated.place, hheld]
  · intro x s' hx
    exact .inl (hs.startStages hin hx)

theorem Wired.closes (hs : Shared g) (hw : Wired g seen)
    (hin : g.pending? t = some ⟨.start, .closing⟩) :
    Wired ({ g with gateOpen := false }.place t .start (.reading [])) seen := by
  obtain ⟨hrunning, hheld, -⟩ := hs.starter hin
  cases hw with
  | opened here phase stages reportBytes reportOpen untried opened =>
    refine .opened here ⟨hrunning, by simp [Gated.place, hheld]⟩ ?_ reportBytes reportOpen untried opened
    intro x s' hx
    exact .inr (hs.startStages hin hx)
  | executed here phase stages reportBytes tried opened =>
    refine .executed here phase ?_ reportBytes tried opened
    intro x s' hx
    exact .inr (hs.startStages hin hx)
  | refused errno here phase stages tried opened =>
    refine .refused errno here phase ?_ tried opened
    intro x s' hx
    obtain ⟨-, hbytes, hopen⟩ := stages t _ hin
    obtain rfl := hs.startStages hin hx
    exact ⟨.inr ⟨[], rfl, by decide⟩, hbytes, hopen⟩
  | unborn phase => cases phase.symm.trans hrunning
  | spared here phase => simp [hrunning] at phase
  | gated here phase stages => rcases stages t _ hin with h | h <;> cases h

theorem Wired.reads {bytes chunk rest : List UInt8} (hs : Shared g) (hw : Wired g seen)
    (hin : g.pending? t = some ⟨.start, .reading bytes⟩) (hsent : g.reportBytes = chunk ++ rest)
    (hsome : chunk ≠ []) (hfits : chunk.length ≤ reportSize - bytes.length)
    (hshort : (bytes ++ chunk).length ≠ reportSize) :
    Wired ({ g with reportBytes := rest }.place t .start (.reading (bytes ++ chunk))) seen := by
  obtain ⟨hrunning, -, -⟩ := hs.starter hin
  have hnonempty : g.reportBytes ≠ [] := by simp [hsent, hsome]
  cases hw with
  | refused errno here phase stages tried opened =>
    refine .refused errno here phase ?_ tried opened
    intro x s' hx
    obtain ⟨hstage, hbytes, hopen⟩ := stages t _ hin
    obtain rfl := hs.startStages hin hx
    have hmore : bytes.length < reportSize := by
      rcases hstage with h | ⟨_, h, hlength⟩ <;> cases h
      exact hlength
    refine ⟨.inr ⟨_, rfl, ?_⟩, ?_, hopen⟩
    · rw [List.length_append] at hshort ⊢
      omega
    · rw [← hbytes, hsent]
      simp [Stage.got, Gated.place]
  | unborn phase => cases phase.symm.trans hrunning
  | spared here phase => simp [hrunning] at phase
  | gated here phase stages gateBytes gateOpen reportBytes => exact absurd reportBytes hnonempty
  | opened here phase stages reportBytes | executed here phase stages reportBytes =>
    exact absurd reportBytes hnonempty

/-- What start finds after it has opened the gate: the child has not tried yet and has its end of the
report, or it has tried, and then its end is closed or all that it has not yet sent is in it. -/
theorem Wired.past (hs : Shared g) (hw : Wired g seen) (hin : g.pending? t = some ⟨.start, s⟩)
    (hpast : s ≠ .notifying ∧ s ≠ .releasing) :
    (g.life.reportWriters = 1 ∧ g.reportBytes = [] ∧ (s = .closing ∨ s = .reading [])) ∨
    (attempts seen = [none] ∧ g.reportBytes = [] ∧ (s = .closing ∨ s = .reading [])) ∨
    ∃ errno, attempts seen = [some errno] ∧ s.got ++ g.reportBytes ++ g.life.unsent = errno.recognized.toBytes ∧
      (g.life.reportWriters = 0 → g.life.unsent = []) ∧
      (s = .closing ∨ ∃ bytes, s = .reading bytes ∧ bytes.length < reportSize) := by
  obtain ⟨hrunning, -, -⟩ := hs.starter hin
  cases hw with
  | unborn phase => cases phase.symm.trans hrunning
  | spared here phase => simp [hrunning] at phase
  | gated here phase stages =>
    rcases stages t _ hin with hstage | hstage
    · exact absurd hstage hpast.1
    · exact absurd hstage hpast.2
  | opened here phase stages reportBytes =>
    refine .inl ⟨?_, reportBytes, stages t _ hin⟩
    rcases here with ⟨hl | hl, -⟩ | ⟨hl, -⟩ <;> rw [hl] <;> rfl
  | executed here phase stages reportBytes tried => exact .inr (.inl ⟨tried, reportBytes, stages t _ hin⟩)
  | refused errno here phase stages tried =>
    obtain ⟨hstage, hbytes, -⟩ := stages t _ hin
    refine .inr (.inr ⟨errno, tried, hbytes, ?_, hstage⟩)
    intro hwriters
    rcases here with ⟨unsent, hl⟩ | ⟨status, hl⟩ | ⟨status, hl⟩
    · rw [hl] at hwriters
      cases hwriters
    · rw [hl]
      rfl
    · rw [hl]
      rfl

/-- Who has read nothing from a report in which nothing is has not read a report. -/
theorem nothing_told {bytes chunk rest : List UInt8}
    (hstage : Stage.reading bytes = .closing ∨ Stage.reading bytes = .reading [])
    (hnothing : g.reportBytes = []) (hsent : g.reportBytes = chunk ++ rest) :
    (bytes ++ chunk).length ≠ reportSize := by
  have hbytes : bytes = [] := by
    rcases hstage with h | h <;> cases h
    rfl
  have hchunk : chunk = [] := (List.append_eq_nil_iff.mp (hsent.symm.trans hnothing)).1
  rw [hbytes, hchunk]
  decide

/-- Start has a whole report, or finds that there will be no more, only when the child has tried to execute
its command. -/
theorem Wired.tried {bytes : List UInt8} (hs : Shared g) (hw : Wired g seen)
    (hin : g.pending? t = some ⟨.start, .reading bytes⟩)
    (hread : (∃ chunk rest, g.reportBytes = chunk ++ rest ∧ (bytes ++ chunk).length = reportSize) ∨
      g.report.blocks = false) : attempts seen ≠ [] := by
  rcases hw.past hs hin (by simp) with ⟨hwriters, hnothing, hstage⟩ | ⟨htried, -⟩ | ⟨errno, htried, -⟩
  · rcases hread with ⟨chunk, rest, hsent, hfull⟩ | hflows
    · exact absurd hfull (nothing_told hstage hnothing hsent)
    · simp [report, Channel.blocks, hnothing, hwriters] at hflows
  · simp [htried]
  · simp [htried]

theorem Wired.startReturns {s : Stage} (hs : Shared g) (hw : Wired g seen)
    (hin : g.pending? t = some ⟨.start, s⟩) (htried : attempts seen ≠ []) {rest : List UInt8}
    (hrest : g.reportBytes = [] → rest = []) (res : Result Answer) :
    Wired (Gated.endStart t res { g with reportBytes := rest }).1 (seen ++ [.returned t .start res]) := by
  refine .beside ?_ rfl (by simp)
  cases hw with
  | executed here phase stages reportBytes tried opened =>
    exact .executed here phase (fun x s' hx => absurd hx (hs.startEnded hin _ _ x s'))
      (hrest reportBytes) tried opened
  | refused errno here phase stages tried opened =>
    exact .refused errno here phase (fun x s' hx => absurd hx (hs.startEnded hin _ _ x s')) tried opened
  | unborn phase untried => exact absurd untried htried
  | spared here phase gateBytes untried => exact absurd untried htried
  | gated here phase stages gateBytes gateOpen reportBytes reportOpen untried =>
    exact absurd untried htried
  | opened here phase stages reportBytes reportOpen untried => exact absurd untried htried

/-- The stages that start goes through after it has let the child through, if it is the one that did. -/
theorem Wired.releases (hs : Shared g) (hw : Wired g seen) (h : StartStep g t g' e) :
    Wired g' (seen ++ e) := by
  cases h with
  | opens inside => exact hw.opens hs inside
  | findsNobody inside deserted => simp [hw.heard hs inside] at deserted
  | closes inside =>
    rw [List.append_nil]
    exact hw.closes hs inside
  | reads bytes chunk rest inside sent some fits short =>
    rw [List.append_nil]
    exact hw.reads hs inside sent some fits short
  | isTold bytes chunk rest inside sent full =>
    refine hw.startReturns hs inside (hw.tried hs inside (.inl ⟨chunk, rest, sent, full⟩)) ?_ _
    intro hnone
    exact (List.append_eq_nil_iff.mp (sent.symm.trans hnone)).2
  | hearsEnd bytes inside flows =>
    exact hw.startReturns hs inside (hw.tried hs inside (.inr flows)) id _

/-- What start comes back with once the child has tried to execute its command. The error is exactly that
of the child, which is unknown to both if the system has none of its number. -/
def ReportTold (path : String) (tried : List (Option Errno)) (r : Result Answer) : Prop :=
  tried = [none] ∧ r = .ok .done ∨
    ∃ errno told, tried = [some errno] ∧ r = Result.fail (.execFailed path told) ∧
      (errno.isKnown = true → told = errno) ∧ (errno.isKnown = false → told = .unknown)

/-- Start comes back when it knows what became of the attempt. The end of the report without a word is
that the command is executed, since a child that could not execute it does not give its end up unheard. -/
theorem Wired.told (hs : Shared g) (hw : Wired g seen) (h : StartStep g t g' e)
    (hr : .returned u c r ∈ e) :
    u = t ∧ c = .start ∧ ReportTold g.path (attempts seen) r := by
  cases h with
  | opens => simp at hr
  | closes | reads => cases hr
  | findsNobody inside deserted => simp [hw.heard hs inside] at deserted
  | isTold bytes chunk rest inside sent full =>
    obtain ⟨rfl, rfl, rfl⟩ := Entry.returned.inj (List.mem_singleton.mp hr)
    refine ⟨rfl, rfl, ?_⟩
    rcases hw.past hs inside (by simp) with ⟨-, hnothing, hstage⟩ | ⟨-, hnothing, hstage⟩ |
        ⟨errno, htried, hbytes, -⟩
    · exact absurd full (nothing_told hstage hnothing sent)
    · exact absurd full (nothing_told hstage hnothing sent)
    · have hprefix : bytes ++ chunk <+: errno.recognized.toBytes := by
        refine ⟨rest ++ g.life.unsent, ?_⟩
        rw [← hbytes, sent]
        simp [Stage.got]
      have hwhole : bytes ++ chunk = errno.recognized.toBytes := hprefix.eq_of_length full
      refine .inr ⟨errno, _, htried, rfl, ?_, ?_⟩
      · intro hknown
        rw [hwhole, Errno.ofBytes_toBytes_recognized, Errno.recognized_of_known hknown]
      · intro hunknown
        rw [hwhole, Errno.ofBytes_toBytes_recognized, Errno.recognized_of_not_known hunknown]
  | hearsEnd bytes inside flows silent =>
    obtain ⟨rfl, rfl, rfl⟩ := Entry.returned.inj (List.mem_singleton.mp hr)
    refine ⟨rfl, rfl, ?_⟩
    rcases hw.past hs inside (by simp) with ⟨hwriters, hnothing, -⟩ | ⟨htried, -⟩ |
        ⟨errno, htried, hbytes, hsent, hstage⟩
    · simp [report, Channel.blocks, hnothing, hwriters] at flows
    · exact .inl ⟨htried, rfl⟩
    · -- The whole report would have been read, and then it is more than its end that start has heard.
      have hshort : bytes.length < reportSize := by
        rcases hstage with hs | ⟨_, hs, hlength⟩ <;> cases hs
        exact hlength
      have hnothing := silent hshort
      have hwriters : g.life.reportWriters = 0 := by
        simpa [report, Channel.blocks, hnothing] using flows
      rw [hnothing, hsent hwriters] at hbytes
      have hlength := congrArg List.length hbytes
      simp only [Stage.got, List.append_nil] at hlength
      exact absurd hlength (Nat.ne_of_lt hshort)

theorem Wired.effect (hs : Shared g) (hw : Wired g seen) (h : StepEffect g a g' e)
    (hunharmed : ∀ signal, a = .child (.die signal) → g.life = .running) : Wired g' (seen ++ e) := by
  cases h with
  | waitsOn t c s leads =>
    exact (hw.wiringUnchanged (leads.wiringUnchanged hs)).beside rfl (by simp)
  | answers t c r gives =>
    exact (hw.wiringUnchanged (gives.wiringUnchanged hs)).beside rfl (by simp)
  | latches g' rung => exact (hw.wiringUnchanged rung.wiringUnchanged).beside rfl (by simp)
  | creates t pid idle free unborn => exact (hw.creates hs unborn t _ _).beside rfl (by simp)
  | starts t idle free gated => exact (hw.starts hs gated t).beside rfl (by simp)
  | releases t g' e goesOn => exact hw.releases hs goesOn
  | kills t idle free alive => exact (hw.kills hs free alive t).beside rfl (by simp)
  | signals t life sent r inside hit =>
    have hkilled : g.phase = .killed := hs.inside t _ inside
    have hhit : g.life = life ∨ ∃ status, life = .zombie status :=
      hit.imp_right fun h => ⟨_, h.2⟩
    exact (hw.signals hs hkilled hhit t _ r).beside rfl (by simp)
  | reaps t c status x inside free ended => exact (hw.reaps hs free ended t c _).beside rfl (by simp)
  | moves m g' e does goesOn =>
    exact hw.moves hs goesOn fun signal hm => hunharmed signal (by rw [does, hm])
  | seizes status behind ended => exact (hw.seizes hs ended).beside rfl (by simp)

end Gated

end Corun.Child
