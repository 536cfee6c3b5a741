import Corun.Proofs.Cpu.Rebinding
import Corun.Proofs.Cpu.Ring

namespace Corun.Cpu.Hopper
open Os

variable {h : Hopper} {pid : Pid} {interval : Nat} {cpus : List Nat} {binder : Binder}

/-- The first CPU of a list that has no process. -/
def FirstFree (cpus : List Nat) (h : Hopper) (cpu : Nat) : Prop :=
  ∃ before after, cpus = before ++ cpu :: after ∧
    (∀ c ∈ before, ∃ q, h.cpuOf? q = .ok (some c)) ∧ ∀ q, h.cpuOf? q ≠ .ok (some cpu)

theorem Settled.firstFree (hs : Settled h) (hd : h.table.cpus.Nodup) {slot cpu : Nat}
    (hfirst : h.table.firstFree? = some slot) (hc : h.table.cpu slot = .ok cpu) :
    FirstFree h.table.cpus h cpu := by
  obtain ⟨hfree, hbefore⟩ := Table.firstFree_eq_some.mp hfirst
  have hat := Table.cpu_eq_ok.mp hc
  obtain ⟨hlt, rfl⟩ := List.getElem?_eq_some_iff.mp hat
  refine ⟨h.table.cpus.take slot, h.table.cpus.drop (slot + 1), ?_, ?_, ?_⟩
  · rw [List.getElem_cons_drop, List.take_append_drop]
  · intro c hm
    obtain ⟨k, hk⟩ := List.getElem?_of_mem hm
    have hks : k < slot := by
      have := (List.getElem?_eq_some_iff.mp hk).1
      rw [List.length_take] at this
      omega
    rw [List.getElem?_take_of_lt hks] at hk
    obtain ⟨q, hq⟩ := (hs.marked k).mp (hbefore k hks)
    exact ⟨q, by rw [hs.cpuOf, hq, seatOf, Option.bind_some, hk]⟩
  · intro q hq
    obtain ⟨k, hk, hkc⟩ := slotOf_of_cpuOf hq
    cases Table.cpu_inj hd hkc hc
    exact hs.fresh hfree q hk

/-- What comes of each process that a hopper may be asked to add. -/
structure Admission (cpus : List Nat) (h : Hopper) : Prop where
  accepted : ∀ pid, (h.add pid).result = .ok () ↔
    ¬h.Tracks pid ∧ h.slots.length + 1 < cpus.length
  /-- Also while there is no room. -/
  duplicate : ∀ pid, h.Tracks pid → h.add pid = .fail h (.duplicateTarget pid) []
  full : ∀ pid, ¬h.Tracks pid → cpus.length ≤ h.slots.length + 1 →
    h.add pid = .fail h (.noFreeCpu cpus.length) []
  settled : ∀ pid, (h.add pid).result = .ok () → ∃ cpu, FirstFree cpus h cpu ∧
    (pins (h.add pid).notes).map Pin.target = [(pid, cpu)] ∧
    ∀ q, (h.add pid).state.cpuOf? q = if q = pid then .ok (some cpu) else h.cpuOf? q

theorem not_tracks_iff : ¬h.Tracks pid ↔ h.slotOf? pid = none := by
  simp [Tracks, Option.eq_none_iff_forall_ne_some]

theorem Settled.admission (hs : Settled h) (hd : h.table.cpus.Nodup) :
    Admission h.table.cpus h := by
  have hduplicate : ∀ pid, h.Tracks pid → h.add pid = .fail h (.duplicateTarget pid) [] :=
    fun _ ⟨_, hslot⟩ => add_tracked hslot
  have hfull : ∀ pid, ¬h.Tracks pid → h.table.size ≤ h.slots.length + 1 →
      h.add pid = .fail h (.noFreeCpu h.table.size) [] :=
    fun _ hn hr => add_full (not_tracks_iff.mp hn) hr
  have haccepted : ∀ pid, (h.add pid).result = .ok () ↔
      ¬h.Tracks pid ∧ h.slots.length + 1 < h.table.size := by
    intro pid
    by_cases ht : h.Tracks pid
    · rw [hduplicate pid ht]
      exact iff_of_false (by simp [Step.fail, Result.fail]) fun hn => hn.1 ht
    · by_cases hr : h.table.size ≤ h.slots.length + 1
      · rw [hfull pid ht hr]
        exact iff_of_false (by simp [Step.fail, Result.fail]) fun hn => Nat.not_lt.mpr hr hn.2
      · obtain ⟨slot, cpu, _, _, _, hadd⟩ := hs.add_room (not_tracks_iff.mp ht) (Nat.not_le.mp hr)
        rw [hadd]
        exact iff_of_true rfl ⟨ht, Nat.not_le.mp hr⟩
  refine ⟨haccepted, hduplicate, hfull, ?_⟩
  intro pid hok
  obtain ⟨hn, hroom⟩ := (haccepted pid).mp hok
  have hslot := not_tracks_iff.mp hn
  obtain ⟨slot, cpu, hfirst, hf, hc, hadd⟩ := hs.add_room hslot hroom
  obtain ⟨_, p, hone, hplaces⟩ := (Shift.placed hslot hroom hf hc).relocates
  have hpin : p = ⟨pid, cpu, h.binder h.attempts pid cpu⟩ :=
    (List.singleton_inj.mp (hone.symm.trans (pins_pin h pid cpu)))
  rw [hpin] at hone hplaces
  rw [hadd]
  exact ⟨cpu, hs.firstFree hd hfirst hc, congrArg (List.map Pin.target) hone, hplaces⟩

/-- The process that a call asks to add, if it does. -/
def Call.offer? : Call → Option Pid
  | .add pid => some pid
  | .announce a => some a.pid
  | .hop => none
  | .tick => none

/-- The processes that a hopper is asked to add, in order, as often as it is. -/
def offered (calls : List Call) : List Pid := calls.filterMap Call.offer?

theorem eraseDups_concat (l : List Pid) (pid : Pid) :
    (l ++ [pid]).eraseDups = if pid ∈ l then l.eraseDups else l.eraseDups ++ [pid] := by
  rw [List.eraseDups_append]
  by_cases hm : pid ∈ l <;> simp [List.removeAll, List.eraseDups_cons, hm]

/-- The processes that are tracked are the first of those that were offered. -/
def Admitted (cpus : List Nat) (offers : List Pid) (h : Hopper) : Prop :=
  (PidMap.pids h.slots).Perm (offers.eraseDups.take (cpus.length - 1))

namespace Admitted

variable {offers : List Pid}

theorem mem_iff (ha : Admitted cpus offers h) (hs : Settled h) :
    h.Tracks pid ↔ pid ∈ offers.eraseDups.take (cpus.length - 1) := by
  rw [hs.tracks_iff, List.Perm.mem_iff ha]

theorem length_eq (ha : Admitted cpus offers h) :
    h.slots.length = min (cpus.length - 1) offers.eraseDups.length := by
  have hlen := List.Perm.length_eq ha
  rwa [PidMap.pids, List.length_map, List.length_take] at hlen

/-- A process that was offered and is not tracked was refused, and there is no room for it now either. -/
theorem full_of_refused (ha : Admitted cpus offers h) (hs : Settled h) (hm : pid ∈ offers)
    (hn : ¬h.Tracks pid) : cpus.length ≤ h.slots.length + 1 := by
  by_contra hroom
  have hlen := ha.length_eq
  rw [ha.mem_iff hs, List.take_of_length_le (by omega)] at hn
  exact hn (List.mem_eraseDups.mpr hm)

theorem offer (ha : Admitted cpus offers h) (hs : Settled h) (hcpus : h.table.cpus = cpus)
    (pid : Pid) : Admitted cpus (offers ++ [pid]) (h.add pid).state := by
  have hsize : h.table.size = cpus.length := congrArg List.length hcpus
  have hroom : h.slots.length < cpus.length := hsize ▸ hs.room
  have hlen := ha.length_eq
  rw [Admitted, eraseDups_concat]
  by_cases ht : h.Tracks pid
  · obtain ⟨slot, hslot⟩ := ht
    have hm : pid ∈ offers :=
      List.mem_eraseDups.mp (List.mem_of_mem_take ((ha.mem_iff hs).mp ⟨slot, hslot⟩))
    rw [add_tracked hslot, if_pos hm]
    exact ha
  · have hslot := not_tracks_iff.mp ht
    by_cases hr : cpus.length ≤ h.slots.length + 1
    · rw [add_full hslot (hsize ▸ hr)]
      split
      · exact ha
      · rw [List.take_append_of_le_length (by omega)]
        exact ha
    · have hm : pid ∉ offers := fun hm => hr (ha.full_of_refused hs hm ht)
      obtain ⟨slot, cpu, _, _, _, hadd⟩ := hs.add_room hslot (hsize.symm ▸ Nat.not_le.mp hr)
      rw [hadd, if_neg hm, List.take_of_length_le (by simp; omega)]
      rw [Admitted, List.take_of_length_le (by omega)] at ha
      exact ((PidMap.insert_perm hslot).map Prod.fst).trans
        ((ha.cons pid).trans (List.perm_append_singleton _ _).symm)

end Admitted

theorem created_admitted (hc : create interval cpus binder = .ok h) (calls : List Call) :
    Admitted cpus (offered calls) (h.after calls) := by
  induction calls using List.reverseRecOn with
  | nil =>
    obtain ⟨_, _, rfl⟩ := create_ok hc
    simp [Admitted, offered, after, PidMap.pids]
  | append_singleton calls c ih =>
    have hs := (created_settled hc).after calls
    have hcpus := created_cpus hc calls
    have hafter : h.after (calls ++ [c]) = ((h.after calls).call c).state := by
      simp [after]
    have hhops : Admitted cpus (offered calls) (h.after calls).hop.state := by
      obtain ⟨free, hp, _⟩ := (created_packed hc).after (created_settled hc) calls
      obtain ⟨_, _, _, hpids, _⟩ := hs.hop_passes hp
      rw [Admitted, hpids]
      exact ih
    rw [hafter, offered, List.filterMap_append]
    cases c with
    | add pid => exact ih.offer hs hcpus pid
    | announce a =>
      rw [call_announce]
      exact ih.offer hs hcpus a.pid
    | hop | tick => exact (List.append_nil (offered calls)).symm ▸ hhops

/-- A process is added exactly if it is not tracked and a CPU is left for it and for one more. Over a run
these are the first ones that are offered, one fewer than there are CPUs, and once they are all there
nobody else is added. -/
theorem first_offered_admitted (hc : create interval cpus binder = .ok h) (calls : List Call) :
    Admission cpus (h.after calls) ∧ Admitted cpus (offered calls) (h.after calls) ∧
      ∀ pid, pid ∉ (offered calls).eraseDups.take (cpus.length - 1) →
        cpus.length - 1 ≤ (offered calls).eraseDups.length →
        (h.after calls).add pid = .fail (h.after calls) (.noFreeCpu cpus.length) [] := by
  have hs := (created_settled hc).after calls
  have hcpus := created_cpus hc calls
  have ha := created_admitted hc calls
  have hadmission : Admission cpus (h.after calls) := by
    have := hs.admission (hcpus ▸ (create_ok hc).2.1)
    exact hcpus ▸ this
  refine ⟨hadmission, ha, ?_⟩
  intro pid hnew hfull
  have hn : ¬(h.after calls).Tracks pid := fun ht => hnew ((ha.mem_iff hs).mp ht)
  have hlen := ha.length_eq
  exact hadmission.full pid hn (by omega)

/-- Of four processes, one of which is offered twice, the first two are added to three CPUs. -/
theorem first_two_of_four_admitted :
    let calls : List Call := [.add 7, .hop, .announce (.created 5), .add 7, .tick, .add 9]
    ∃ h, create 0 [4, 6, 9] (fun _ _ cpu =>
        if cpu = 6 then .error (.ofCause (.scripted "cpu 6 is offline")) else .ok ()) = .ok h ∧
      (PidMap.pids (h.after calls).slots).Perm [7, 5] ∧
      (h.after calls).add 5 = .fail (h.after calls) (.duplicateTarget 5) [] ∧
      (h.after calls).add 8 = .fail (h.after calls) (.noFreeCpu 3) [] := by
  intro calls
  obtain ⟨h, hc, htracks⟩ : ∃ h, create 0 [4, 6, 9] (fun _ _ cpu =>
      if cpu = 6 then .error (.ofCause (.scripted "cpu 6 is offline")) else .ok ()) = .ok h ∧
      (h.after calls).Tracks 5 := ⟨_, rfl, ⟨_, rfl⟩⟩
  obtain ⟨hadmission, hadmitted, hrefused⟩ := first_offered_admitted hc calls
  have hfirst : (offered calls).eraseDups.take 2 = [7, 5] := by decide
  refine ⟨h, hc, hfirst ▸ hadmitted, hadmission.duplicate 5 htracks, ?_⟩
  exact hrefused 8 (by decide) (by decide)

end Corun.Cpu.Hopper
