import Mathlib.Data.List.Induction
import Corun.Machine

namespace Corun.Machine

variable {σ α ε : Type} {m : Machine σ α ε} {s t u : σ} {a : α} {acts : List α} {e : List ε}

theorem run_nil : run m s [] = some (t, e) ↔ t = s ∧ e = [] := by
  simp only [run, Option.some.injEq, Prod.mk.injEq]
  constructor <;> rintro ⟨rfl, rfl⟩ <;> exact ⟨rfl, rfl⟩

theorem run_cons : run m s (a :: acts) = some (t, e) ↔
    ∃ u e₁ e₂, m s a = some (u, e₁) ∧ run m u acts = some (t, e₂) ∧ e = e₁ ++ e₂ := by
  constructor
  · intro h
    cases hs : m s a with
    | none => simp [run, hs] at h
    | some first =>
      obtain ⟨u, e₁⟩ := first
      cases hr : run m u acts with
      | none => simp [run, hs, hr] at h
      | some rest =>
        obtain ⟨w, e₂⟩ := rest
        simp only [run, hs, hr, Option.bind_eq_bind, Option.bind_some, Option.pure_def,
          Option.some.injEq, Prod.mk.injEq] at h
        obtain ⟨rfl, rfl⟩ := h
        exact ⟨u, e₁, e₂, rfl, hr, rfl⟩
  · rintro ⟨u, e₁, e₂, hs, hr, rfl⟩
    simp [run, hs, hr]

theorem run_append {more : List α} : run m s (acts ++ more) = some (t, e) ↔
    ∃ u e₁ e₂, run m s acts = some (u, e₁) ∧ run m u more = some (t, e₂) ∧ e = e₁ ++ e₂ := by
  induction acts generalizing s e with
  | nil =>
    constructor
    · intro h
      exact ⟨s, [], e, rfl, h, rfl⟩
    · rintro ⟨u, e₁, e₂, hn, hr, rfl⟩
      obtain ⟨rfl, rfl⟩ := run_nil.mp hn
      exact hr
  | cons a acts ih =>
    rw [List.cons_append, run_cons]
    constructor
    · rintro ⟨u, e₁, e₂, hs, hr, rfl⟩
      obtain ⟨w, e₃, e₄, hw, ht, rfl⟩ := ih.mp hr
      exact ⟨w, e₁ ++ e₃, e₄, run_cons.mpr ⟨u, e₁, e₃, hs, hw, rfl⟩, ht,
        (List.append_assoc ..).symm⟩
    · rintro ⟨w, e₁, e₄, hw, ht, rfl⟩
      obtain ⟨u, e₂, e₃, hs, hr, rfl⟩ := run_cons.mp hw
      exact ⟨u, e₂, e₃ ++ e₄, hs, ih.mpr ⟨w, e₃, e₄, hr, ht, rfl⟩, List.append_assoc ..⟩

/-- What holds of no action, and of one more action whenever it held before, holds of a run: of where
it leads, the actions it took and what is seen of it. -/
theorem run_invariant {P : σ → List α → List ε → Prop} (hstart : P s [] [])
    (hstep : ∀ acts t e a u e', run m s acts = some (t, e) → P t acts e → m t a = some (u, e') →
      P u (acts ++ [a]) (e ++ e'))
    (hr : run m s acts = some (t, e)) : P t acts e := by
  induction acts using List.reverseRecOn generalizing t e with
  | nil =>
    obtain ⟨rfl, rfl⟩ := run_nil.mp hr
    exact hstart
  | append_singleton acts a ih =>
    obtain ⟨u, e₁, e₂, hfirst, hlast, rfl⟩ := run_append.mp hr
    obtain ⟨w, e₃, e₄, ha, hend, rfl⟩ := run_cons.mp hlast
    obtain ⟨rfl, rfl⟩ := run_nil.mp hend
    rw [List.append_nil]
    exact hstep acts u e₁ a t e₃ hfirst (ih hfirst) ha

/-- An action of a list that goes on by one is the last, or it is one of those before. -/
theorem concat_eq_split {before after : List α} {b : α} : acts ++ [a] = before ++ b :: after ↔
    (after = [] ∧ acts = before ∧ a = b) ∨
      ∃ rest, after = rest ++ [a] ∧ acts = before ++ b :: rest := by
  constructor
  · intro h
    rcases List.eq_nil_or_concat after with rfl | ⟨rest, c, rfl⟩
    · obtain ⟨hacts, hlast⟩ := List.append_inj' h rfl
      exact .inl ⟨rfl, hacts, List.singleton_inj.mp hlast⟩
    · rw [List.concat_eq_append, ← List.cons_append, ← List.append_assoc] at h
      obtain ⟨hacts, hlast⟩ := List.append_inj' h rfl
      exact .inr ⟨rest, by rw [List.concat_eq_append, hlast], hacts⟩
  · rintro (⟨rfl, rfl, rfl⟩ | ⟨rest, rfl, rfl⟩)
    · rfl
    · rw [List.append_assoc, List.cons_append]

/-- What is seen in a run is seen in one of its steps. -/
theorem step_of_mem_run {x : ε} (hr : run m s acts = some (t, e)) (hx : x ∈ e) :
    ∃ before a after u w e₁ e₂ e₃, acts = before ++ a :: after ∧
      run m s before = some (u, e₁) ∧ m u a = some (w, e₂) ∧ run m w after = some (t, e₃) ∧
      e = e₁ ++ e₂ ++ e₃ ∧ x ∈ e₂ := by
  induction acts generalizing s e with
  | nil =>
    obtain ⟨rfl, rfl⟩ := run_nil.mp hr
    cases hx
  | cons a acts ih =>
    obtain ⟨u, e₁, e₂, ha, hrest, rfl⟩ := run_cons.mp hr
    rcases List.mem_append.mp hx with hx | hx
    · exact ⟨[], a, acts, s, u, [], e₁, e₂, rfl, rfl, ha, hrest, rfl, hx⟩
    · obtain ⟨before, b, after, v, w, e₃, e₄, e₅, rfl, hv, hw, ht, rfl, hmem⟩ := ih hrest hx
      refine ⟨a :: before, b, after, v, w, e₁ ++ e₃, e₄, e₅, rfl,
        run_cons.mpr ⟨u, e₁, e₃, ha, hv, rfl⟩, hw, ht, ?_, hmem⟩
      simp only [List.append_assoc]

/-- The step in which something is seen at a place of a run, and what was seen before it. -/
theorem step_of_split {x : ε} {e₁ e₂ : List ε} (hr : run m s acts = some (t, e₁ ++ x :: e₂)) :
    ∃ before a after u w f₁ f₂ g₁ g₂, acts = before ++ a :: after ∧
      run m s before = some (u, f₁) ∧ m u a = some (w, f₂) ∧ f₂ = g₁ ++ x :: g₂ ∧ e₁ = f₁ ++ g₁ := by
  induction acts generalizing s e₁ with
  | nil => exact absurd (run_nil.mp hr).2 (by simp)
  | cons a acts ih =>
    obtain ⟨u, ea, er, ha, hrest, he⟩ := run_cons.mp hr
    have hlater : ∀ {c}, run m u acts = some (t, c ++ x :: e₂) → e₁ = ea ++ c →
        ∃ before b after v w f₁ f₂ g₁ g₂, a :: acts = before ++ b :: after ∧
          run m s before = some (v, f₁) ∧ m v b = some (w, f₂) ∧ f₂ = g₁ ++ x :: g₂ ∧
          e₁ = f₁ ++ g₁ := by
      rintro c hc rfl
      obtain ⟨before, b, after, v, w, f₁, f₂, g₁, g₂, rfl, hv, hb, hf, rfl⟩ := ih hc
      exact ⟨a :: before, b, after, v, w, ea ++ f₁, f₂, g₁, g₂, rfl,
        run_cons.mpr ⟨u, ea, f₁, ha, hv, rfl⟩, hb, hf, by rw [List.append_assoc]⟩
    rcases List.append_eq_append_iff.mp he with ⟨c, hea, hx⟩ | ⟨c, he₁, rfl⟩
    · cases c with
      | nil =>
        rw [List.nil_append] at hx
        rw [List.append_nil] at hea
        exact hlater (c := []) (hx ▸ hrest) (by rw [hea, List.append_nil])
      | cons y c =>
        cases hx
        exact ⟨[], a, acts, s, u, [], ea, e₁, c, rfl, rfl, ha, hea, rfl⟩
    · exact hlater hrest he₁

end Corun.Machine
