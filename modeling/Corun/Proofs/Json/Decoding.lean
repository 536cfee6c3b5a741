import Corun.Json.Decode
import Corun.Proofs.Json.Documented

namespace Corun.Json

theorem bind_ok_iff {α β : Type} {x : Except Fault α} {next : α → Except Fault β} {b : β} :
    x >>= next = .ok b ↔ ∃ a, x = .ok a ∧ next a = .ok b := by
  cases x with
  | error f => simp [bind, Except.bind]
  | ok a => simp [bind, Except.bind]

theorem map_ok_iff {α β : Type} {x : Except Fault α} {f : α → β} {b : β} :
    x.map f = .ok b ↔ ∃ a, x = .ok a ∧ f a = b := by
  cases x <;> simp [Except.map]

/-- What is not of the wanted kind fails, and so does what could not be read. -/
@[simp] theorem mismatch_ne_ok {α : Type} {expected : String} {d : Doc} {a : α} :
    d.mismatch expected ≠ .ok a := by
  unfold Doc.mismatch
  cases d.found <;> simp

namespace Decode

variable {α : Type} {d : Doc} {e : Ending} {decode : Doc → Except Fault α}

theorem text_ok {s : String} : text d = .ok s ↔ d = .string s := by
  cases d <;> simp [text]

theorem truth_ok {b : Bool} : truth d = .ok b ↔ d = .bool b := by
  cases d <;> simp [truth]

theorem unit_ok {u : Unit} : unit d = .ok u ↔ d = .null := by
  cases d <;> simp [unit]

theorem natural_ok {name : String} {n : Nat} :
    natural name d = .ok n ↔ d = .number (.integer n) := by
  cases d with
  | number x =>
    cases x with
    | real x => simp [natural]
    | integer k =>
      simp only [natural, Doc.number.injEq, Number.integer.injEq]
      split
      · simp only [Except.ok.injEq]
        omega
      · simp only [reduceCtorEq, false_iff]
        omega
  | null | bool | string | array | object | broken => simp [natural]

theorem optional_ok {o : Option α} : optional decode d = .ok o ↔
    d = .null ∧ o = none ∨ d ≠ .null ∧ ∃ a, decode d = .ok a ∧ o = some a := by
  cases d with
  | null => simp [optional, eq_comm]
  | bool | number | string | array | object | broken =>
    simp [optional, map_ok_iff, @eq_comm _ o]

theorem ending_ok {u : Unit} : ending e = .ok u ↔ e = .closed := by
  cases e <;> simp [ending]

theorem mapM_ok {ds : List Doc} {as : List α} :
    ds.mapM decode = .ok as ↔ List.Forall₂ (fun d a => decode d = .ok a) ds as := by
  induction ds generalizing as with
  | nil => simp [pure, Except.pure, eq_comm]
  | cons d ds ih =>
    rw [List.mapM_cons, bind_ok_iff, List.forall₂_cons_left_iff]
    constructor
    · rintro ⟨a, ha, h⟩
      obtain ⟨more, hmore, h⟩ := bind_ok_iff.mp h
      cases h
      exact ⟨a, more, ha, ih.mp hmore, rfl⟩
    · rintro ⟨a, more, ha, hmore, rfl⟩
      exact ⟨a, ha, bind_ok_iff.mpr ⟨more, ih.mpr hmore, rfl⟩⟩

theorem listOf_ok {as : List α} : listOf decode d = .ok as ↔
    ∃ ds, d = .array ds .closed ∧ List.Forall₂ (fun d a => decode d = .ok a) ds as := by
  cases d with
  | array ds e =>
    simp only [listOf, bind_ok_iff, mapM_ok, ending_ok, Doc.array.injEq]
    constructor
    · rintro ⟨bs, hbs, -, rfl, h⟩
      cases h
      exact ⟨ds, ⟨rfl, rfl⟩, hbs⟩
    · rintro ⟨ds, ⟨rfl, rfl⟩, hds⟩
      exact ⟨as, hds, (), rfl, rfl⟩
  | null | bool | number | string | object | broken => simp [listOf]

theorem variant_ok {names : List (String × α)} {name : String} {a : α} :
    variant names name = .ok a ↔ names.lookup name = some a := by
  unfold variant
  cases names.lookup name <;> simp

theorem variantEnding_ok {more : List (String × Doc)} {u : Unit} :
    variantEnding more e = .ok u ↔ more = [] ∧ e = .closed := by
  unfold variantEnding
  split <;> simp_all

theorem choice_ok {names : List (String × α)} {a : α} : choice names d = .ok a ↔
    ∃ name, names.lookup name = some a ∧
      (d = .string name ∨ d = .object [(name, .null)] .closed) := by
  cases d with
  | string s => simp [choice, variant_ok]
  | object ms e =>
    cases ms with
    | nil => cases e <;> simp [choice]
    | cons m more =>
      simp only [choice, bind_ok_iff, variant_ok, unit_ok, variantEnding_ok]
      constructor
      · rintro ⟨b, hb, -, hnull, -, ⟨rfl, rfl⟩, h⟩
        cases h
        exact ⟨m.1, hb, .inr (by rw [← hnull])⟩
      · rintro ⟨name, hname, h | h⟩
        · cases h
        · cases h
          exact ⟨a, hname, (), rfl, (), ⟨rfl, rfl⟩, rfl⟩
  | broken opening f => cases opening <;> simp [choice]
  | null | bool | number | array => simp [choice]

end Decode

namespace Record

open Decode

variable {φ : Type} {β : φ → Type} {r : Record φ β} {f g : φ} {set set' : ∀ f, Option (β f)}
  {x : ∀ f, β f} {d : Doc} {e : Ending}

theorem complete_ok : r.complete set = .ok x ↔ ∀ f, r.content set f = some (x f) := by
  unfold complete
  split
  · rename_i f hf
    have hnone : r.content set f = none := by simpa using List.find?_some hf
    simp only [reduceCtorEq, false_iff]
    intro h
    cases hnone.symm.trans (h f)
  · simp only [Except.ok.injEq, funext_iff]
    refine forall_congr' fun f => ?_
    rw [← Option.some_inj, Option.some_get]

theorem listEnding_ok {ds : List Doc} {u : Unit} : listEnding ds e = .ok u ↔ ds = [] ∧ e = .closed := by
  unfold listEnding
  split <;> simp_all

theorem field?_eq_some {key : String} : r.field? key = some f ↔ r.fieldName f = key := by
  constructor
  · intro h
    simpa using List.find?_some h
  · rintro rfl
    cases h : r.field? (r.fieldName f) with
    | none => simpa using List.find?_eq_none.mp h f (r.all f)
    | some g =>
      have hg : r.fieldName g = r.fieldName f := by simpa using List.find?_some h
      rw [name_inj hg]

variable [DecidableEq φ] {field : ∀ f, Doc → Except Fault (β f)}

@[simp] theorem put_self (y : β f) : put f y set f = some y := by
  simp [put]

theorem put_of_ne (y : β f) (h : g ≠ f) : put f y set g = set g := by
  simp [put, h.symm]

/-- What the members of an object make of a record that is partly set. -/
structure Taken (r : Record φ β) (field : ∀ f, Doc → Except Fault (β f)) (ms : List (String × Doc))
    (set set' : ∀ f, Option (β f)) : Prop where
  known : ∀ m ∈ ms, ∃ f, r.fieldName f = m.1
  distinct : (ms.map Prod.fst).Nodup
  fresh : ∀ f, r.fieldName f ∈ ms.map Prod.fst → set f = none
  each : ∀ f, (∃ d y, (r.fieldName f, d) ∈ ms ∧ field f d = .ok y ∧ set' f = some y) ∨
    r.fieldName f ∉ ms.map Prod.fst ∧ set' f = set f

theorem Taken.cons {ms : List (String × Doc)} {y : β f} (hy : field f d = .ok y)
    (hf : set f = none) (h : r.Taken field ms (put f y set) set') :
    r.Taken field ((r.fieldName f, d) :: ms) set set' := by
  have hnew : r.fieldName f ∉ ms.map Prod.fst := by
    intro hmem
    simpa using h.fresh f hmem
  refine ⟨List.forall_mem_cons.mpr ⟨⟨f, rfl⟩, h.known⟩, List.nodup_cons.mpr ⟨hnew, h.distinct⟩,
    fun g hg => ?_, fun g => ?_⟩
  · by_cases hgf : g = f
    · rw [hgf, hf]
    · obtain hname | hg := List.mem_cons.mp hg
      · exact absurd (name_inj hname) hgf
      · have hset := h.fresh g hg
        rwa [put_of_ne y hgf] at hset
  · obtain ⟨d', y', hd', hy', hset⟩ | ⟨habsent, hset⟩ := h.each g
    · exact .inl ⟨d', y', List.mem_cons_of_mem _ hd', hy', hset⟩
    · by_cases hgf : g = f
      · obtain rfl := hgf
        exact .inl ⟨d, y, List.mem_cons_self, hy, hset.trans (put_self y)⟩
      · refine .inr ⟨fun hg => ?_, hset.trans (put_of_ne y hgf)⟩
        obtain hname | hg := List.mem_cons.mp hg
        · exact hgf (name_inj hname)
        · exact habsent hg

theorem Taken.tail {ms : List (String × Doc)} (h : r.Taken field ((r.fieldName f, d) :: ms) set set') :
    set f = none ∧ ∃ y, field f d = .ok y ∧ r.Taken field ms (put f y set) set' := by
  obtain ⟨hnew, hdistinct⟩ := List.nodup_cons.mp h.distinct
  have hother : ∀ {g d'}, (r.fieldName g, d') ∈ (r.fieldName f, d) :: ms →
      (g = f ∧ d' = d) ∨ (r.fieldName g, d') ∈ ms := by
    intro g d' hg
    obtain heq | hg := List.mem_cons.mp hg
    · obtain ⟨hname, rfl⟩ := Prod.mk.inj heq
      exact .inl ⟨name_inj hname, rfl⟩
    · exact .inr hg
  obtain ⟨d', y, hd', hy, hset⟩ | ⟨habsent, -⟩ := h.each f
  · have hd : d' = d := by
      obtain ⟨-, rfl⟩ | hmem := hother hd'
      · rfl
      · exact absurd (List.mem_map_of_mem (f := Prod.fst) hmem) hnew
    rw [hd] at hy
    refine ⟨h.fresh f List.mem_cons_self, y, hy, fun m hm => h.known m (List.mem_cons_of_mem _ hm),
      hdistinct, fun g hg => ?_, fun g => ?_⟩
    · have hgf : g ≠ f := by
        rintro rfl
        exact hnew hg
      rw [put_of_ne y hgf]
      exact h.fresh g (List.mem_cons_of_mem _ hg)
    · by_cases hgf : g = f
      · obtain rfl := hgf
        exact .inr ⟨hnew, hset.trans (put_self y).symm⟩
      · rw [put_of_ne y hgf]
        refine (h.each g).imp (fun ⟨d'', y', hd'', hrest⟩ => ?_) fun ⟨habsent, hset⟩ => ?_
        · exact ⟨d'', y', (hother hd'').resolve_left fun heq => hgf heq.1, hrest⟩
        · exact ⟨fun hg => habsent (List.mem_cons_of_mem _ hg), hset⟩
  · exact absurd List.mem_cons_self habsent

theorem members_ok {ms : List (String × Doc)} :
    r.members field ms set = .ok set' ↔ r.Taken field ms set set' := by
  induction ms generalizing set with
  | nil =>
    constructor
    · intro h
      cases h
      exact ⟨nofun, .nil, nofun, fun f => .inr ⟨nofun, rfl⟩⟩
    · intro h
      have hsame : set' = set := by
        funext f
        obtain ⟨d, y, hd, -⟩ | ⟨-, hset⟩ := h.each f
        · cases hd
        · exact hset
      rw [hsame, members]
  | cons m ms ih =>
    obtain ⟨key, d⟩ := m
    simp only [members]
    cases hkey : r.field? key with
    | none =>
      simp only [reduceCtorEq, false_iff]
      intro h
      obtain ⟨f, hf⟩ := h.known _ List.mem_cons_self
      cases hkey.symm.trans (field?_eq_some.mpr hf)
    | some f =>
      obtain rfl := field?_eq_some.mp hkey
      constructor
      · intro h
        simp only at h
        split at h
        · cases h
        · rename_i hnone
          obtain ⟨y, hy, h⟩ := bind_ok_iff.mp h
          exact (ih.mp h).cons hy (by simpa using hnone)
      · intro h
        obtain ⟨hnone, y, hy, h⟩ := h.tail
        simp only [hnone, hy]
        exact ih.mpr h

/-- What the items of a list make of a record of which the fields that are left are `fs`. -/
structure Listed (r : Record φ β) (field : ∀ f, Doc → Except Fault (β f)) (fs : List φ)
    (ds : List Doc) (set : ∀ f, Option (β f)) (x : ∀ f, β f) : Prop where
  settled : ∀ f, f ∉ fs → r.content set f = some (x f)
  items : ∃ written left, fs = written ++ left ∧
    List.Forall₂ (fun f d => field f d = .ok (x f)) written ds ∧ ∀ f ∈ left, r.default f = some (x f)

omit [DecidableEq φ] in
theorem listed_nil {ds : List Doc} :
    r.Listed field [] ds set x ↔ ds = [] ∧ ∀ f, r.content set f = some (x f) := by
  constructor
  · rintro ⟨hset, written, left, hsplit, hitems, -⟩
    obtain ⟨rfl, rfl⟩ := List.append_eq_nil_iff.mp hsplit.symm
    cases hitems
    exact ⟨rfl, fun f => hset f nofun⟩
  · rintro ⟨rfl, hset⟩
    exact ⟨fun f _ => hset f, [], [], rfl, .nil, nofun⟩

theorem listed_short {fs : List φ} (hf : f ∉ fs) (hnone : set f = none) :
    r.Listed field (f :: fs) [] set x ↔
      (r.default f).isNone = false ∧ r.Listed field fs [] set x := by
  have hcontent : r.content set f = r.default f := by simp [content, hnone]
  constructor
  · rintro ⟨hset, written, left, hsplit, hitems, hleft⟩
    cases hitems
    obtain rfl : f :: fs = left := hsplit
    obtain ⟨hx, hleft⟩ := List.forall_mem_cons.mp hleft
    refine ⟨by simp [hx], fun g hg => ?_, [], fs, rfl, .nil, hleft⟩
    by_cases hgf : g = f
    · rw [hgf, hcontent, hx]
    · exact hset g (List.not_mem_cons_of_ne_of_not_mem hgf hg)
  · rintro ⟨-, hset, written, left, hsplit, hitems, hleft⟩
    cases hitems
    obtain rfl : fs = left := hsplit
    have hx : r.default f = some (x f) := hcontent ▸ hset f hf
    exact ⟨fun g hg => hset g (List.not_mem_of_not_mem_cons hg), [], f :: fs, rfl, .nil,
      List.forall_mem_cons.mpr ⟨hx, hleft⟩⟩

theorem listed_cons {fs : List φ} {ds : List Doc} (hf : f ∉ fs) :
    r.Listed field (f :: fs) (d :: ds) set x ↔
      ∃ y, field f d = .ok y ∧ r.Listed field fs ds (put f y set) x := by
  have hself : ∀ y : β f, r.content (put f y set) f = some y := by simp [content]
  have hother : ∀ (y : β f) (g : φ), g ≠ f → r.content (put f y set) g = r.content set g := by
    intro y g hg
    simp only [content, put_of_ne y hg]
  constructor
  · rintro ⟨hset, written, left, hsplit, hitems, hleft⟩
    cases hitems with
    | cons hy hitems =>
      obtain ⟨rfl, rfl⟩ := List.cons.inj hsplit
      refine ⟨x f, hy, fun g hg => ?_, _, left, rfl, hitems, hleft⟩
      by_cases hgf : g = f
      · rw [hgf, hself]
      · rw [hother (x f) g hgf]
        exact hset g (List.not_mem_cons_of_ne_of_not_mem hgf hg)
  · rintro ⟨y, hy, hset, written, left, rfl, hitems, hleft⟩
    obtain rfl : y = x f := Option.some.inj ((hself y).symm.trans (hset f hf))
    refine ⟨fun g hg => ?_, f :: written, left, rfl, .cons hy hitems, hleft⟩
    rw [← hother (x f) g (List.ne_of_not_mem_cons hg)]
    exact hset g (List.not_mem_of_not_mem_cons hg)

theorem elements_ok {fs : List φ} {ds : List Doc} {index : Nat} (hdistinct : fs.Nodup)
    (hfresh : ∀ f ∈ fs, set f = none) :
    r.elements field index fs ds e set = .ok x ↔ e = .closed ∧ r.Listed field fs ds set x := by
  induction fs generalizing ds index set with
  | nil =>
    simp only [elements, bind_ok_iff, listEnding_ok, complete_ok, listed_nil]
    constructor
    · rintro ⟨-, ⟨rfl, rfl⟩, h⟩
      exact ⟨rfl, rfl, h⟩
    · rintro ⟨rfl, rfl, h⟩
      exact ⟨(), ⟨rfl, rfl⟩, h⟩
  | cons f fs ih =>
    obtain ⟨hf, hdistinct⟩ := List.nodup_cons.mp hdistinct
    obtain ⟨hnone, hfresh⟩ := List.forall_mem_cons.mp hfresh
    cases ds with
    | nil =>
      rw [listed_short hf hnone]
      simp only [elements, bind_ok_iff, ending_ok]
      constructor
      · rintro ⟨-, rfl, h⟩
        split at h
        · cases h
        · rename_i hsome
          exact ⟨rfl, eq_false_of_ne_true hsome, ((ih hdistinct hfresh).mp h).2⟩
      · rintro ⟨rfl, hsome, h⟩
        refine ⟨(), rfl, ?_⟩
        rw [if_neg (by simp [hsome])]
        exact (ih hdistinct hfresh).mpr ⟨rfl, h⟩
    | cons d ds =>
      have hput : ∀ y : β f, ∀ g ∈ fs, put f y set g = none := by
        intro y g hg
        rw [put_of_ne y (ne_of_mem_of_not_mem hg hf), hfresh g hg]
      simp only [elements, bind_ok_iff, ih hdistinct (hput _), listed_cons hf]
      constructor
      · rintro ⟨y, hy, rfl, h⟩
        exact ⟨rfl, y, hy, h⟩
      · rintro ⟨rfl, y, hy, h⟩
        exact ⟨y, hy, rfl, h⟩

theorem decode_ok : r.decode field d = .ok x ↔ r.Filled (fun f d y => field f d = .ok y) d x := by
  cases d with
  | array ds e =>
    have hall : ∀ f, f ∉ r.fields → r.content (fun _ => none) f = some (x f) :=
      fun f hf => absurd (r.all f) hf
    rw [decode, elements_ok (List.Nodup.of_map _ r.distinct) (fun _ _ => rfl)]
    constructor
    · rintro ⟨rfl, -, written, left, hfields, hitems, hleft⟩
      exact .array hfields hitems hleft
    · intro h
      cases h with
      | array hfields hitems hleft => exact ⟨rfl, hall, _, _, hfields, hitems, hleft⟩
  | object ms e =>
    simp only [decode, bind_ok_iff, members_ok, ending_ok, complete_ok]
    constructor
    · rintro ⟨set, htaken, -, rfl, hset⟩
      refine .object htaken.known htaken.distinct fun f => ?_
      have hx := hset f
      obtain ⟨d, y, hd, hy, hf⟩ | ⟨habsent, hf⟩ := htaken.each f
      · rw [content, hf, Option.some_or] at hx
        exact .inl ⟨d, hd, Option.some.inj hx ▸ hy⟩
      · rw [content, hf, Option.none_or] at hx
        exact .inr ⟨habsent, hx⟩
    · intro h
      cases h with
      | object hknown hdistinct heach =>
        have heach' : ∀ f, ∃ o : Option (β f),
            ((∃ d y, (r.fieldName f, d) ∈ ms ∧ field f d = .ok y ∧ o = some y) ∨
              r.fieldName f ∉ ms.map Prod.fst ∧ o = none) ∧ o.or (r.default f) = some (x f) := by
          intro f
          obtain ⟨d, hd, hf⟩ | ⟨habsent, hdefault⟩ := heach f
          · exact ⟨some (x f), .inl ⟨d, x f, hd, hf, rfl⟩, rfl⟩
          · exact ⟨none, .inr ⟨habsent, rfl⟩, hdefault⟩
        choose set hset hcontent using heach'
        exact ⟨set, ⟨hknown, hdistinct, fun _ _ => rfl, hset⟩, (), rfl, hcontent⟩
  | null | bool | number | string | broken =>
    simp only [decode, mismatch_ne_ok, false_iff]
    nofun

end Record

/-- The streaming library decodes as is documented. -/
theorem streaming_decodes : streaming.Decodes where
  text := Decode.text_ok
  truth := Decode.truth_ok
  natural _ := Decode.natural_ok
  optional := Decode.optional_ok
  list := Decode.listOf_ok
  choice := Decode.choice_ok
  record := by
    intro φ β α _ r of make d a
    simp only [streaming, Schema.decode, map_ok_iff, Record.decode_ok]

end Corun.Json
