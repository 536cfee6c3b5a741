import Corun.Proofs.Json.Documented

namespace Corun.Json

/-- The fields of a record in their order, and what documents call them. -/
structure Outline (φ : Type) where
  fields : List φ
  name : φ → String
  isRequired : φ → Bool

namespace Outline

/-- The ways to write a record whose fields may hold what `holds` says and be left out if they are in
`spared`: as an object, or as the list of its fields in order up to one of them. -/
inductive Writes (o : Outline φ) (holds : φ → Value → Prop) (spared : φ → Prop) : Value → Prop
  | object (hdistinct : (ms.map Prod.fst).Nodup)
      (hmembers : ∀ m ∈ ms, ∃ f ∈ o.fields, m.1 = o.name f ∧ holds f m.2)
      (habsent : ∀ f ∈ o.fields, o.name f ∉ ms.map Prod.fst → spared f) :
      Writes o holds spared (.object ms)
  | array (hfields : o.fields = written ++ left) (hitems : List.Forall₂ holds written vs)
      (habsent : ∀ f ∈ left, spared f) : Writes o holds spared (.array vs)

/-- A record with a member that there is not, with a member twice or without one that it needs. -/
inductive Flawed (o : Outline φ) : Value → Prop
  | unknown (hm : m ∈ ms) (hname : ∀ f ∈ o.fields, o.name f ≠ m.1) : Flawed o (.object ms)
  | repeated (h : ¬ (ms.map Prod.fst).Nodup) : Flawed o (.object ms)
  | lacking (hf : f ∈ o.fields) (hrequired : o.isRequired f = true)
      (habsent : o.name f ∉ ms.map Prod.fst) : Flawed o (.object ms)
  | surplus (h : o.fields.length < vs.length) : Flawed o (.array vs)
  | short (hf : f ∈ o.fields.drop vs.length) (hrequired : o.isRequired f = true) :
      Flawed o (.array vs)

/-- What stands in a record for a field. -/
inductive HasField (o : Outline φ) (f : φ) : Value → Value → Prop
  | member (h : (o.name f, w) ∈ ms) : HasField o f (.object ms) w
  | item {i : Nat} (hf : o.fields[i]? = some f) (hw : vs[i]? = some w) : HasField o f (.array vs) w

end Outline

theorem partner_of_mem {α β : Type} {R : α → β → Prop} {as : List α} {bs : List β} {b : β}
    (h : List.Forall₂ R as bs) (hb : b ∈ bs) : ∃ a ∈ as, R a b := by
  induction h with
  | nil => cases hb
  | cons hr _ ih =>
    obtain rfl | hb := List.mem_cons.mp hb
    · exact ⟨_, List.mem_cons_self, hr⟩
    · obtain ⟨a, ha, hr⟩ := ih hb
      exact ⟨a, List.mem_cons_of_mem _ ha, hr⟩

theorem partner_of_getElem? {α β : Type} {R : α → β → Prop} {as : List α} {bs : List β} {a : α} {b : β}
    {i : Nat} (h : List.Forall₂ R as bs) (ha : as[i]? = some a) (hb : bs[i]? = some b) : R a b := by
  induction h generalizing i with
  | nil => cases ha
  | cons hr _ ih =>
    cases i with
    | zero =>
      cases ha
      cases hb
      exact hr
    | succ i => exact ih ha hb

variable {φ : Type} {β : φ → Type} {α : Type} {r : Record φ β} {o : Outline φ} {f g : φ}
  {field : ∀ f, Doc → β f → Prop} {x : ∀ f, β f} {d : Doc} {v w : Value} {vs : List Value}
  {ms : List (String × Value)} {holds : φ → Value → Prop} {spared : φ → Prop}
  {number : Numeral → Except Fault Number}

namespace Record

/-- A record that has the fields of an outline. -/
structure Follows (r : Record φ β) (o : Outline φ) : Prop where
  fields : r.fields = o.fields
  name : r.fieldName = o.name
  isRequired : ∀ f, o.isRequired f = (r.default f).isNone

/-- What a document has for a field: the member of its name, or the item at its place. -/
inductive Has (r : Record φ β) (f : φ) : Doc → Doc → Prop
  | member {ms : List (String × Doc)} {e : Ending} {d : Doc} (hd : (r.fieldName f, d) ∈ ms) :
    Has r f (.object ms e) d
  | item {items : List Doc} {e : Ending} {d : Doc} {i : Nat} (hf : r.fields[i]? = some f)
      (hd : items[i]? = some d) : Has r f (.array items e) d

theorem Filled.has (h : r.Filled field d x) (hnone : r.default f = none) :
    ∃ d', r.Has f d d' ∧ field f d' (x f) := by
  cases h with
  | object hknown hdistinct heach =>
    obtain ⟨d', hd', hf⟩ | ⟨-, hdefault⟩ := heach f
    · exact ⟨d', .member hd', hf⟩
    · cases hnone.symm.trans hdefault
  | @array written left ds x hfields hitems hleft =>
    obtain hwritten | hf := List.mem_append.mp (hfields ▸ r.all f)
    · obtain ⟨i, hi⟩ := List.mem_iff_getElem?.mp hwritten
      have hlength := hitems.length_eq
      have hbound := (List.getElem?_eq_some_iff.mp hi).1
      have hplace : r.fields[i]? = some f := by
        rw [hfields, List.getElem?_append_left hbound, hi]
      obtain ⟨d', hd'⟩ : ∃ d', ds[i]? = some d' :=
        ⟨ds.get ⟨i, hlength ▸ hbound⟩, List.getElem?_eq_getElem _⟩
      exact ⟨d', .item hplace hd', partner_of_getElem? (R := fun f d => field f d (x f)) hitems hi hd'⟩
    · cases hnone.symm.trans (hleft f hf)

theorem filled_object : r.Filled field (Value.doc number (.object ms)) x ↔
    (∀ m ∈ ms, ∃ f, r.fieldName f = m.1) ∧ (ms.map Prod.fst).Nodup ∧
      ∀ f, (∃ w, (r.fieldName f, w) ∈ ms ∧ field f (w.doc number) (x f)) ∨
        r.fieldName f ∉ ms.map Prod.fst ∧ r.default f = some (x f) := by
  rw [Value.doc, Value.memberDocs_eq_map]
  have hkeys : (ms.map fun m => (m.1, m.2.doc number)).map Prod.fst = ms.map Prod.fst := by simp
  constructor
  · intro h
    cases h with
    | object hknown hdistinct heach =>
      rw [hkeys] at hdistinct heach
      refine ⟨fun m hm => hknown _ (List.mem_map_of_mem hm), hdistinct, fun f => ?_⟩
      refine (heach f).imp_left fun ⟨d, hd, hf⟩ => ?_
      obtain ⟨m, hm, heq⟩ := List.mem_map.mp hd
      obtain ⟨hname, rfl⟩ := Prod.mk.inj heq
      exact ⟨m.2, hname ▸ hm, hf⟩
  · rintro ⟨hknown, hdistinct, heach⟩
    refine .object ?_ (hkeys ▸ hdistinct) fun f => hkeys ▸ (heach f).imp_left fun ⟨w, hw, hf⟩ => ?_
    · intro m hm
      obtain ⟨n, hn, rfl⟩ := List.mem_map.mp hm
      exact hknown n hn
    · exact ⟨w.doc number, List.mem_map.mpr ⟨_, hw, rfl⟩, hf⟩

theorem filled_array : r.Filled field (Value.doc number (.array vs)) x ↔
    ∃ written left, r.fields = written ++ left ∧
      List.Forall₂ (fun f w => field f (w.doc number) (x f)) written vs ∧
      ∀ f ∈ left, r.default f = some (x f) := by
  rw [Value.doc, Value.docs_eq_map]
  constructor
  · intro h
    cases h with
    | array hfields hitems hleft =>
      exact ⟨_, _, hfields, List.forall₂_map_right_iff.mp hitems, hleft⟩
  · rintro ⟨written, left, hfields, hitems, hleft⟩
    exact .array hfields (List.forall₂_map_right_iff.mpr hitems) hleft

/-- However a record is written, the document stands for it. -/
theorem Follows.filled (ho : r.Follows o)
    (hholds : ∀ f w, holds f w → field f (w.doc number) (x f))
    (hspared : ∀ f, spared f → r.default f = some (x f)) (h : o.Writes holds spared v) :
    r.Filled field (v.doc number) x := by
  cases h with
  | @object ms hdistinct hmembers habsent =>
    refine filled_object.mpr ⟨fun m hm => ?_, hdistinct, fun f => ?_⟩
    · obtain ⟨f, -, hname, -⟩ := hmembers m hm
      exact ⟨f, ho.name ▸ hname.symm⟩
    · by_cases hf : r.fieldName f ∈ ms.map Prod.fst
      · obtain ⟨m, hm, hname⟩ := List.mem_map.mp hf
        obtain ⟨g, -, hg, hheld⟩ := hmembers m hm
        have hsame : r.fieldName g = r.fieldName f := by rw [← hname, hg, ho.name]
        obtain rfl := name_inj hsame
        exact .inl ⟨m.2, hname ▸ hm, hholds g m.2 hheld⟩
      · exact .inr ⟨hf, hspared f (habsent f (ho.fields ▸ r.all f) (ho.name ▸ hf))⟩
  | array hfields hitems habsent =>
    exact filled_array.mpr ⟨_, _, ho.fields.trans hfields, hitems.imp hholds,
      fun f hf => hspared f (habsent f hf)⟩

/-- What stands for a record has no flaw. -/
theorem Follows.flawless (ho : r.Follows o) (h : r.Filled field (v.doc number) x) : ¬ o.Flawed v := by
  intro hflawed
  cases hflawed with
  | unknown hm hname =>
    obtain ⟨f, hf⟩ := (filled_object.mp h).1 _ hm
    exact hname f (ho.fields ▸ r.all f) (ho.name ▸ hf)
  | repeated hrepeated => exact hrepeated (filled_object.mp h).2.1
  | @lacking f _ hf hrequired habsent =>
    obtain ⟨w, hw, -⟩ | ⟨-, hdefault⟩ := (filled_object.mp h).2.2 f
    · exact habsent (ho.name ▸ List.mem_map_of_mem (f := Prod.fst) hw)
    · simp [ho.isRequired, hdefault] at hrequired
  | surplus hsurplus =>
    obtain ⟨written, left, hfields, hitems, -⟩ := filled_array.mp h
    have hlength := hitems.length_eq
    rw [← ho.fields, hfields, List.length_append] at hsurplus
    omega
  | @short f _ hf hrequired =>
    obtain ⟨written, left, hfields, hitems, hleft⟩ := filled_array.mp h
    rw [← ho.fields, hfields, ← hitems.length_eq, List.drop_left] at hf
    simp [ho.isRequired, hleft f hf] at hrequired

/-- Where a document stands for a record, each value in it stands for its field. -/
theorem Follows.held (ho : r.Follows o) (h : r.Filled field (v.doc number) x)
    (hw : o.HasField f v w) : field f (w.doc number) (x f) := by
  cases hw with
  | member hmem =>
    obtain ⟨-, hdistinct, heach⟩ := filled_object.mp h
    rw [← ho.name] at hmem
    obtain ⟨w', hw', hf⟩ | ⟨habsent, -⟩ := heach f
    · cases List.inj_on_of_nodup_map hdistinct hw' hmem rfl
      exact hf
    · exact absurd (List.mem_map_of_mem (f := Prod.fst) hmem) habsent
  | @item _ _ i hf hw =>
    obtain ⟨written, left, hfields, hitems, -⟩ := filled_array.mp h
    have hbound := (List.getElem?_eq_some_iff.mp hw).1
    rw [← ho.fields, hfields, List.getElem?_append_left (hitems.length_eq ▸ hbound)] at hf
    exact partner_of_getElem? (R := fun f w => field f (w.doc number) (x f)) hitems hf hw

end Record

/-- Null is written for nothing. -/
def IsOptional {α : Type} (writes : α → Value → Prop) : Option α → Value → Prop
  | none, v => v = .null
  | some a, v => writes a v

def IsList {α : Type} (writes : α → Value → Prop) (as : List α) (v : Value) : Prop :=
  ∃ vs, v = .array vs ∧ List.Forall₂ (fun v a => writes a v) vs as

/-- A choice is written as its name, or as an object with nothing under the name. -/
def IsChoice (name : String) (v : Value) : Prop :=
  v = .string name ∨ v = .object [(name, .null)]

/-- A value that is within the limits, and from which something is decoded. -/
structure Library.Conveys (lib : Library) (number : Numeral → Except Fault Number) (depth : Nat)
    (s : Schema α) (v : Value) (a : α) : Prop where
  decoded : lib.decode s (v.doc number) = .ok a
  within : v.Within depth

variable {lib : Library} {depth : Nat} {s : Schema α} {a : α} {text : String}

/-- What a text conveys is decoded from it. -/
theorem Library.Reads.fromText (hr : lib.Reads number) (h : lib.Conveys number nesting s v a)
    (ht : v.SpelledBy text) : lib.fromText s text = .ok a := by
  simp only [Library.fromText, hr.complete ht h.within, h.decoded]
  rfl

/-- Nothing else is decoded from a text than from what it says. -/
theorem Library.Reads.decoded (hr : lib.Reads number) (ht : v.SpelledBy text)
    (h : lib.fromText s text = .ok a) : lib.decode s (v.doc number) = .ok a := by
  obtain hread | hfails := hr.sound ht
  · simp only [Library.fromText, hread] at h
    cases hd : lib.decode s (v.doc number) with
    | error f =>
      rw [hd] at h
      cases h
    | ok b =>
      rw [hd] at h
      cases h
      rfl
  · obtain ⟨f, hf⟩ := hfails s
    cases hf.symm.trans h

namespace Library.Decodes

theorem text_conveys (hd : lib.Decodes) (t : String) : lib.Conveys number depth .text (.string t) t :=
  ⟨hd.text.mpr rfl, .string⟩

theorem truth_conveys (hd : lib.Decodes) (b : Bool) : lib.Conveys number depth .truth (.bool b) b :=
  ⟨hd.truth.mpr rfl, .bool⟩

theorem natural_conveys (hd : lib.Decodes) (hr : lib.Reads number) {n : Nat} (name : String)
    (hn : n < UInt64.size) : lib.Conveys number depth (.natural name) (.number (.ofNat n)) n := by
  refine ⟨(hd.natural hn).mpr ?_, .number hn⟩
  simp only [Value.doc, hr.natural n hn]

theorem optional_conveys (hd : lib.Decodes) {writes : α → Value → Prop} {o : Option α}
    (hnull : ∀ a ∈ o, lib.decode s .null ≠ .ok a)
    (hw : ∀ a ∈ o, ∀ v, writes a v → lib.Conveys number depth s v a) (h : IsOptional writes o v) :
    lib.Conveys number depth (.optional s) v o := by
  cases o with
  | none =>
    obtain rfl := h
    exact ⟨hd.optional.mpr (.inl ⟨rfl, rfl⟩), .null⟩
  | some a =>
    obtain ⟨hdecoded, hwithin⟩ := hw a rfl v h
    refine ⟨hd.optional.mpr (.inr ⟨fun hv => ?_, a, hdecoded, rfl⟩), hwithin⟩
    exact hnull a rfl (hv ▸ hdecoded)

theorem list_conveys (hd : lib.Decodes) {writes : α → Value → Prop} {as : List α}
    (hw : ∀ a ∈ as, ∀ v, writes a v → lib.Conveys number depth s v a) (h : IsList writes as v) :
    lib.Conveys number (depth + 1) (.list s) v as := by
  obtain ⟨vs, rfl, h⟩ := h
  have hall : List.Forall₂ (lib.Conveys number depth s) vs as := by
    induction h with
    | nil => exact .nil
    | cons hv _ ih =>
      obtain ⟨ha, hrest⟩ := List.forall_mem_cons.mp hw
      exact .cons (ha _ hv) (ih hrest)
  refine ⟨hd.list.mpr ⟨vs.map (Value.doc number), ?_, ?_⟩, .array fun v hv => ?_⟩
  · rw [Value.doc, Value.docs_eq_map]
  · exact List.forall₂_map_left_iff.mpr (hall.imp fun _ _ hv => hv.decoded)
  · obtain ⟨a, -, ha⟩ := partner_of_mem (R := fun a v => lib.Conveys number depth s v a) hall.flip hv
    exact ha.within

theorem choice_conveys (hd : lib.Decodes) {names : List (String × α)} {name : String}
    (hname : names.lookup name = some a) (h : IsChoice name v) :
    lib.Conveys number (depth + 1) (.choice names) v a := by
  obtain rfl | rfl := h
  · exact ⟨hd.choice.mpr ⟨name, hname, .inl rfl⟩, .string⟩
  · refine ⟨hd.choice.mpr ⟨name, hname, .inr rfl⟩, .object fun m hm => ?_⟩
    obtain rfl := List.mem_singleton.mp hm
    exact .null

theorem record_conveys [DecidableEq φ] {of : ∀ f, Schema (β f)} {make : (∀ f, β f) → α}
    (hd : lib.Decodes) (ho : r.Follows o)
    (hholds : ∀ f w, holds f w → lib.Conveys number depth (of f) w (x f))
    (hspared : ∀ f, spared f → r.default f = some (x f)) (h : o.Writes holds spared v) :
    lib.Conveys number (depth + 1) (.record r of make) v (make x) := by
  refine ⟨hd.record.mpr ⟨x, ho.filled (fun f w hw => (hholds f w hw).decoded) hspared h, rfl⟩, ?_⟩
  cases h with
  | object hdistinct hmembers habsent =>
    apply Value.Within.object
    intro m hm
    obtain ⟨f, -, -, hf⟩ := hmembers m hm
    exact (hholds f m.2 hf).within
  | array hfields hitems habsent =>
    apply Value.Within.array
    intro w hw
    obtain ⟨f, -, hf⟩ := partner_of_mem hitems hw
    exact (hholds f w hf).within

/-- In a list that is decoded each item is. -/
theorem item_decoded (hd : lib.Decodes) {as : List α}
    (h : lib.decode (.list s) (Value.doc number (.array vs)) = .ok as) (hv : v ∈ vs) :
    ∃ a, lib.decode s (v.doc number) = .ok a := by
  obtain ⟨ds, hdoc, hds⟩ := hd.list.mp h
  rw [Value.doc, Value.docs_eq_map] at hdoc
  cases hdoc
  have hitem : v.doc number ∈ vs.map (Value.doc number) := List.mem_map_of_mem hv
  obtain ⟨a, -, ha⟩ := partner_of_mem (R := fun a d => lib.decode s d = .ok a) hds.flip hitem
  exact ⟨a, ha⟩

end Library.Decodes

end Corun.Json
