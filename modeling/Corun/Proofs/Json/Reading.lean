import Mathlib.Data.List.DropRight
import Corun.Proofs.Json.Decoding

namespace Corun.Json

/-- A document that stops at a value that cannot be read. -/
inductive Doc.IsCut : Doc → Prop
  | broken : IsCut (.broken opening f)
  | array (ds : List Doc) (h : IsCut d) : IsCut (.array (ds ++ [d]) .cut)
  | object (ms : List (String × Doc)) (h : IsCut d) : IsCut (.object (ms ++ [(key, d)]) .cut)

namespace Doc.IsCut

variable {d : Doc} {e : Ending} {ds : List Doc} {ms : List (String × Doc)} {m : String × Doc}

theorem array_cons (h : (Doc.array ds e).IsCut) : (Doc.array (d :: ds) e).IsCut := by
  cases h with
  | array ds h => exact .array (d :: ds) h

theorem object_cons (h : (Doc.object ms e).IsCut) : (Doc.object (m :: ms) e).IsCut := by
  cases h with
  | object ms h => exact .object (m :: ms) h

theorem object_cut : ¬ (Doc.object ms .closed).IsCut := nofun

end Doc.IsCut

/-- Somewhere in the value stands a number that is out of range. -/
inductive Value.Overflows : Value → Prop
  | number (h : n.value = .error f) : Overflows (.number n)
  | item (hv : v ∈ vs) (h : Overflows v) : Overflows (.array vs)
  | member (hm : m ∈ ms) (h : Overflows m.2) : Overflows (.object ms)

namespace Value.Overflows

variable {v : Value} {vs : List Value} {m : String × Value} {ms : List (String × Value)}

theorem array_cons (h : (Value.array vs).Overflows) : (Value.array (v :: vs)).Overflows := by
  cases h with
  | item hw h => exact .item (List.mem_cons_of_mem v hw) h

theorem object_cons (h : (Value.object ms).Overflows) : (Value.object (m :: ms)).Overflows := by
  cases h with
  | member hl h => exact .member (List.mem_cons_of_mem m hl) h

end Value.Overflows

section

variable {c : Char} {cs rest : List Char} {vs : List Value} {ms : List (String × Value)} {p : Piece}

theorem stops_cons (hc : c.isDigit = false ∧ c ≠ '.' ∧ Number.isExponentMark c = false) :
    Stops (c :: cs) := by
  intro d hd
  obtain rfl := Option.some.inj hd
  exact hc

theorem stops_blank (hc : isSpace c = true) : Stops (c :: cs) := by
  simp only [isSpace, Bool.or_eq_true, decide_eq_true_eq] at hc
  obtain ((rfl | rfl) | rfl) | rfl := hc <;> exact stops_cons (by decide)

theorem stops_blanks (h : ∀ c ∈ cs, isSpace c = true) : Stops cs := by
  cases cs with
  | nil => exact stops_nil
  | cons c cs => exact stops_blank (h c List.mem_cons_self)

/-- What follows an item ends a number. -/
theorem Spells.stops_items (h : Spells (.items false vs) cs rest) : Stops cs := by
  cases h with
  | blank hc _ => exact stops_blank hc
  | itemsEnd | itemsNext => exact stops_cons (by decide)

theorem Spells.stops_members (h : Spells (.members false ms) cs rest) : Stops cs := by
  cases h with
  | blank hc _ => exact stops_blank hc
  | membersEnd | membersNext => exact stops_cons (by decide)

theorem Numeral.text_length (n : Numeral) : 0 < n.text.length := by
  have hwhole : 0 < n.whole.length := List.length_pos_iff.mpr n.isWhole.1
  simp only [Numeral.text, Numeral.magnitude]
  split <;> simp only [List.length_cons, List.length_append] <;> omega

theorem Spells.shorter (h : Spells p cs rest) : rest.length < cs.length := by
  induction h with
  | blank _ _ ih => exact Nat.lt_succ_of_lt ih
  | null | yes | no | itemsEnd | membersEnd =>
    simp only [List.length_cons]
    omega
  | number n =>
    have := n.text_length
    simp only [List.length_append]
    omega
  | string h =>
    have := h.shorter
    simp only [List.length_cons]
    omega
  | array _ ih | object _ ih | itemsNext _ ih | membersNext _ ih => exact Nat.lt_succ_of_lt ih
  | itemsFirst _ ih | membersFirst _ ih => exact ih
  | item _ _ ihv ih => exact Nat.lt_trans ih ihv
  | member hkey _ _ _ ihv ih =>
    have := hkey.shorter
    simp only [List.length_append, List.length_cons] at *
    omega

end

namespace Reader

variable {α : Type} {fuel : Nat} {c : Char} {cs mid rest : List Char} {first : Bool} {v : Value}
  {vs : List Value} {ms : List (String × Value)} {p : Piece}

theorem skipSpace_blank (hc : isSpace c = true) : skipSpace (c :: cs) = skipSpace cs := by
  simp [skipSpace, hc]

theorem skipSpace_solid (hc : isSpace c = false) : skipSpace (c :: cs) = c :: cs := by
  simp [skipSpace, hc]

theorem skipSpace_blanks {blanks : List Char} (h : ∀ c ∈ blanks, isSpace c = true) :
    skipSpace (blanks ++ cs) = skipSpace cs := List.dropWhile_append_of_pos h

theorem skipSpace_idem (cs : List Char) : skipSpace (skipSpace cs) = skipSpace cs :=
  List.dropWhile_idempotent isSpace cs

theorem value_skipSpace (fuel : Nat) (cs : List Char) :
    value fuel (skipSpace cs) = value fuel cs := by
  cases fuel with
  | zero => rfl
  | succ fuel => simp only [value, skipSpace_idem]

theorem item_skipSpace (fuel : Nat) (cs : List Char) : item fuel (skipSpace cs) = item fuel cs := by
  cases fuel with
  | zero => rfl
  | succ fuel => simp only [item, value_skipSpace]

theorem items_skipSpace (fuel : Nat) (cs : List Char) :
    items fuel first (skipSpace cs) = items fuel first cs := by
  cases fuel with
  | zero => rfl
  | succ fuel => simp only [items, skipSpace_idem]

theorem members_skipSpace (fuel : Nat) (cs : List Char) :
    members fuel first (skipSpace cs) = members fuel first cs := by
  cases fuel with
  | zero => rfl
  | succ fuel => simp only [members, skipSpace_idem]

theorem digit_solid (hc : c.isDigit = true) : isSpace c = false := by
  simp [isSpace, Number.isDigit_ne hc]

/-- A number begins with its sign or a digit. -/
theorem value_number (n : Numeral) (rest : List Char) :
    value (fuel + 1) (n.text ++ rest) = numberLeaf n.negative (n.magnitude ++ rest) := by
  unfold Numeral.text
  split
  · rename_i hneg
    rw [hneg]
    rfl
  · rename_i hpos
    obtain ⟨d, more, hwhole, hd⟩ := n.isWhole.cons
    have hsolid : isSpace d = false := digit_solid hd
    rw [Bool.eq_false_iff.mpr hpos, Numeral.magnitude, hwhole]
    simp only [List.cons_append, value, skipSpace_solid hsolid]
    split <;> simp_all

/-- Something stands there with which no list ends. -/
def Opens (cs : List Char) : Prop := ∃ c more, skipSpace cs = c :: more ∧ c ≠ ']'

theorem items_first (h : Opens cs) : items (fuel + 1) true cs = item fuel cs := by
  obtain ⟨c, more, hcs, hc⟩ := h
  rw [← item_skipSpace, hcs]
  simp [items, hcs]

theorem items_next (h : Opens cs) : items (fuel + 1) false (',' :: cs) = item fuel cs := by
  obtain ⟨c, more, hcs, hc⟩ := h
  rw [← item_skipSpace, hcs]
  simp [items, skipSpace_solid (c := ',') rfl, hcs, hc]

theorem members_first {ks : List Char} (h : skipSpace cs = '"' :: ks) :
    members (fuel + 1) true cs = member fuel ks := by
  simp [members, h]

theorem members_next {ks : List Char} (h : skipSpace cs = '"' :: ks) :
    members (fuel + 1) false (',' :: cs) = member fuel ks := by
  simp [members, skipSpace_solid (c := ',') rfl, h]

/-- A piece was read as a whole, or up to a number that is out of range. -/
def Takes (r : Read α) (whole : α) (rest : List Char) (isCut : α → Prop) (overflows : Prop) :
    Prop :=
  r = ⟨whole, some rest⟩ ∨ r.rest = none ∧ isCut r.value ∧ overflows

def ItemsCut (r : List Doc × Ending) : Prop := (Doc.array r.1 r.2).IsCut

def MembersCut (r : List (String × Doc) × Ending) : Prop := (Doc.object r.1 r.2).IsCut

/-- How a piece is read. Nothing may stand after a value that can go on with a number. -/
def Reads (fuel : Nat) (cs rest : List Char) : Piece → Prop
  | .value v => Opens cs ∧ (Stops rest → Takes (value fuel cs) (v.doc Numeral.value) rest Doc.IsCut v.Overflows)
  | .items first vs =>
    Takes (items fuel first cs) (Value.docs Numeral.value vs, .closed) rest ItemsCut (Value.array vs).Overflows
  | .item v vs => Opens cs ∧
    Takes (item fuel cs) (Value.docs Numeral.value (v :: vs), .closed) rest ItemsCut
      (Value.array (v :: vs)).Overflows
  | .members first ms =>
    Takes (members fuel first cs) (Value.memberDocs Numeral.value ms, .closed) rest MembersCut
      (Value.object ms).Overflows
  | .member m ms => ∃ ks, skipSpace cs = '"' :: ks ∧
    Takes (member fuel ks) (Value.memberDocs Numeral.value (m :: ms), .closed) rest MembersCut
      (Value.object (m :: ms)).Overflows

/-- The calls that reading so many characters of a piece takes. Each item has a bracket or a comma before
it, which pays for the call between the two. -/
def calls (length : Nat) : Piece → Nat
  | .value _ | .item .. | .member .. => 2 * length
  | .items .. | .members .. => 2 * length + 1

theorem Reads.blank (hc : isSpace c = true) (h : Reads fuel cs rest p) :
    Reads fuel (c :: cs) rest p := by
  cases p with
  | value v =>
    rw [Reads, Opens, ← value_skipSpace, skipSpace_blank hc, value_skipSpace]
    exact h
  | items first vs =>
    rw [Reads, ← items_skipSpace, skipSpace_blank hc, items_skipSpace]
    exact h
  | item v vs =>
    rw [Reads, Opens, ← item_skipSpace, skipSpace_blank hc, item_skipSpace]
    exact h
  | members first ms =>
    rw [Reads, ← members_skipSpace, skipSpace_blank hc, members_skipSpace]
    exact h
  | member m ms =>
    rw [Reads, skipSpace_blank hc]
    exact h

theorem number_takes (n : Numeral) (hrest : Stops rest) :
    Takes (value (fuel + 1) (n.text ++ rest)) ((Value.number n).doc Numeral.value) rest Doc.IsCut
      (Value.number n).Overflows := by
  rw [value_number, numberLeaf, n.read hrest, Value.doc]
  cases hn : n.value with
  | ok x => exact .inl rfl
  | error f => exact .inr ⟨rfl, .broken, .number hn⟩

theorem Takes.map {β : Type} {r : Read α} {whole : α} {isCut : β → Prop} {overflows : Prop}
    (f : α → β) (h : Takes r whole rest (fun a => isCut (f a)) overflows) :
    Takes ⟨f r.value, r.rest⟩ (f whole) rest isCut overflows := by
  obtain rfl | hcut := h
  · exact .inl rfl
  · exact .inr hcut

theorem array_takes {r : Read (List Doc × Ending)}
    (h : Takes r (Value.docs Numeral.value vs, .closed) rest ItemsCut (Value.array vs).Overflows) :
    Takes ⟨.array r.value.1 r.value.2, r.rest⟩ ((Value.array vs).doc Numeral.value) rest Doc.IsCut
      (Value.array vs).Overflows :=
  Takes.map (fun r : List Doc × Ending => Doc.array r.1 r.2) h

theorem object_takes {r : Read (List (String × Doc) × Ending)}
    (h : Takes r (Value.memberDocs Numeral.value ms, .closed) rest MembersCut (Value.object ms).Overflows) :
    Takes ⟨.object r.value.1 r.value.2, r.rest⟩ ((Value.object ms).doc Numeral.value) rest Doc.IsCut
      (Value.object ms).Overflows :=
  Takes.map (fun r : List (String × Doc) × Ending => Doc.object r.1 r.2) h

theorem item_takes (hv : Takes (value fuel cs) (v.doc Numeral.value) mid Doc.IsCut v.Overflows)
    (h : Takes (items fuel false mid) (Value.docs Numeral.value vs, .closed) rest ItemsCut
      (Value.array vs).Overflows) :
    Takes (item (fuel + 1) cs) (Value.docs Numeral.value (v :: vs), .closed) rest ItemsCut
      (Value.array (v :: vs)).Overflows := by
  obtain hv | ⟨hnone, hcut, hover⟩ := hv
  · obtain h | ⟨hnone, hcut, hover⟩ := h
    · left
      simp only [item, hv, h, Value.docs]
    · right
      simp only [item, hv]
      exact ⟨hnone, hcut.array_cons, hover.array_cons⟩
  · right
    simp only [item, hnone]
    exact ⟨trivial, .array [] hcut, .item List.mem_cons_self hover⟩

theorem member_takes {key : String} {ks blanks : List Char}
    (hkey : Quoted.Spells key.toList ks (blanks ++ ':' :: cs))
    (hblanks : ∀ c ∈ blanks, isSpace c = true)
    (hv : Takes (value fuel cs) (v.doc Numeral.value) mid Doc.IsCut v.Overflows)
    (h : Takes (members fuel false mid) (Value.memberDocs Numeral.value ms, .closed) rest MembersCut
      (Value.object ms).Overflows) :
    Takes (member (fuel + 1) ks) (Value.memberDocs Numeral.value ((key, v) :: ms), .closed) rest MembersCut
      (Value.object ((key, v) :: ms)).Overflows := by
  have hcolon : skipSpace (blanks ++ ':' :: cs) = ':' :: cs := by
    rw [skipSpace_blanks hblanks, skipSpace_solid rfl]
  obtain hv | ⟨hnone, hcut, hover⟩ := hv
  · obtain h | ⟨hnone, hcut, hover⟩ := h
    · left
      simp only [member, hkey.read, hcolon, hv, h, Value.memberDocs]
    · right
      simp only [member, hkey.read, hcolon, hv]
      exact ⟨hnone, hcut.object_cons, hover.object_cons⟩
  · right
    simp only [member, hkey.read, hcolon, hnone]
    exact ⟨trivial, .object [] hcut, .member List.mem_cons_self hover⟩

end Reader

open Reader

theorem calls_mono {m n : Nat} (h : m ≤ n) (p : Piece) : calls m p ≤ calls n p := by
  cases p <;> simp only [calls] <;> omega

theorem calls_pos {n : Nat} (h : 0 < n) (p : Piece) : 0 < calls n p := by
  cases p <;> simp only [calls] <;> omega

/-- A number begins like no end of a list. -/
theorem Numeral.opens (n : Numeral) (rest : List Char) : Opens (n.text ++ rest) := by
  unfold Numeral.text
  split
  · exact ⟨'-', _, skipSpace_solid rfl, by decide⟩
  · obtain ⟨d, more, hwhole, hd⟩ := n.isWhole.cons
    rw [Numeral.magnitude, hwhole]
    exact ⟨d, _, skipSpace_solid (digit_solid hd), Number.isDigit_ne hd rfl⟩

/-- By induction on how the text comes about: what was read of the parts is put together. -/
theorem Spells.reads (h : Spells p cs rest) (hf : calls (cs.length - rest.length) p ≤ fuel) :
    Reads fuel cs rest p := by
  obtain ⟨fuel, rfl⟩ : ∃ k, fuel = k + 1 := by
    have := calls_pos (Nat.sub_pos_of_lt h.shorter) p
    exact ⟨fuel - 1, by omega⟩
  induction h generalizing fuel with
  | blank hc h ih =>
    refine (ih fuel (Nat.le_trans (calls_mono ?_ _) hf)).blank hc
    simp only [List.length_cons]
    omega
  | null | yes | no => exact ⟨⟨_, _, skipSpace_solid rfl, by decide⟩, fun _ => .inl rfl⟩
  | number n => exact ⟨n.opens _, number_takes n⟩
  | string h =>
    refine ⟨⟨_, _, skipSpace_solid rfl, by decide⟩, fun _ => .inl ?_⟩
    rw [value, skipSpace_solid rfl]
    simp only [stringLeaf, h.read]
    rfl
  | array h ih =>
    have := h.shorter
    simp only [calls, List.length_cons] at hf ih
    obtain ⟨fuel, rfl⟩ : ∃ k, fuel = k + 1 := ⟨fuel - 1, by omega⟩
    exact ⟨⟨_, _, skipSpace_solid rfl, by decide⟩, fun _ => array_takes (ih fuel (by omega))⟩
  | object h ih =>
    have := h.shorter
    simp only [calls, List.length_cons] at hf ih
    obtain ⟨fuel, rfl⟩ : ∃ k, fuel = k + 1 := ⟨fuel - 1, by omega⟩
    exact ⟨⟨_, _, skipSpace_solid rfl, by decide⟩, fun _ => object_takes (ih fuel (by omega))⟩
  | itemsEnd => exact .inl rfl
  | itemsFirst h ih =>
    have := h.shorter
    simp only [calls] at hf ih
    obtain ⟨fuel, rfl⟩ : ∃ k, fuel = k + 1 := ⟨fuel - 1, by omega⟩
    obtain ⟨hopens, htakes⟩ := ih fuel (by omega)
    rw [Reads, items_first hopens]
    exact htakes
  | itemsNext h ih =>
    have := h.shorter
    simp only [calls, List.length_cons] at hf ih
    obtain ⟨fuel, rfl⟩ : ∃ k, fuel = k + 1 := ⟨fuel - 1, by omega⟩
    obtain ⟨hopens, htakes⟩ := ih fuel (by omega)
    rw [Reads, items_next hopens]
    exact htakes
  | item hv h ihv ih =>
    have := hv.shorter
    have := h.shorter
    simp only [calls] at hf ihv ih
    obtain ⟨fuel, rfl⟩ : ∃ k, fuel = k + 1 := ⟨fuel - 1, by omega⟩
    obtain ⟨hopens, htakes⟩ := ihv fuel (by omega)
    exact ⟨hopens, item_takes (htakes h.stops_items) (ih fuel (by omega))⟩
  | membersEnd => exact .inl rfl
  | membersFirst h ih =>
    have := h.shorter
    simp only [calls] at hf ih
    obtain ⟨fuel, rfl⟩ : ∃ k, fuel = k + 1 := ⟨fuel - 1, by omega⟩
    obtain ⟨ks, hks, htakes⟩ := ih fuel (by omega)
    rw [Reads, members_first hks]
    exact htakes
  | membersNext h ih =>
    have := h.shorter
    simp only [calls, List.length_cons] at hf ih
    obtain ⟨fuel, rfl⟩ : ∃ k, fuel = k + 1 := ⟨fuel - 1, by omega⟩
    obtain ⟨ks, hks, htakes⟩ := ih fuel (by omega)
    rw [Reads, members_next hks]
    exact htakes
  | member hkey hblanks hv h ihv ih =>
    have := hkey.shorter
    have := hv.shorter
    have := h.shorter
    simp only [calls, List.length_cons, List.length_append] at *
    obtain ⟨fuel, rfl⟩ : ∃ k, fuel = k + 1 := ⟨fuel - 1, by omega⟩
    obtain ⟨-, htakes⟩ := ihv fuel (by omega)
    exact ⟨_, skipSpace_solid rfl,
      member_takes hkey hblanks (htakes h.stops_members) (ih fuel (by omega))⟩

/-- A text is read as what it says, or up to a number in it that is out of range. -/
theorem Value.SpelledBy.read {v : Value} {text : String} (h : v.SpelledBy text) :
    streaming.read text = ⟨v.doc Numeral.value, .ok ()⟩ ∨
      (streaming.read text).document.IsCut ∧ v.Overflows := by
  obtain ⟨rest, hv, hblanks⟩ := h
  have hfuel : calls (text.toList.length - rest.length) (.value v) ≤ 2 * text.toList.length + 2 := by
    simp only [calls]
    omega
  obtain hread | ⟨-, hcut, hover⟩ := (hv.reads hfuel).2 (stops_blanks hblanks)
  · have hskip : skipSpace rest = [] := List.dropWhile_eq_nil_iff.mpr hblanks
    left
    simp only [streaming, document, hread, Option.getD_some, hskip]
  · exact .inr ⟨hcut, hover⟩

theorem Value.Within.readable {v : Value} {depth : Nat} (h : v.Within depth) : ¬ v.Overflows := by
  intro hover
  induction hover generalizing depth with
  | number hn =>
    cases h with
    | number hword => cases hn.symm.trans (Numeral.value_ofNat hword)
  | item hv _ ih =>
    cases h with
    | array h => exact ih (h _ hv)
  | member hm _ ih =>
    cases h with
    | object h => exact ih (h _ hm)

/-- Nothing is decoded from a document that stops. -/
theorem decode_cut {α : Type} {s : Schema α} {d : Doc} {a : α} (h : d.IsCut) :
    streaming.decode s d ≠ .ok a := by
  intro hd
  induction s with
  | text => cases streaming_decodes.text.mp hd ▸ h
  | truth => cases streaming_decodes.truth.mp hd ▸ h
  | natural => cases Decode.natural_ok.mp hd ▸ h
  | optional s ih =>
    obtain ⟨rfl, -⟩ | ⟨-, b, hb, -⟩ := streaming_decodes.optional.mp hd
    · cases h
    · exact ih hb
  | list s =>
    obtain ⟨ds, rfl, -⟩ := streaming_decodes.list.mp hd
    cases h
  | choice names =>
    obtain ⟨name, -, rfl | rfl⟩ := streaming_decodes.choice.mp hd
    · cases h
    · exact Doc.IsCut.object_cut h
  | record r of make =>
    obtain ⟨x, hx, -⟩ := streaming_decodes.record.mp hd
    cases hx <;> cases h

/-- The streaming library reads as is documented. -/
theorem streaming_reads : streaming.Reads Numeral.value where
  natural _ := Numeral.value_ofNat
  complete ht hv := ht.read.resolve_right fun ⟨_, hover⟩ => hv.readable hover
  sound := by
    intro v text ht
    refine ht.read.imp_right fun ⟨hcut, _⟩ α s => ?_
    cases h : streaming.decode s (streaming.read text).document with
    | error f => exact ⟨f, by simp only [Library.fromText, h]; rfl⟩
    | ok a => exact absurd h (decode_cut hcut)

end Corun.Json
