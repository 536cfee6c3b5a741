import Corun.Json.Literal

namespace Corun.Json.Quoted

/-- A hexadecimal digit, in either case. -/
def IsHex (v : Nat) (c : Char) : Prop := v < 16 ∧ (c = v.digitChar ∨ c = v.digitChar.toUpper)

instance : Decidable (IsHex v c) := inferInstanceAs (Decidable (_ ∧ _))

/-- Four digits of a number, and what stands after them. -/
inductive Code : Nat → List Char → List Char → Prop
  | four (h₁ : IsHex v₁ c₁) (h₂ : IsHex v₂ c₂) (h₃ : IsHex v₃ c₃) (h₄ : IsHex v₄ c₄) :
      Code (((v₁ * 16 + v₂) * 16 + v₃) * 16 + v₄) (c₁ :: c₂ :: c₃ :: c₄ :: rest) rest

/-- The characters that a letter stands for. -/
def letters : List (Char × Char) :=
  [('"', '"'), ('\\', '\\'), ('/', '/'), ('\x08', 'b'), ('\x0c', 'f'), ('\n', 'n'), ('\r', 'r'),
   ('\t', 't')]

/-- An escaped character after its backslash, and what stands after it. -/
inductive Escapes : Char → List Char → List Char → Prop
  | letter (h : (c, l) ∈ letters) : Escapes c (l :: rest) rest
  | code (h : Code c.toNat cs rest) : Escapes c ('u' :: cs) rest
  | halves (hhigh : high < 0x400) (hlow : low < 0x400)
      (hc : c.toNat = 0x10000 + high * 0x400 + low)
      (h₁ : Code (0xD800 + high) cs ('\\' :: 'u' :: mid)) (h₂ : Code (0xDC00 + low) mid rest) :
      Escapes c ('u' :: cs) rest

/-- The text of a string up to its closing quote, and what stands after it. -/
inductive Spells : List Char → List Char → List Char → Prop
  | close : Spells [] ('"' :: rest) rest
  | plain (hc : 0x20 ≤ c.toNat) (hquote : c ≠ '"') (hslash : c ≠ '\\') (h : Spells s cs rest) :
      Spells (c :: s) (c :: cs) rest
  | escape (hc : Escapes c cs mid) (h : Spells s mid rest) : Spells (c :: s) ('\\' :: cs) rest

variable {c : Char} {s cs rest : List Char} {n : Nat}

theorem digits_of_either_case : ∀ v < 16,
    hexValue? v.digitChar = some v ∧ hexValue? v.digitChar.toUpper = some v := by decide

theorem IsHex.value (h : IsHex n c) : hexValue? c = some n := by
  obtain ⟨hn, rfl | rfl⟩ := h
  · exact (digits_of_either_case n hn).1
  · exact (digits_of_either_case n hn).2

theorem four_bytes (a b c d : Char) :
    4 ≤ a.utf8Size + (b.utf8Size + (c.utf8Size + d.utf8Size)) := by
  have ha := a.utf8Size_pos
  have hb := b.utf8Size_pos
  have hc := c.utf8Size_pos
  have hd := d.utf8Size_pos
  omega

theorem Code.hex4 (h : Code n cs rest) : hex4 cs = .ok (n, rest) := by
  cases h with
  | four h₁ h₂ h₃ h₄ =>
    simp [Quoted.hex4, String.utf8ByteSize, List.utf8Encode, four_bytes, h₁.value, h₂.value,
      h₃.value, h₄.value]

theorem Code.shorter (h : Code n cs rest) : rest.length < cs.length := by
  cases h
  simp only [List.length_cons]
  omega

theorem letter_escape : ∀ p ∈ letters, escape (p.2 :: rest) = .ok (p.1, rest) := by
  simp [letters, escape]

/-- No character is half of a code. -/
theorem toNat_whole (c : Char) : ¬ (0xD800 ≤ c.toNat ∧ c.toNat ≤ 0xDFFF) := by
  have hvalid : c.toNat < 0xD800 ∨ 0xDFFF < c.toNat ∧ c.toNat < 0x110000 := c.valid
  omega

theorem Escapes.escape (h : Escapes c cs rest) : escape cs = .ok (c, rest) := by
  cases h with
  | letter h => exact letter_escape _ h
  | code h =>
    have hwhole := toNat_whole c
    have hlow : ¬ (0xDC00 ≤ c.toNat ∧ c.toNat ≤ 0xDFFF) := by omega
    have hhigh : ¬ (0xD800 ≤ c.toNat ∧ c.toNat ≤ 0xDBFF) := by omega
    simp [Quoted.escape, h.hex4, hlow, hhigh, bind, Except.bind]
  | @halves high low _ _ mid _ hhigh hlow hc h₁ h₂ =>
    have hfirst : ¬ (0xDC00 ≤ 0xD800 + high ∧ 0xD800 + high ≤ 0xDFFF) := by omega
    have hhalf : 0xD800 ≤ 0xD800 + high ∧ 0xD800 + high ≤ 0xDBFF := by omega
    have hsecond : ¬ (0xDC00 + low < 0xDC00 ∨ 0xDFFF < 0xDC00 + low) := by omega
    have hchar : Char.ofNat (0x10000 + high * 0x400 + low) = c := hc ▸ Char.ofNat_toNat c
    simp only [Quoted.escape, lowSurrogate, h₁.hex4, h₂.hex4, bind, Except.bind, Bool.and_eq_true,
      Bool.or_eq_true, decide_eq_true_eq, if_neg hfirst, if_pos hhalf, if_neg hsecond,
      Nat.add_sub_cancel_left, hchar]

theorem Escapes.shorter (h : Escapes c cs rest) : rest.length < cs.length := by
  cases h with
  | letter => simp
  | code h => exact Nat.lt_succ_of_lt h.shorter
  | halves _ _ _ h₁ h₂ =>
    have := h₁.shorter
    have := h₂.shorter
    simp only [List.length_cons] at *
    omega

theorem Spells.shorter (h : Spells s cs rest) : s.length + rest.length < cs.length := by
  induction h with
  | close => simp
  | plain _ _ _ _ ih =>
    simp only [List.length_cons]
    omega
  | escape hc _ ih =>
    have := hc.shorter
    simp only [List.length_cons]
    omega

def isPlain (c : Char) : Bool := 0x20 ≤ c.toNat && c ≠ '"' && c ≠ '\\'

/-- A text with nothing special in it stands for itself. -/
theorem plain_spells (s rest : List Char) (hs : s.all isPlain = true) :
    Spells s (s ++ '"' :: rest) rest := by
  induction s with
  | nil => exact .close
  | cons c s ih =>
    simp only [List.all_cons, isPlain, Bool.and_eq_true, decide_eq_true_eq] at hs
    obtain ⟨⟨⟨hc, hquote⟩, hslash⟩, hs⟩ := hs
    exact .plain hc hquote hslash (ih hs)

/-- Each step reads a character. -/
theorem Spells.body (h : Spells s cs rest) {fuel : Nat} (hf : s.length < fuel) :
    body fuel cs = .ok (s, rest) := by
  induction h generalizing fuel with
  | close =>
    obtain ⟨fuel, rfl⟩ := Nat.exists_eq_add_one_of_ne_zero (Nat.ne_zero_of_lt hf)
    rfl
  | plain hc hquote hslash _ ih =>
    obtain ⟨fuel, rfl⟩ := Nat.exists_eq_add_one_of_ne_zero (Nat.ne_zero_of_lt hf)
    have hread := ih (Nat.lt_of_succ_lt_succ hf)
    simp [Quoted.body, Nat.not_lt.mpr hc, hread, Functor.map, Except.map]
  | escape hc _ ih =>
    obtain ⟨fuel, rfl⟩ := Nat.exists_eq_add_one_of_ne_zero (Nat.ne_zero_of_lt hf)
    have hread := ih (Nat.lt_of_succ_lt_succ hf)
    simp [Quoted.body, hc.escape, hread, bind, Except.bind, pure, Except.pure]

/-- However a string is written, it is read. -/
theorem Spells.read {text : String} (h : Spells text.toList cs rest) :
    read cs = .ok (text, rest) := by
  have hlonger := h.shorter
  have hbody : Quoted.body (cs.length + 1) cs = .ok (text.toList, rest) := h.body (by omega)
  simp [Quoted.read, hbody, Functor.map, Except.map]

end Corun.Json.Quoted
