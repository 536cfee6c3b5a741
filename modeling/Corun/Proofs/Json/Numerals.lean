import Mathlib.Data.List.Basic
import Mathlib.Data.List.TakeWhile
import Corun.Json.Literal

namespace Corun.Json

/-- One digit or more. -/
def IsRun (ds : List Char) : Prop := ds ≠ [] ∧ ∀ d ∈ ds, d.isDigit = true

/-- A number as it is written. A zero in front stands alone. -/
structure Numeral where
  negative : Bool
  whole : List Char
  fraction : List Char
  exponent : List Char
  isWhole : IsRun whole
  zeroAlone : whole.head? = some '0' → whole = ['0']
  isFraction : fraction = [] ∨ ∃ ds, IsRun ds ∧ fraction = '.' :: ds
  isExponent : exponent = [] ∨ ∃ mark sign ds, Number.isExponentMark mark = true ∧
    sign ∈ [[], ['+'], ['-']] ∧ IsRun ds ∧ exponent = mark :: (sign ++ ds)

theorem IsRun.cons {ds : List Char} (h : IsRun ds) :
    ∃ d more, ds = d :: more ∧ d.isDigit = true := by
  obtain ⟨d, more, rfl⟩ := List.exists_cons_of_ne_nil h.1
  exact ⟨d, more, rfl, h.2 d List.mem_cons_self⟩

/-- What cannot go on with a number. -/
def Stops (rest : List Char) : Prop :=
  ∀ c ∈ rest.head?, c.isDigit = false ∧ c ≠ '.' ∧ Number.isExponentMark c = false

theorem stops_nil : Stops [] := by simp [Stops]

namespace Number

variable {negative : Bool} {significand dropped : Nat} {e : Int} {ds rest : List Char}

/-- What is read from a text does not depend on what ends it. -/
def Settles (read : List Char → Except Fault (Number × List Char)) (text : List Char) : Prop :=
  ∀ rest, Stops rest → read (text ++ rest) = (read text).map fun p => (p.1, rest)

theorem paired_settles (m : Except Fault Number) (rest : List Char) :
    (m.bind fun x => .ok (x, rest)) =
      (m.bind fun x => .ok (x, ([] : List Char))).map fun p => (p.1, rest) := by
  cases m <;> rfl

theorem mapped_settles (m : Except Fault Number) (rest : List Char) :
    m.map (·, rest) = (m.map (·, ([] : List Char))).map fun p => (p.1, rest) := by
  cases m <;> rfl

theorem run_split (hds : ∀ d ∈ ds, d.isDigit = true) (hrest : ∀ c ∈ rest.head?, c.isDigit = false) :
    (ds ++ rest).takeWhile Char.isDigit = ds ∧ (ds ++ rest).dropWhile Char.isDigit = rest := by
  have hstop : rest.takeWhile Char.isDigit = [] ∧ rest.dropWhile Char.isDigit = rest := by
    cases rest with
    | nil => exact ⟨rfl, rfl⟩
    | cons c cs => simp [hrest c rfl]
  rw [List.takeWhile_append_of_pos hds, List.dropWhile_append_of_pos hds, hstop.1, hstop.2]
  exact ⟨List.append_nil ds, rfl⟩

theorem run_alone (hds : ∀ d ∈ ds, d.isDigit = true) :
    ds.takeWhile Char.isDigit = ds ∧ ds.dropWhile Char.isDigit = [] := by
  have h := @run_split ds [] hds (by simp)
  rwa [List.append_nil] at h

theorem isDigit_ne {d c : Char} (hd : d.isDigit = true) (hc : c.isDigit = false) : d ≠ c := by
  rintro rfl
  simp [hd] at hc

theorem exponent_settles {sign : List Char} (hsign : sign ∈ [[], ['+'], ['-']]) (hds : IsRun ds) :
    Settles (Number.exponent negative significand e) (sign ++ ds) := by
  intro rest hrest
  obtain ⟨hrun, hleft⟩ := run_split hds.2 fun c hc => (hrest c hc).1
  obtain ⟨halone, hnone⟩ := run_alone hds.2
  obtain ⟨d, more, rfl, hd⟩ := hds.cons
  have hplus : d ≠ '+' := isDigit_ne hd rfl
  have hminus : d ≠ '-' := isDigit_ne hd rfl
  rw [List.cons_append] at hrun hleft
  simp only [List.mem_cons, List.not_mem_nil, or_false] at hsign
  obtain rfl | rfl | rfl := hsign
  all_goals
    simp only [Number.exponent, List.nil_append, List.cons_append, List.cons.injEq, hplus, hminus,
      false_and, false_implies, implies_true, hd, if_true, hrun, hleft, halone, hnone]
    split_ifs <;> first | rfl | exact paired_settles _ rest

theorem mark_isDigit {c : Char} (hc : isExponentMark c = true) : c.isDigit = false ∧ c ≠ '.' := by
  simp only [isExponentMark, Bool.or_eq_true, decide_eq_true_eq] at hc
  obtain rfl | rfl := hc <;> decide

theorem fraction_stop (hrest : Stops rest) :
    Number.fraction negative significand dropped rest =
      (fraction.plain negative significand dropped).map (·, rest) := by
  cases rest with
  | nil => rfl
  | cons c cs =>
    obtain ⟨-, hdot, hmark⟩ := hrest c rfl
    simp [Number.fraction, hmark]

theorem fraction_mark {mark : Char} {cs : List Char} (hmark : isExponentMark mark = true) :
    Number.fraction negative significand dropped (mark :: cs) =
      Number.exponent negative significand dropped cs := by
  simp [Number.fraction, (mark_isDigit hmark).2, hmark]

theorem point_stop (hds : IsRun ds) (hrest : Stops rest) :
    Number.fraction negative significand dropped ('.' :: (ds ++ rest)) =
      (ofDecimal negative (append significand ds).1 (dropped - (append significand ds).2)).map
        (·, rest) := by
  obtain ⟨hrun, hleft⟩ := run_split hds.2 fun c hc => (hrest c hc).1
  obtain ⟨d, more, rfl, -⟩ := hds.cons
  cases rest with
  | nil => simp only [Number.fraction, hrun, hleft]
  | cons c cs =>
    obtain ⟨-, -, hmark⟩ := hrest c rfl
    simp only [Number.fraction, hrun, hleft, hmark, Bool.false_eq_true, if_false]

theorem point_mark {mark : Char} {cs : List Char} (hds : IsRun ds)
    (hmark : isExponentMark mark = true) :
    Number.fraction negative significand dropped ('.' :: (ds ++ mark :: cs)) =
      Number.exponent negative (append significand ds).1
        (dropped - (append significand ds).2) cs := by
  obtain ⟨hrun, hleft⟩ := @run_split ds (mark :: cs) hds.2 (by simpa using (mark_isDigit hmark).1)
  obtain ⟨d, more, rfl, -⟩ := hds.cons
  simp only [Number.fraction, hrun, hleft, hmark, if_true]

/-- What stands behind the whole part. -/
theorem fraction_settles (n : Numeral) :
    Settles (Number.fraction negative significand dropped) (n.fraction ++ n.exponent) := by
  intro rest hrest
  obtain hpoint | ⟨ds, hds, hpoint⟩ := n.isFraction <;>
    obtain hexp | ⟨mark, sign, power, hmark, hsign, hpower, hexp⟩ := n.isExponent <;>
    rw [hpoint, hexp]
  · rw [List.append_nil, List.nil_append, fraction_stop hrest, fraction_stop stops_nil]
    exact mapped_settles _ rest
  · rw [List.nil_append, List.cons_append, fraction_mark hmark, fraction_mark hmark]
    exact exponent_settles hsign hpower rest hrest
  · have halone : Number.fraction negative significand dropped ('.' :: ds) = _ :=
      List.append_nil ds ▸ point_stop hds stops_nil
    rw [List.append_nil, List.cons_append, point_stop hds hrest, halone]
    exact mapped_settles _ rest
  · simp only [List.cons_append, List.append_assoc]
    rw [point_mark hds hmark, point_mark hds hmark, ← List.append_assoc]
    exact exponent_settles hsign hpower rest hrest

/-- The whole part has all the digits in front. -/
theorem behind_whole (n : Numeral) (hrest : Stops rest) :
    ∀ c ∈ (n.fraction ++ n.exponent ++ rest).head?, c.isDigit = false := by
  obtain hpoint | ⟨ds, -, hpoint⟩ := n.isFraction <;>
    obtain hexp | ⟨mark, sign, power, hmark, -, -, hexp⟩ := n.isExponent <;>
    rw [hpoint, hexp]
  · exact fun c hc => (hrest c hc).1
  · simpa using (mark_isDigit hmark).1
  · simp
  · simp

theorem unsigned_zero (hrest : ∀ c ∈ rest.head?, c.isDigit = false) :
    unsigned negative ('0' :: rest) = Number.fraction negative 0 0 rest := by
  cases rest with
  | nil => rfl
  | cons c cs => simp [unsigned, hrest c rfl]

theorem unsigned_run (hds : IsRun ds) (hzero : ds.head? ≠ some '0')
    (hrest : ∀ c ∈ rest.head?, c.isDigit = false) :
    unsigned negative (ds ++ rest) =
      Number.fraction negative (append 0 ds).1 (ds.length - (append 0 ds).2) rest := by
  obtain ⟨hrun, hleft⟩ := run_split hds.2 hrest
  obtain ⟨d, more, rfl, hd⟩ := hds.cons
  have hnonzero : d ≠ '0' := fun h => hzero (congrArg some h)
  rw [List.cons_append] at hrun hleft ⊢
  simp only [unsigned, hd, if_true, hrun, hleft]

end Number

namespace Numeral

/-- A number after its sign. -/
def magnitude (n : Numeral) : List Char := n.whole ++ (n.fraction ++ n.exponent)

def text (n : Numeral) : List Char := if n.negative then '-' :: n.magnitude else n.magnitude

/-- What is read from a number. -/
def value (n : Numeral) : Except Fault Number :=
  (Number.unsigned n.negative n.magnitude).map Prod.fst

variable {n : Numeral} {rest : List Char}

theorem settles (n : Numeral) : Number.Settles (Number.unsigned n.negative) n.magnitude := by
  intro rest hrest
  have hbehind := Number.behind_whole n hrest
  have halone : ∀ c ∈ (n.fraction ++ n.exponent).head?, c.isDigit = false :=
    List.append_nil (n.fraction ++ n.exponent) ▸ Number.behind_whole n stops_nil
  rw [magnitude, List.append_assoc]
  by_cases hzero : n.whole.head? = some '0'
  · rw [n.zeroAlone hzero]
    simp only [List.cons_append, List.nil_append]
    rw [Number.unsigned_zero hbehind, Number.unsigned_zero halone]
    exact Number.fraction_settles n rest hrest
  · rw [Number.unsigned_run n.isWhole hzero hbehind, Number.unsigned_run n.isWhole hzero halone]
    exact Number.fraction_settles n rest hrest

/-- A number is read up to what cannot go on with it. -/
theorem read (n : Numeral) (hrest : Stops rest) :
    Number.unsigned n.negative (n.magnitude ++ rest) = n.value.map (·, rest) := by
  rw [settles n rest hrest, value]
  cases Number.unsigned n.negative n.magnitude <;> rfl

theorem digitChar_zero : ∀ d < 10, d.digitChar = '0' → d = 0 := by decide

/-- Only zero begins with a zero. -/
theorem leading_zero {k : Nat} (h : (Nat.toDigits 10 k).head? = some '0') : k = 0 := by
  induction k using Nat.strong_induction_on with
  | _ k ih =>
    rw [Nat.toDigits_eq_if (by decide)] at h
    split at h
    · rename_i hk
      exact digitChar_zero k hk (Option.some.inj h)
    · rename_i hk
      rw [List.head?_append_of_ne_nil _ Nat.toDigits_ne_nil] at h
      have := ih (k / 10) (by omega) h
      omega

/-- A whole number in decimal digits. -/
def ofNat (k : Nat) : Numeral where
  negative := false
  whole := Nat.toDigits 10 k
  fraction := []
  exponent := []
  isWhole := ⟨Nat.toDigits_ne_nil, fun _ => Nat.isDigit_of_mem_toDigits (by decide) (by decide)⟩
  zeroAlone h := leading_zero h ▸ Nat.toDigits_zero 10
  isFraction := .inl rfl
  isExponent := .inl rfl

theorem ofDigitChars_le (ds : List Char) (m : Nat) : m ≤ Nat.ofDigitChars 10 ds m := by
  rw [Nat.ofDigitChars_eq_ofDigitChars_zero]
  have := Nat.le_mul_of_pos_left m (Nat.pow_pos (n := ds.length) (show 0 < 10 by decide))
  omega

/-- Digits are taken as long as the number fits. -/
theorem append_fits {ds : List Char} {m : Nat} (hbound : Nat.ofDigitChars 10 ds m < Number.bound) :
    Number.append m ds = (Nat.ofDigitChars 10 ds m, ds.length) := by
  induction ds generalizing m with
  | nil => rfl
  | cons d ds ih =>
    have hnext : 10 * m + (d.toNat - '0'.toNat) = m * 10 + Number.digitValue d := by
      rw [Nat.mul_comm, Number.digitValue]
    rw [Nat.ofDigitChars_cons, hnext] at hbound ⊢
    have hfits := Nat.lt_of_le_of_lt (ofDigitChars_le ds _) hbound
    simp only [Number.append, if_pos hfits, ih hbound, List.length_cons]

/-- A whole number that fits is read as it is. -/
theorem value_ofNat {k : Nat} (hk : k < Number.bound) : (ofNat k).value = .ok (.integer k) := by
  by_cases hzero : (ofNat k).whole.head? = some '0'
  · obtain rfl := leading_zero hzero
    rfl
  · have hdigits : Nat.ofDigitChars 10 (ofNat k).whole 0 = k := Nat.ofDigitChars_ten_toDigits
    have hall := append_fits (hdigits.symm ▸ hk)
    have hread : Number.unsigned false ((ofNat k).whole ++ []) = _ :=
      Number.unsigned_run (ofNat k).isWhole hzero (by simp)
    rw [hall, hdigits, Nat.sub_self] at hread
    rw [value]
    exact congrArg (Except.map Prod.fst) hread

end Numeral

end Corun.Json
