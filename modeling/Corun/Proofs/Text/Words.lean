import Mathlib.Data.String.Basic
import Corun.Benchmark

namespace Corun.Text

variable {c : Char} {cs gap rest w : List Char} {ws : List (List Char)}

def Blanks (cs : List Char) : Prop := ∀ c ∈ cs, isBlank c = true

/-- A word is not empty, and there is no blank in it. -/
structure Word (w : List Char) : Prop where
  ne_nil : w ≠ []
  solid : ∀ c ∈ w, isBlank c = false

instance (cs : List Char) : Decidable (Blanks cs) :=
  List.decidableBAll (fun c => isBlank c = true) cs

instance (w : List Char) : Decidable (Word w) :=
  haveI := List.decidableBAll (fun c => isBlank c = false) w
  decidable_of_iff (w ≠ [] ∧ ∀ c ∈ w, isBlank c = false)
    ⟨fun h => ⟨h.1, h.2⟩, fun h => ⟨h.ne_nil, h.solid⟩⟩

/-- A word before such a text does not go on in it. -/
def Parted (rest : List Char) : Prop := ∀ c ∈ rest.head?, isBlank c = true

theorem Blanks.parted (h : Blanks gap) : Parted gap := by
  intro c hc
  exact h c (List.mem_of_head? hc)

theorem Blanks.parts (h : Blanks gap) (hne : gap ≠ []) : Parted (gap ++ rest) := by
  cases gap with
  | nil => exact absurd rfl hne
  | cons c cs =>
    intro d hd
    cases hd
    exact h c List.mem_cons_self

theorem words_blank (h : isBlank c = true) : words (c :: cs) = words cs := by
  rw [words, if_pos h]

theorem words_closed (h : isBlank c = false) (hp : Parted cs) :
    words (c :: cs) = [c] :: words cs := by
  have hclosed : (cs.head?.map isBlank).getD true = true := by
    cases cs with
    | nil => rfl
    | cons d cs => exact hp d rfl
  rw [words, if_neg (by simp [h]), if_pos hclosed]

theorem words_open {d : Char} (h : isBlank c = false) (hd : isBlank d = false) :
    words (c :: d :: cs) = extendFirst c (words (d :: cs)) := by
  rw [words, if_neg (by simp [h]), if_neg (by simp [hd])]

theorem words_skip (h : Blanks gap) : words (gap ++ cs) = words cs := by
  induction gap with
  | nil => rfl
  | cons c gap ih =>
    rw [List.cons_append, words_blank (h c List.mem_cons_self)]
    exact ih fun d hd => h d (List.mem_cons_of_mem _ hd)

/-- A word that is parted from what follows is the first one. -/
theorem words_first (h : Word w) (hp : Parted rest) : words (w ++ rest) = w :: words rest := by
  obtain ⟨hne, hsolid⟩ := h
  induction w with
  | nil => exact absurd rfl hne
  | cons c w ih =>
    have hc := hsolid c List.mem_cons_self
    cases w with
    | nil => exact words_closed hc hp
    | cons d w =>
      have hlater : ∀ e ∈ d :: w, isBlank e = false := fun e he => hsolid e (List.mem_cons_of_mem _ he)
      have hw := ih (by simp) hlater
      rw [List.cons_append] at hw
      rw [List.cons_append, List.cons_append, words_open hc (hlater d List.mem_cons_self), hw]
      rfl

theorem words_blanks (h : Blanks cs) : words cs = [] := by
  rw [← List.append_nil cs, words_skip h]
  rfl

theorem extendFirst_flatten (c : Char) (ws : List (List Char)) :
    (extendFirst c ws).flatten = c :: ws.flatten := by
  cases ws <;> rfl

theorem extendFirst_word (hc : isBlank c = false) (h : ∀ w ∈ ws, Word w) :
    ∀ w ∈ extendFirst c ws, Word w := by
  cases ws with
  | nil => simpa [extendFirst] using Word.mk (by simp) (by simpa using hc)
  | cons v ws =>
    obtain ⟨hv, hws⟩ := List.forall_mem_cons.mp h
    have hlonger : Word (c :: v) := ⟨by simp, List.forall_mem_cons.mpr ⟨hc, hv.solid⟩⟩
    unfold extendFirst
    exact List.forall_mem_cons.mpr ⟨hlonger, hws⟩

/-- Words are words, and blanks are all that is between them. -/
theorem words_kept (cs : List Char) :
    (∀ w ∈ words cs, Word w) ∧ (words cs).flatten = cs.filter fun c => !isBlank c := by
  induction cs with
  | nil => simp [words]
  | cons c cs ih =>
    obtain ⟨hwords, hkept⟩ := ih
    cases hc : isBlank c with
    | true => simpa [words_blank hc, hc] using ⟨hwords, hkept⟩
    | false =>
      have hword : Word [c] := ⟨by simp, by simpa using hc⟩
      rw [words, if_neg (by simp [hc])]
      split
      · refine ⟨List.forall_mem_cons.mpr ⟨hword, hwords⟩, ?_⟩
        simp [hkept, hc]
      · refine ⟨extendFirst_word hc hwords, ?_⟩
        simp [extendFirst_flatten, hkept, hc]

theorem blanks_of_wordless (h : words cs = []) : Blanks cs := by
  have hkept := (words_kept cs).2
  rw [h] at hkept
  intro c hc
  have hnone := List.filter_eq_nil_iff.mp hkept.symm c hc
  simpa using hnone

end Corun.Text

namespace Corun.Benchmark
open Text

variable {id : Nat} {name command before after : String} {b : Benchmark} {f : Failure}
  {words : List String} {gap : Nat → String}

theorem ofArgs_ok_iff :
    ofArgs id name words = .ok b ↔ b.id = id ∧ b.name = name ∧ b.args = words := by
  obtain ⟨i, n, path, operands⟩ := b
  cases words with
  | nil => simp [ofArgs, args]
  | cons w words =>
    simp only [ofArgs, args, Except.ok.injEq, mk.injEq, List.cons.injEq]
    constructor
    · intro h
      exact ⟨h.1.symm, h.2.1.symm, h.2.2.1.symm, h.2.2.2.symm⟩
    · intro h
      exact ⟨h.1.symm, h.2.1.symm, h.2.2.1.symm, h.2.2.2.symm⟩

theorem ofArgs_error_iff :
    ofArgs id name words = .error f ↔ words = [] ∧ f = .ofCause .emptyCommand := by
  cases words with
  | nil => simp [ofArgs, eq_comm]
  | cons w words => simp [ofArgs]

/-- Words with gaps between them. -/
def weave (gap : Nat → String) : List String → String
  | [] => ""
  | [w] => w
  | w :: v :: words => w ++ gap words.length ++ weave gap (v :: words)

/-- What may stand between two words. -/
def Gap (s : String) : Prop := s ≠ "" ∧ Blanks s.toList

instance (s : String) : Decidable (Gap s) := inferInstanceAs (Decidable (s ≠ "" ∧ Blanks s.toList))

theorem words_woven {rest : List Char} (hwords : ∀ w ∈ words, Word w.toList)
    (hgap : ∀ n, Gap (gap n)) (hrest : Blanks rest) :
    Text.words ((weave gap words).toList ++ rest) = words.map String.toList := by
  induction words with
  | nil => exact words_blanks hrest
  | cons w words ih =>
    obtain ⟨hw, hlater⟩ := List.forall_mem_cons.mp hwords
    cases words with
    | nil =>
      rw [weave, words_first hw hrest.parted, words_blanks hrest]
      rfl
    | cons v words =>
      obtain ⟨hne, hblanks⟩ := hgap words.length
      have hparted : Parted ((gap words.length).toList ++ ((weave gap (v :: words)).toList ++ rest)) :=
        hblanks.parts (mt String.toList_eq_nil_iff.mp hne)
      rw [weave, String.toList_append, String.toList_append, List.append_assoc, List.append_assoc,
        words_first hw hparted, words_skip hblanks, ih hlater]
      rfl

theorem commandWords_woven (hwords : ∀ w ∈ words, Word w.toList) (hgap : ∀ n, Gap (gap n))
    (hbefore : Blanks before.toList) (hafter : Blanks after.toList) :
    commandWords (before ++ weave gap words ++ after) = words := by
  unfold commandWords
  rw [String.toList_append, String.toList_append, List.append_assoc, words_skip hbefore,
    words_woven hwords hgap hafter, List.map_map]
  apply List.map_id''
  intro w
  exact String.ofList_toList

theorem weave_spaces (words : List String) : weave (fun _ => " ") words = " ".intercalate words := by
  induction words with
  | nil => rfl
  | cons w words ih =>
    cases words with
    | nil => rfl
    | cons v words => rw [weave, ih, String.intercalate_cons_cons]

theorem commandWords_spaced (hwords : ∀ w ∈ words, Word w.toList) :
    commandWords (" ".intercalate words) = words := by
  have hnothing : Blanks "".toList := by simp [Blanks]
  have hspace : Gap " " := by decide
  have hwoven := commandWords_woven hwords (fun _ => hspace) hnothing hnothing
  rwa [weave_spaces, String.empty_append, String.append_empty] at hwoven

theorem commandWords_word : ∀ w ∈ commandWords command, Word w.toList := by
  intro w hw
  obtain ⟨cs, hcs, rfl⟩ := List.mem_map.mp hw
  rw [String.toList_ofList]
  exact (words_kept command.toList).1 cs hcs

theorem commandWords_nil_iff : commandWords command = [] ↔ Blanks command.toList := by
  unfold commandWords
  rw [List.map_eq_nil_iff]
  exact ⟨blanks_of_wordless, words_blanks⟩

/-- Nothing but blanks is lost. -/
theorem commandWords_join :
    String.join (commandWords command) =
      String.ofList (command.toList.filter fun c => !isBlank c) := by
  apply String.toList_inj.mp
  rw [String.toList_join, String.toList_ofList, ← (words_kept command.toList).2, commandWords,
    List.flatMap_map]
  simp [List.flatMap_id']

/-- However words are set apart by blanks, they are the arguments of the command. The arguments of any
command are words that make it up but for its blanks, and are its arguments again if they are written
with one space between each two. Without a word there is no command. -/
theorem command_taken_apart (id : Nat) (name : String) :
    (∀ words gap before after, (∀ w ∈ words, Word w.toList) → (∀ n, Gap (gap n)) →
      Blanks before.toList → Blanks after.toList →
      (ofCommand id name (before ++ weave gap words ++ after)).map args =
        if words = [] then .error (.ofCause .emptyCommand) else .ok words) ∧
    ∀ command, (Blanks command.toList ∧
        ofCommand id name command = .error (.ofCause .emptyCommand)) ∨
      ∃ b, ofCommand id name command = .ok b ∧ b.args ≠ [] ∧ (∀ w ∈ b.args, Word w.toList) ∧
        String.join b.args = String.ofList (command.toList.filter fun c => !isBlank c) ∧
        ofCommand id name (" ".intercalate b.args) = .ok b := by
  constructor
  · intro words gap before after hwords hgap hbefore hafter
    unfold ofCommand
    rw [commandWords_woven hwords hgap hbefore hafter]
    cases words <;> rfl
  · intro command
    cases hc : commandWords command with
    | nil =>
      refine .inl ⟨commandWords_nil_iff.mp hc, ?_⟩
      exact ofArgs_error_iff.mpr ⟨hc, rfl⟩
    | cons path operands =>
      have hwords : ∀ w ∈ commandWords command, Word w.toList := commandWords_word
      have hagain := commandWords_spaced hwords
      have hjoin : String.join (commandWords command) = _ := commandWords_join
      rw [hc] at hwords hagain hjoin
      refine .inr ⟨⟨id, name, path, operands⟩, ?_, by simp [args], hwords, hjoin, ?_⟩
      · exact ofArgs_ok_iff.mpr ⟨rfl, rfl, hc.symm⟩
      · exact ofArgs_ok_iff.mpr ⟨rfl, rfl, hagain.symm⟩

/-- Three words with a tab and wider blanks between them, and blanks around them. -/
theorem command_taken_apart_at_wide_blanks :
    let gap : Nat → String := fun n => if n = 0 then "\u00a0\u2028" else " \t"
    (ofCommand 2 "sleepy" ("\u3000" ++ weave gap ["/bin/sh", "-c", "exit"] ++ "\n")).map args =
      .ok ["/bin/sh", "-c", "exit"] := by
  intro gap
  have hwords : ∀ w ∈ ["/bin/sh", "-c", "exit"], Word w.toList := by decide
  have hgap : ∀ n, Gap (gap n) := by
    intro n
    unfold gap
    split <;> decide
  exact (command_taken_apart 2 "sleepy").1 _ gap "\u3000" "\n" hwords hgap (by decide) (by decide)

end Corun.Benchmark
