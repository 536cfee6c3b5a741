import Mathlib.Data.List.Forall2
import Mathlib.Data.List.Nodup
import Corun.Json.Library
import Corun.Proofs.Json.Grammar

namespace Corun.Json

/-- The records that an object or a list stands for, where `field` is what a value stands for in the
place of a field. -/
inductive Record.Filled {φ : Type} {β : φ → Type} (r : Record φ β) (field : ∀ f, Doc → β f → Prop) :
    Doc → (∀ f, β f) → Prop
  | object {ms : List (String × Doc)} {x : ∀ f, β f}
      (hknown : ∀ m ∈ ms, ∃ f, r.fieldName f = m.1) (hdistinct : (ms.map Prod.fst).Nodup)
      (heach : ∀ f, (∃ d, (r.fieldName f, d) ∈ ms ∧ field f d (x f)) ∨
        r.fieldName f ∉ ms.map Prod.fst ∧ r.default f = some (x f)) :
      Filled r field (.object ms .closed) x
  | array {written left : List φ} {ds : List Doc} {x : ∀ f, β f} (hfields : r.fields = written ++ left)
      (hitems : List.Forall₂ (fun f d => field f d (x f)) written ds)
      (hleft : ∀ f ∈ left, r.default f = some (x f)) :
      Filled r field (.array ds .closed) x

theorem Record.name_inj {φ : Type} {β : φ → Type} {r : Record φ β} {f g : φ}
    (h : r.fieldName f = r.fieldName g) : f = g :=
  List.inj_on_of_nodup_map r.distinct (r.all f) (r.all g) h

namespace Library

variable {lib : Library}

/-- How deep a text may be nested. -/
def nesting : Nat := 127

/-- What is documented of reading: a text is read as what it says unless it goes beyond a limit, and
then nothing is decoded from it. `number` is what numerals are read as. -/
structure Reads (lib : Library) (number : Numeral → Except Fault Number) : Prop where
  natural : ∀ n < UInt64.size, number (.ofNat n) = .ok (.integer n)
  complete : ∀ {v text}, Value.SpelledBy v text → v.Within nesting →
    lib.read text = ⟨v.doc number, .ok ()⟩
  sound : ∀ {v text}, Value.SpelledBy v text → lib.read text = ⟨v.doc number, .ok ()⟩ ∨
    ∀ {α} (s : Schema α), ∃ f, lib.fromText s text = .error f

/-- What is documented of decoding: which documents stand for a value of a declared type. -/
structure Decodes (lib : Library) : Prop where
  text : ∀ {d s}, lib.decode .text d = .ok s ↔ d = .string s
  truth : ∀ {d b}, lib.decode .truth d = .ok b ↔ d = .bool b
  natural : ∀ {name d n}, n < UInt64.size →
    (lib.decode (.natural name) d = .ok n ↔ d = .number (.integer n))
  optional : ∀ {α} {s : Schema α} {d o}, lib.decode (.optional s) d = .ok o ↔
    d = .null ∧ o = none ∨ d ≠ .null ∧ ∃ a, lib.decode s d = .ok a ∧ o = some a
  list : ∀ {α} {s : Schema α} {d as}, lib.decode (.list s) d = .ok as ↔
    ∃ ds, d = .array ds .closed ∧ List.Forall₂ (fun d a => lib.decode s d = .ok a) ds as
  choice : ∀ {α} {names : List (String × α)} {d a}, lib.decode (.choice names) d = .ok a ↔
    ∃ name, names.lookup name = some a ∧
      (d = .string name ∨ d = .object [(name, .null)] .closed)
  record : ∀ {φ} {β : φ → Type} {α} [DecidableEq φ] {r : Record φ β} {of : ∀ f, Schema (β f)}
    {make : (∀ f, β f) → α} {d a}, lib.decode (.record r of make) d = .ok a ↔
      ∃ x, r.Filled (fun f d y => lib.decode (of f) d = .ok y) d x ∧ make x = a

end Library

end Corun.Json
