import Corun.Json.Doc
import Corun.Proofs.Json.Numerals
import Corun.Proofs.Json.Spelling

namespace Corun.Json

inductive Value where
  | null
  | bool (b : Bool)
  | number (n : Numeral)
  | string (s : String)
  | array (items : List Value)
  | object (members : List (String × Value))

namespace Value

section

variable (number : Numeral → Except Fault Number)

mutual

/-- The document that says so, where `number` is what numerals are read as. -/
def doc : Value → Doc
  | null => .null
  | bool b => .bool b
  | .number n =>
    match number n with
    | .ok x => .number x
    | .error f => .broken .digit f
  | string s => .string s
  | array items => .array (docs items) .closed
  | object members => .object (memberDocs members) .closed

def docs : List Value → List Doc
  | [] => []
  | v :: vs => doc v :: docs vs

def memberDocs : List (String × Value) → List (String × Doc)
  | [] => []
  | m :: ms => (m.1, doc m.2) :: memberDocs ms

end

theorem docs_eq_map (vs : List Value) : docs number vs = vs.map (doc number) := by
  induction vs with
  | nil => rfl
  | cons v vs ih => rw [docs, ih, List.map_cons]

theorem memberDocs_eq_map (ms : List (String × Value)) :
    memberDocs number ms = ms.map fun m => (m.1, m.2.doc number) := by
  induction ms with
  | nil => rfl
  | cons m ms ih => rw [memberDocs, ih, List.map_cons]

end

/-- Nested at most so deep, and every number in it a word. -/
inductive Within : Nat → Value → Prop
  | null : Within depth null
  | bool : Within depth (bool b)
  | number (hn : n < UInt64.size) : Within depth (.number (.ofNat n))
  | string : Within depth (string s)
  | array (h : ∀ v ∈ vs, Within depth v) : Within (depth + 1) (array vs)
  | object (h : ∀ m ∈ ms, Within depth m.2) : Within (depth + 1) (object ms)

end Value

/-- What stands at a place of a text. Items and members are those from a place on; before the first
of all stands no comma. -/
inductive Piece where
  | value (v : Value)
  | items (first : Bool) (vs : List Value)
  | item (v : Value) (vs : List Value)
  | members (first : Bool) (ms : List (String × Value))
  | member (m : String × Value) (ms : List (String × Value))

/-- A text that begins with a piece, and what stands after it. -/
inductive Spells : Piece → List Char → List Char → Prop
  | blank (hc : isSpace c = true) (h : Spells p cs rest) : Spells p (c :: cs) rest
  | null : Spells (.value .null) ('n' :: 'u' :: 'l' :: 'l' :: rest) rest
  | yes : Spells (.value (.bool true)) ('t' :: 'r' :: 'u' :: 'e' :: rest) rest
  | no : Spells (.value (.bool false)) ('f' :: 'a' :: 'l' :: 's' :: 'e' :: rest) rest
  | number (n : Numeral) : Spells (.value (.number n)) (n.text ++ rest) rest
  | string {s : String} (h : Quoted.Spells s.toList cs rest) :
      Spells (.value (.string s)) ('"' :: cs) rest
  | array (h : Spells (.items true vs) cs rest) : Spells (.value (.array vs)) ('[' :: cs) rest
  | object (h : Spells (.members true ms) cs rest) :
      Spells (.value (.object ms)) ('\x7b' :: cs) rest
  | itemsEnd : Spells (.items first []) (']' :: rest) rest
  | itemsFirst (h : Spells (.item v vs) cs rest) : Spells (.items true (v :: vs)) cs rest
  | itemsNext (h : Spells (.item v vs) cs rest) : Spells (.items false (v :: vs)) (',' :: cs) rest
  | item (hv : Spells (.value v) cs mid) (h : Spells (.items false vs) mid rest) :
      Spells (.item v vs) cs rest
  | membersEnd : Spells (.members first []) ('\x7d' :: rest) rest
  | membersFirst (h : Spells (.member m ms) cs rest) : Spells (.members true (m :: ms)) cs rest
  | membersNext (h : Spells (.member m ms) cs rest) :
      Spells (.members false (m :: ms)) (',' :: cs) rest
  | member {key : String} (hkey : Quoted.Spells key.toList ks (blanks ++ ':' :: cs))
      (hblanks : ∀ c ∈ blanks, isSpace c = true) (hv : Spells (.value v) cs mid)
      (h : Spells (.members false ms) mid rest) : Spells (.member (key, v) ms) ('"' :: ks) rest

/-- A text that is a value, with blanks around it. -/
def Value.SpelledBy (v : Value) (text : String) : Prop :=
  ∃ rest, Spells (.value v) text.toList rest ∧ ∀ c ∈ rest, isSpace c = true

end Corun.Json
