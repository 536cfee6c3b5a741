import Corun.Simulation.Lossy
import Corun.Simulation.Shell.Escape

namespace Corun.Shell

/-- A character of a word, which has a meaning of its own unless it is quoted. -/
structure Mark where
  char : Char
  isQuoted : Bool
deriving DecidableEq

namespace Mark

def chars (marks : List Mark) : List Char := marks.map Mark.char

def text (marks : List Mark) : String := String.ofList (chars marks)

def quoted (cs : List Char) : List Mark := cs.map fun c => ⟨c, true⟩

def plain (cs : List Char) : List Mark := cs.map fun c => ⟨c, false⟩

end Mark

namespace Pattern

structure Span where
  first : Char
  last : Char

inductive Item where
  | literal (c : Char)
  | any
  | many
  | oneOf (isNegated : Bool) (spans : List Span) (classes : List String)

def inClass (name : String) (c : Char) : Bool :=
  let n := c.toNat
  match name with
  | "alpha" => c.isAlpha
  | "digit" => c.isDigit
  | "alnum" => c.isAlphanum
  | "upper" => c.isUpper
  | "lower" => c.isLower
  | "space" => n = 32 || (9 ≤ n && n ≤ 13)
  | "blank" => c = ' ' || c = '\t'
  | "punct" => 33 ≤ n && n ≤ 126 && !c.isAlphanum
  | "print" => 32 ≤ n && n ≤ 126
  | "graph" => 33 ≤ n && n ≤ 126
  | "cntrl" => n < 32 || n = 127
  | "xdigit" => c.isDigit || ('a' ≤ c && c ≤ 'f') || ('A' ≤ c && c ≤ 'F')
  | _ => false

def Item.accepts (c : Char) : Item → Bool
  | .literal d => c = d
  | .any => true
  | .many => false
  | .oneOf isNegated spans classes =>
    (spans.any (fun s => s.first ≤ c && c ≤ s.last) || classes.any fun name => inClass name c)
      != isNegated

def classNames : List String :=
  ["alpha", "digit", "alnum", "upper", "lower", "space", "blank", "punct", "print", "graph", "cntrl",
   "xdigit"]

def className? (marks : List Mark) : Option (String × List Mark) :=
  let name := marks.takeWhile fun m => m.char.isAlpha
  match marks.drop name.length with
  | ⟨':', _⟩ :: ⟨']', _⟩ :: rest =>
    if classNames.contains (Mark.text name) then some (Mark.text name, rest) else none
  | _ => none

/-- A set from after its first bracket, and what comes after the last one. -/
def set? (isNegated : Bool) : Nat → Bool → List Span → List String → List Mark →
    Option (Item × List Mark)
  | 0, _, _, _, _ => none
  | _ + 1, _, _, _, [] => none
  | fuel + 1, isFirst, spans, classes, m :: rest =>
    if m.char = ']' ∧ !m.isQuoted ∧ !isFirst then some (.oneOf isNegated spans classes, rest)
    else
      let single (c : Char) (rest : List Mark) : Option (Item × List Mark) :=
        match rest with
        | ⟨'-', false⟩ :: d :: rest' =>
          if d.char = ']' ∧ !d.isQuoted then
            set? isNegated fuel false (⟨c, c⟩ :: spans) classes rest
          else set? isNegated fuel false (⟨c, d.char⟩ :: spans) classes rest'
        | rest => set? isNegated fuel false (⟨c, c⟩ :: spans) classes rest
      match m, rest with
      | ⟨'[', false⟩, ⟨':', _⟩ :: rest' =>
        match className? rest' with
        | some (name, rest') => set? isNegated fuel false spans (name :: classes) rest'
        | none => single '[' rest
      | ⟨'\\', false⟩, d :: rest' => single d.char rest'
      | m, rest => single m.char rest

/-- The items of a pattern. A bracket that is not closed stands for itself. -/
def items : Nat → List Mark → List Item
  | 0, _ => []
  | _ + 1, [] => []
  | fuel + 1, ⟨c, isQuoted⟩ :: rest =>
    if isQuoted then .literal c :: items fuel rest
    else match c with
      | '*' => .many :: items fuel rest
      | '?' => .any :: items fuel rest
      | '[' =>
        let (isNegated, inner) := match rest with
          | ⟨'!', false⟩ :: inner => (true, inner)
          | inner => (false, inner)
        match set? isNegated (inner.length + 1) true [] [] inner with
        | some (item, rest) => item :: items fuel rest
        | none => .literal '[' :: items fuel rest
      | '\\' =>
        match rest with
        | ⟨d, _⟩ :: rest => .literal d :: items fuel rest
        | [] => [.literal '\\']
      | c => .literal c :: items fuel rest

/-- Patterns and texts are taken byte by byte. -/
def units (cs : List Char) : List Char :=
  cs.flatMap fun c => (bytesOf c.toString).map fun b => Char.ofNat b.toNat

def ofMarks (marks : List Mark) : List Item :=
  let marks := marks.flatMap fun m => (units [m.char]).map fun c => ⟨c, m.isQuoted⟩
  items (marks.length + 1) marks

def suffixes : List Char → List (List Char)
  | [] => [[]]
  | c :: cs => (c :: cs) :: suffixes cs

def fronts (cs : List Char) : List (List Char) := (List.range (cs.length + 1)).map cs.take

def fitsUnits : List Item → List Char → Bool
  | [], cs => cs.isEmpty
  | .many :: items, cs => (suffixes cs).any (fitsUnits items)
  | item :: items, c :: cs => item.accepts c && fitsUnits items cs
  | _ :: _, [] => false

def fits (items : List Item) (text : String) : Bool := fitsUnits items (units text.toList)

def isActive (marks : List Mark) : Bool :=
  marks.any fun m => !m.isQuoted && (m.char = '*' || m.char = '?' || m.char = '[')

/-- A text without what fits at one of its ends. -/
def trim (atEnd longest : Bool) (pattern : List Mark) (text : String) : String :=
  let items := ofMarks pattern
  let cs := units text.toList
  let ordered := List.range (cs.length + 1)
  let ordered := if atEnd = longest then ordered else ordered.reverse
  let kept :=
    if atEnd then
      match ordered.find? fun n => fitsUnits items (cs.drop n) with
      | some n => cs.take n
      | none => cs
    else
      match ordered.find? fun n => fitsUnits items (cs.take n) with
      | some n => cs.drop n
      | none => cs
  Text.Lossy.text (kept.map fun c => UInt8.ofNat c.toNat)

end Pattern

end Corun.Shell
