import Corun.Json.Doc
import Corun.Json.Literal

namespace Corun.Json.Reader

/-- What was read, and the text after it unless reading had to stop. -/
structure Read (α : Type) where
  value : α
  rest : Option (List Char)

def leaf (opening : Opening) : Except Fault (Doc × List Char) → Read Doc
  | .ok (d, rest) => ⟨d, some rest⟩
  | .error f => ⟨.broken opening f, none⟩

def wordLeaf (d : Doc) (letters : List Char) (cs : List Char) : Read Doc :=
  leaf .word ((word letters cs).map (d, ·))

def numberLeaf (negative : Bool) (cs : List Char) : Read Doc :=
  leaf .digit ((Number.unsigned negative cs).map fun (n, rest) => (.number n, rest))

def stringLeaf (cs : List Char) : Read Doc :=
  leaf .quote ((Quoted.read cs).map fun (s, rest) => (.string s, rest))

mutual

def value : Nat → List Char → Read Doc
  | 0, _ => ⟨.broken .other .expectedValue, none⟩
  | fuel + 1, cs =>
    match skipSpace cs with
    | [] => ⟨.broken .other (.ended .value), none⟩
    | 'n' :: cs => wordLeaf .null ['u', 'l', 'l'] cs
    | 't' :: cs => wordLeaf (.bool true) ['r', 'u', 'e'] cs
    | 'f' :: cs => wordLeaf (.bool false) ['a', 'l', 's', 'e'] cs
    | '-' :: cs => numberLeaf true cs
    | '"' :: cs => stringLeaf cs
    | '[' :: cs =>
      let r := items fuel true cs
      ⟨.array r.value.1 r.value.2, r.rest⟩
    | '\x7b' :: cs =>
      let r := members fuel true cs
      ⟨.object r.value.1 r.value.2, r.rest⟩
    | c :: cs =>
      if c.isDigit then numberLeaf false (c :: cs)
      else ⟨.broken .other .expectedValue, none⟩

/-- The items of a list from before the first one, or from after one of them. -/
def items : Nat → Bool → List Char → Read (List Doc × Ending)
  | 0, _, _ => ⟨([], .fault .expectedValue), none⟩
  | fuel + 1, first, cs =>
    match skipSpace cs with
    | [] => ⟨([], .fault (.ended .list)), none⟩
    | ']' :: cs => ⟨([], .closed), some cs⟩
    | c :: cs =>
      if first then item fuel (c :: cs)
      else if c = ',' then
        match skipSpace cs with
        | [] => ⟨([], .fault (.ended .value)), none⟩
        | ']' :: _ => ⟨([], .fault .trailingComma), none⟩
        | cs => item fuel cs
      else ⟨([], .fault .expectedListEnd), none⟩

def item : Nat → List Char → Read (List Doc × Ending)
  | 0, _ => ⟨([], .fault .expectedValue), none⟩
  | fuel + 1, cs =>
    let d := value fuel cs
    match d.rest with
    | none => ⟨([d.value], .cut), none⟩
    | some rest =>
      let r := items fuel false rest
      ⟨(d.value :: r.value.1, r.value.2), r.rest⟩

def members : Nat → Bool → List Char → Read (List (String × Doc) × Ending)
  | 0, _, _ => ⟨([], .fault .expectedValue), none⟩
  | fuel + 1, first, cs =>
    match skipSpace cs with
    | [] => ⟨([], .fault (.ended .object)), none⟩
    | '\x7d' :: cs => ⟨([], .closed), some cs⟩
    | c :: cs =>
      if first then
        if c = '"' then member fuel cs
        else ⟨([], .fault .keyNotString), none⟩
      else if c = ',' then
        match skipSpace cs with
        | [] => ⟨([], .fault (.ended .value)), none⟩
        | '\x7d' :: _ => ⟨([], .fault .trailingComma), none⟩
        | '"' :: cs => member fuel cs
        | _ => ⟨([], .fault .keyNotString), none⟩
      else ⟨([], .fault .expectedObjectEnd), none⟩

/-- A member after the quote that opens its key. -/
def member : Nat → List Char → Read (List (String × Doc) × Ending)
  | 0, _ => ⟨([], .fault .expectedValue), none⟩
  | fuel + 1, cs =>
    match Quoted.read cs with
    | .error f => ⟨([], .fault f), none⟩
    | .ok (key, rest) =>
      match skipSpace rest with
      | [] => ⟨([(key, .broken .other (.ended .object))], .cut), none⟩
      | ':' :: cs =>
        let d := value fuel cs
        match d.rest with
        | none => ⟨([(key, d.value)], .cut), none⟩
        | some rest =>
          let r := members fuel false rest
          ⟨((key, d.value) :: r.value.1, r.value.2), r.rest⟩
      | _ => ⟨([(key, .broken .other .expectedColon)], .cut), none⟩

end

def document (text : String) : Read Doc :=
  let cs := text.toList
  value (2 * cs.length + 2) cs

end Corun.Json.Reader
