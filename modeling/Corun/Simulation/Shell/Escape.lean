namespace Corun.Shell

/-- Bytes, and whether writing stops with them. -/
structure Written where
  bytes : List UInt8
  stops : Bool := false

def bytesOf (text : String) : List UInt8 := text.toUTF8.toList

namespace Escape

inductive Dialect where
  | builtin
  | program
deriving DecidableEq

def letters : List (Char × UInt8) :=
  [('a', 7), ('b', 8), ('e', 27), ('f', 12), ('n', 10), ('r', 13), ('t', 9), ('v', 11), ('\\', 92)]

def digit? (base : Nat) (c : Char) : Option Nat :=
  let n :=
    if c.isDigit then c.toNat - '0'.toNat
    else if 'a' ≤ c ∧ c ≤ 'f' then c.toNat - 'a'.toNat + 10
    else if 'A' ≤ c ∧ c ≤ 'F' then c.toNat - 'A'.toNat + 10
    else base
  if n < base then some n else none

def number (base : Nat) : Nat → Nat → List Char → Nat × List Char
  | 0, n, cs => (n, cs)
  | _ + 1, n, [] => (n, [])
  | most + 1, n, c :: cs =>
    match digit? base c with
    | some d => number base most (n * base + d) cs
    | none => (n, c :: cs)

/-- The byte that stands behind a backslash, and what comes after. A zero may go before three digits. -/
def byte? (d : Dialect) (takesZero : Bool) : List Char → Option (UInt8 × List Char)
  | [] => none
  | c :: cs =>
    match letters.lookup c with
    | some b => some (b, cs)
    | none =>
      if c = '0' ∧ takesZero then
        let (n, cs) := number 8 3 0 cs
        some (UInt8.ofNat n, cs)
      else if (digit? 8 c).isSome then
        let (n, cs) := number 8 3 0 (c :: cs)
        some (UInt8.ofNat n, cs)
      else if c = 'x' ∧ d = .program then
        match cs with
        | x :: _ =>
          if (digit? 16 x).isSome then
            let (n, cs) := number 16 2 0 cs
            some (UInt8.ofNat n, cs)
          else none
        | [] => none
      else none

/-- Replaces escapes. One of them stops everything. -/
def replace (d : Dialect) : Nat → List Char → Written
  | 0, _ => ⟨[], false⟩
  | _ + 1, [] => ⟨[], false⟩
  | _ + 1, '\\' :: 'c' :: _ => ⟨[], true⟩
  | fuel + 1, '\\' :: cs =>
    match byte? d true cs with
    | some (b, cs) =>
      let w := replace d fuel cs
      { w with bytes := b :: w.bytes }
    | none =>
      let w := replace d fuel cs
      { w with bytes := 92 :: w.bytes }
  | fuel + 1, c :: cs =>
    let w := replace d fuel cs
    { w with bytes := bytesOf c.toString ++ w.bytes }

def replaced (d : Dialect) (text : String) : Written := replace d (text.length + 1) text.toList

end Escape

namespace Echo

def line : UInt8 := 10

/-- What the echo of the shell writes. Escapes are always replaced, and there is one option. -/
def builtin (args : List String) : List UInt8 :=
  let (endsLine, args) := match args with
    | "-n" :: args => (false, args)
    | args => (true, args)
  let w := Escape.replaced .builtin (" ".intercalate args)
  if w.stops || !endsLine then w.bytes else w.bytes ++ [line]

structure Style where
  endsLine : Bool := true
  replacesEscapes : Bool := false

def Style.apply (s : Style) (c : Char) : Style :=
  if c = 'n' then { s with endsLine := false } else { s with replacesEscapes := c = 'e' }

def option? (text : String) : Option (List Char) :=
  match text.toList with
  | '-' :: c :: cs =>
    if (c :: cs).all fun d => d = 'n' || d = 'e' || d = 'E' then some (c :: cs) else none
  | _ => none

def program (style : Style) : List String → List UInt8
  | [] => if style.endsLine then [line] else []
  | a :: more =>
    match option? a with
    | some letters => program (letters.foldl Style.apply style) more
    | none =>
      let text := " ".intercalate (a :: more)
      let w := if style.replacesEscapes then Escape.replaced .program text else ⟨bytesOf text, false⟩
      if w.stops || !style.endsLine then w.bytes else w.bytes ++ [line]

end Echo

end Corun.Shell
