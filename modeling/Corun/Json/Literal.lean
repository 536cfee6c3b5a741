import Corun.Json.Fault

namespace Corun.Json

def isSpace (c : Char) : Bool := c = ' ' || c = '\t' || c = '\n' || c = '\r'

def skipSpace (cs : List Char) : List Char := cs.dropWhile isSpace

def word : List Char → List Char → Except Fault (List Char)
  | [], cs => .ok cs
  | _ :: _, [] => .error (.ended .value)
  | w :: ws, c :: cs => if c = w then word ws cs else .error .expectedWord

namespace Number

def bound : Nat := UInt64.size

def digitValue (c : Char) : Nat := c.toNat - '0'.toNat

/-- Appends digits while the number stays below the bound, and counts those taken. -/
def append : Nat → List Char → Nat × Nat
  | n, [] => (n, 0)
  | n, c :: cs =>
    let next := n * 10 + digitValue c
    if next < bound then
      let (m, taken) := append next cs
      (m, taken + 1)
    else (n, 0)

def power (e : Nat) : Float := Float.ofScientific 1 false e

def greatestPower : Nat := 308

/-- `x * 10 ^ e`, by one multiplication or division where one power of ten does, else by repeated
division. It is out of range when it would be infinite. -/
def scale (x : Float) (e : Int) : Except Fault Float :=
  if e.natAbs ≤ greatestPower then
    if 0 ≤ e then
      let y := x * power e.natAbs
      if y.isInf then .error .numberOutOfRange else .ok y
    else .ok (x / power e.natAbs)
  else if x == 0 then .ok x
  else if 0 ≤ e then .error .numberOutOfRange
  else scale (x / power greatestPower) (e + greatestPower)
termination_by e.natAbs
decreasing_by
  simp only [greatestPower] at *
  omega

def ofDecimal (negative : Bool) (significand : Nat) (e : Int) : Except Fault Number := do
  let x ← scale (Corun.Number.floatOfNat significand) e
  return .real (if negative then -x else x)

/-- A number without point and exponent: whole if it fits, with negative zero as a double. -/
def whole (negative : Bool) (n : Nat) : Number :=
  if !negative then .integer n
  else if 0 < n && n ≤ UInt64.size / 2 then .integer (-n)
  else .real (-(Corun.Number.floatOfNat n))

def exponentBound : Nat := UInt32.size / 2

def exponent (negative : Bool) (significand : Nat) (e : Int) (cs : List Char) :
    Except Fault (Number × List Char) :=
  let (down, cs) := match cs with
    | '+' :: cs => (false, cs)
    | '-' :: cs => (true, cs)
    | cs => (false, cs)
  match cs with
  | [] => .error (.ended .value)
  | c :: _ =>
    if c.isDigit then
      let power := (cs.takeWhile Char.isDigit).foldl (fun n d => n * 10 + digitValue d) 0
      let rest := cs.dropWhile Char.isDigit
      if exponentBound ≤ power then
        if significand ≠ 0 && !down then .error .numberOutOfRange
        else .ok (.real (if negative then -0.0 else 0.0), rest)
      else do
        let x ← ofDecimal negative significand (if down then e - power else e + power)
        return (x, rest)
    else .error .invalidNumber

def isExponentMark (c : Char) : Bool := c = 'e' || c = 'E'

/-- What follows the whole part of a number, `dropped` digits of which did not fit. -/
def fraction (negative : Bool) (significand dropped : Nat) (cs : List Char) :
    Except Fault (Number × List Char) :=
  match cs with
  | '.' :: cs =>
    let digits := cs.takeWhile Char.isDigit
    let rest := cs.dropWhile Char.isDigit
    let (significand, taken) := append significand digits
    let e : Int := (dropped : Int) - (taken : Int)
    match digits, rest with
    | [], [] => .error (.ended .value)
    | [], _ :: _ => .error .invalidNumber
    | _ :: _, c :: cs =>
      if isExponentMark c then exponent negative significand e cs
      else (ofDecimal negative significand e).map (·, c :: cs)
    | _ :: _, [] => (ofDecimal negative significand e).map (·, [])
  | c :: cs =>
    if isExponentMark c then exponent negative significand dropped cs
    else (plain).map (·, c :: cs)
  | [] => (plain).map (·, [])
where
  plain : Except Fault Number :=
    if dropped = 0 then .ok (whole negative significand) else ofDecimal negative significand dropped

def unsigned (negative : Bool) (cs : List Char) : Except Fault (Number × List Char) :=
  match cs with
  | [] => .error (.ended .value)
  | '0' :: cs =>
    if (cs.head?.map Char.isDigit).getD false then .error .invalidNumber
    else fraction negative 0 0 cs
  | c :: _ =>
    if c.isDigit then
      let digits := cs.takeWhile Char.isDigit
      let (significand, taken) := append 0 digits
      fraction negative significand (digits.length - taken) (cs.dropWhile Char.isDigit)
    else .error .invalidNumber

end Number

namespace Quoted

def hexValue? (c : Char) : Option Nat :=
  if '0' ≤ c && c ≤ '9' then some (c.toNat - '0'.toNat)
  else if 'a' ≤ c && c ≤ 'f' then some (c.toNat - 'a'.toNat + 10)
  else if 'A' ≤ c && c ≤ 'F' then some (c.toNat - 'A'.toNat + 10)
  else none

/-- Four digits of an escape. Fewer than four bytes of text end the string too early. -/
def hex4 (cs : List Char) : Except Fault (Nat × List Char) :=
  if (String.ofList (cs.take 4)).utf8ByteSize < 4 then .error (.ended .string)
  else
    match (cs.take 4).mapM hexValue? with
    | some [a, b, c, d] => .ok (((a * 16 + b) * 16 + c) * 16 + d, cs.drop 4)
    | _ => .error .invalidEscape

def lowSurrogate (high : Nat) (cs : List Char) : Except Fault (Char × List Char) :=
  match cs with
  | [] => .error (.ended .string)
  | '\\' :: [] => .error (.ended .string)
  | '\\' :: 'u' :: cs => do
    let (low, rest) ← hex4 cs
    if low < 0xDC00 || 0xDFFF < low then .error .loneSurrogate
    else .ok (Char.ofNat (0x10000 + (high - 0xD800) * 0x400 + (low - 0xDC00)), rest)
  | _ => .error .unfinishedSurrogates

def escape (cs : List Char) : Except Fault (Char × List Char) :=
  match cs with
  | [] => .error (.ended .string)
  | '"' :: cs => .ok ('"', cs)
  | '\\' :: cs => .ok ('\\', cs)
  | '/' :: cs => .ok ('/', cs)
  | 'b' :: cs => .ok ('\x08', cs)
  | 'f' :: cs => .ok ('\x0c', cs)
  | 'n' :: cs => .ok ('\n', cs)
  | 'r' :: cs => .ok ('\r', cs)
  | 't' :: cs => .ok ('\t', cs)
  | 'u' :: cs => do
    let (n, rest) ← hex4 cs
    if 0xDC00 ≤ n && n ≤ 0xDFFF then .error .loneSurrogate
    else if 0xD800 ≤ n && n ≤ 0xDBFF then lowSurrogate n rest
    else .ok (Char.ofNat n, rest)
  | _ => .error .invalidEscape

/-- A string after its opening quote. Each step takes at least one character, so that the length of
the text is enough fuel. -/
def body : Nat → List Char → Except Fault (List Char × List Char)
  | 0, _ => .error (.ended .string)
  | _ + 1, [] => .error (.ended .string)
  | _ + 1, '"' :: cs => .ok ([], cs)
  | fuel + 1, '\\' :: cs => do
    let (c, rest) ← escape cs
    let (s, rest) ← body fuel rest
    return (c :: s, rest)
  | fuel + 1, c :: cs =>
    if c.toNat < 0x20 then .error .controlCharacter
    else do
      let (s, rest) ← body fuel cs
      return (c :: s, rest)

def read (cs : List Char) : Except Fault (String × List Char) := do
  let (s, rest) ← body (cs.length + 1) cs
  return (String.ofList s, rest)

end Quoted

end Corun.Json
