namespace Corun.Number.Written

structure Scaled where
  digits : Nat
  base : Nat
  exponent : Int

def Scaled.ratio (s : Scaled) : Nat × Nat :=
  if 0 ≤ s.exponent then (s.digits * Nat.pow s.base s.exponent.toNat, 1)
  else (s.digits, Nat.pow s.base s.exponent.natAbs)

def hexDigit? (c : Char) : Option Nat :=
  if c.isDigit then some (c.toNat - '0'.toNat)
  else if 'a' ≤ c ∧ c ≤ 'f' then some (c.toNat - 'a'.toNat + 10)
  else none

def digit? (base : Nat) (c : Char) : Option Nat :=
  (hexDigit? c.toLower).filter (· < base)

def isDigit (base : Nat) (c : Char) : Bool := (digit? base c).isSome

def valueOf (base : Nat) (cs : List Char) : Nat :=
  cs.foldl (fun n c => n * base + (digit? base c).getD 0) 0

/-- Exponents beyond this make no difference. -/
def farExponent : Nat := 100000

def exponent (letter : Char) (cs : List Char) : Int × List Char :=
  match cs with
  | c :: rest =>
    if c.toLower ≠ letter then (0, cs)
    else
      let (isNegative, rest) := match rest with
        | '-' :: rest => (true, rest)
        | '+' :: rest => (false, rest)
        | rest => (false, rest)
      let digits := rest.takeWhile Char.isDigit
      if digits.isEmpty then (0, cs)
      else
        let n : Int := (min farExponent (valueOf 10 (digits.dropWhile (· = '0'))) : Nat)
        (if isNegative then -n else n, rest.drop digits.length)
  | [] => (0, [])

/-- A number in a base, perhaps with a point in it, and what comes after. Behind the point, every
digit is worth a number of steps of the exponent. -/
def scaled? (base scale steps : Nat) (letter : Char) (cs : List Char) :
    Option (Scaled × List Char) :=
  let front := cs.takeWhile (isDigit base)
  let rest := cs.drop front.length
  let (places, rest) := match rest with
    | '.' :: more =>
      let places := more.takeWhile (isDigit base)
      if front.isEmpty ∧ places.isEmpty then ([], rest) else (places, more.drop places.length)
    | rest => ([], rest)
  if front.isEmpty ∧ places.isEmpty then none
  else
    let (e, rest) := exponent letter rest
    some (⟨valueOf base (front ++ places), scale, e - (places.length * steps : Nat)⟩, rest)

def drop? (letters : String) (cs : List Char) : Option (List Char) :=
  let front := cs.take letters.length
  if front.map Char.toLower = letters.toList then some (cs.drop letters.length) else none

inductive Size where
  | finite (s : Scaled)
  | infinite
  | none

structure Signed where
  isNegative : Bool
  size : Size

/-- What comes after parentheses, if these follow and hold nothing but letters and digits. -/
def skipParentheses (cs : List Char) : List Char :=
  match cs with
  | '(' :: more =>
    match more.dropWhile fun c => c.isAlphanum || c = '_' with
    | ')' :: rest => rest
    | _ => cs
  | cs => cs

def size? (cs : List Char) : Option (Size × List Char) :=
  let infinite? := ((drop? "infinity" cs).orElse fun _ => drop? "inf" cs).map (Size.infinite, ·)
  let none? := (drop? "nan" cs).map fun rest => (Size.none, skipParentheses rest)
  let hex? := (drop? "0x" cs).bind (scaled? 16 2 4 'p')
  let finite? := (hex?.orElse fun _ => scaled? 10 10 1 'e' cs).map fun (s, rest) => (Size.finite s, rest)
  (infinite?.orElse fun _ => none?).orElse fun _ => finite?

def isSpace (c : Char) : Bool := c = ' ' || (9 ≤ c.toNat && c.toNat ≤ 13)

/-- A number of any notation behind spaces and a sign, and what comes after. -/
def signed? (cs : List Char) : Option (Signed × List Char) :=
  let (isNegative, cs) := match cs.dropWhile isSpace with
    | '-' :: cs => (true, cs)
    | '+' :: cs => (false, cs)
    | cs => (false, cs)
  (size? cs).map fun (size, rest) => (⟨isNegative, size⟩, rest)

end Corun.Number.Written
