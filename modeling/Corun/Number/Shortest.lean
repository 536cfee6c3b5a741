import Corun.Number.Binary64

namespace Corun.Number

structure Decimal where
  digits : Nat
  exponent : Int

/-- The least `e` in reach with `n / d < 10 ^ e`, for a quotient that is not zero. -/
def magnitude (n d : Nat) : Int :=
  if d ≤ n then (Nat.toDigits 10 (n / d)).length
  else
    let zeros := ((List.range 400).takeWhile fun j => n * Nat.pow 10 (j + 1) < d).length
    0 - (zeros : Int)

def apart (a b : Nat) : Nat := if a ≤ b then b - a else a - b

def scaled (n d : Nat) (e : Int) : Nat × Nat :=
  if 0 ≤ e then (n, d * Nat.pow 10 e.toNat) else (n * Nat.pow 10 (-e).toNat, d)

/-- The point of the grid of one exponent that reads back as `m * 2 ^ q`, if there is one. The reals
that do lie half a unit around it, less below a power of two, with both ends when `m` is even. -/
def onGrid? (m : Nat) (q : Int) (e : Int) : Option Nat :=
  let below := if m = 1 <<< Binary64.fractionBits && Binary64.leastExponent < q then 1 else 2
  let (n, d) := Binary64.ratio 1 (q - 2)
  let (n, d) := scaled n d e
  let value := 4 * m * n
  let low := (4 * m - below) * n
  let high := (4 * m + 2) * n
  let inside (p : Nat) : Bool :=
    if m % 2 = 0 then low ≤ p * d && p * d ≤ high else low < p * d && p * d < high
  let p := value / d
  match inside p, inside (p + 1) with
  | true, true =>
    let left := apart (p * d) value
    let right := apart ((p + 1) * d) value
    if left < right || (left = right && p % 2 = 0) then some p else some (p + 1)
  | true, false => some p
  | false, true => some (p + 1)
  | false, false => none

def withoutFinalZeros : Nat → Decimal → Decimal
  | 0, x => x
  | fuel + 1, x =>
    if x.digits ≠ 0 && x.digits % 10 = 0 then
      withoutFinalZeros fuel ⟨x.digits / 10, x.exponent + 1⟩
    else x

/-- Seventeen digits always suffice. -/
def shortest (m : Nat) (q : Int) : Decimal :=
  if m = 0 then ⟨0, 0⟩
  else
    let (n, d) := Binary64.ratio m q
    let top := magnitude n d
    let found := (List.range 17).findSome? fun (i : Nat) =>
      let e := top - (i : Int) - 1
      (onGrid? m q e).map fun digits => (⟨digits, e⟩ : Decimal)
    withoutFinalZeros 20 (found.getD ⟨0, 0⟩)

structure Layout where
  /-- Positional from this power of ten of the first digit on. -/
  least : Int
  /-- Positional up to this power of ten of the first digit. -/
  most : Int

namespace Layout

def positional (digits : List Char) (first : Int) : String :=
  if first < 0 then
    "0." ++ String.ofList (List.replicate (-first - 1).toNat '0' ++ digits)
  else
    let whole := first.toNat + 1
    let front := digits.take whole ++ List.replicate (whole - digits.length) '0'
    let back := digits.drop whole
    String.ofList front ++ "." ++ String.ofList (if back.isEmpty then ['0'] else back)

def scientific (digits : List Char) (first : Int) : String :=
  let tail := digits.drop 1
  String.ofList (digits.take 1) ++ (if tail.isEmpty then "" else "." ++ String.ofList tail)
    ++ (if first < 0 then "e-" else "e+") ++ toString first.natAbs

def magnitudeText (layout : Layout) (x : Decimal) : String :=
  let digits := Nat.toDigits 10 x.digits
  let first := x.exponent + digits.length - 1
  if x.digits = 0 then "0.0"
  else if layout.least ≤ first && first ≤ layout.most then positional digits first
  else scientific digits first

def text (layout : Layout) (x : Float) : String :=
  match Binary64.ofFloat x with
  | .nan => "NaN"
  | .infinite negative => if negative then "-inf" else "inf"
  | .finite negative m q =>
    (if negative then "-" else "") ++ layout.magnitudeText (shortest m q)

end Layout

end Corun.Number
