import Corun.Number.Fixed
import Corun.Number.Shortest

namespace Corun.Number

/-- So many decimal places behind the first digit, and the power of ten of that digit. -/
def leading (places n d : Nat) : Nat × Int :=
  if n = 0 then (0, 0)
  else
    let first := magnitude n d - 1
    let (n, d) := scaled n d (first - places)
    let m := roundHalfEven n d
    if Nat.pow 10 (places + 1) ≤ m then (m / 10, first + 1) else (m, first)

/-- Digits with a point before the last ones; without any behind it only if it is wanted then. -/
def withPoint (keepsPoint : Bool) (places n : Nat) : String :=
  if places = 0 ∧ keepsPoint then toString n ++ "." else pointed places n

def withPower (text : String) (power : Int) : String :=
  text ++ (if power < 0 then "e-" else "e+") ++ String.ofList (padded 2 power.natAbs)

def scientific (keepsPoint : Bool) (places n d : Nat) : String :=
  let (m, first) := leading places n d
  withPower (withPoint keepsPoint places m) first

def positional (keepsPoint : Bool) (places n d : Nat) : String :=
  withPoint keepsPoint places (roundHalfEven (n * Nat.pow 10 places) d)

def withoutZeros (text : String) : String :=
  if text.contains '.' then
    let cs := text.toList.reverse.dropWhile (· = '0')
    String.ofList (if cs.head? = some '.' then cs.drop 1 else cs).reverse
  else text

/-- So many digits, positional unless the power of ten is small or too great for them. -/
def general (keepsZeros : Bool) (digits n d : Nat) : String :=
  let digits := max digits 1
  let (m, first) := leading (digits - 1) n d
  let trimmed (text : String) : String := if keepsZeros then text else withoutZeros text
  if -4 ≤ first && first < digits then
    trimmed (positional keepsZeros (digits - 1 - first).toNat n d)
  else withPower (trimmed (withPoint keepsZeros (digits - 1) m)) first

end Corun.Number
