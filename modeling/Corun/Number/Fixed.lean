import Corun.Number.Binary64

namespace Corun.Number

/-- The whole number nearest to `n / d`, the even one of two equally near. -/
def roundHalfEven (n d : Nat) : Nat :=
  let q := n / d
  let twice := 2 * (n % d)
  if twice < d then q
  else if d < twice then q + 1
  else if q % 2 = 0 then q else q + 1

def paddedIn (base width n : Nat) : List Char :=
  let ds := Nat.toDigits base n
  List.replicate (width - ds.length) '0' ++ ds

def padded : Nat → Nat → List Char := paddedIn 10

def paddedHex : Nat → Nat → List Char := paddedIn 16

def pointed (places n : Nat) : String :=
  if places = 0 then toString n
  else
    let unit := Nat.pow 10 places
    toString (n / unit) ++ "." ++ String.ofList (padded places (n % unit))

def fixed (places : Nat) (x : Float) : String :=
  match Binary64.ofFloat x with
  | .nan => "NaN"
  | .infinite negative => if negative then "-inf" else "inf"
  | .finite negative m q =>
    let (n, d) := Binary64.ratio m q
    (if negative then "-" else "") ++ pointed places (roundHalfEven (n * Nat.pow 10 places) d)

end Corun.Number
