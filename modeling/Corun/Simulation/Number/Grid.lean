import Corun.Number.Binary64
import Corun.Number.Fixed

namespace Corun.Number

/-- Which numbers there are: so many bits, the weight of the last bit of the smallest ones, and the
power of two that all are below. -/
structure Grid where
  bits : Nat
  least : Int
  limit : Int

namespace Grid

def double : Grid := ⟨53, -1074, 1024⟩

def extended : Grid := ⟨64, -16445, 16384⟩

def magnitude (n d : Nat) : Int :=
  let e : Int := (n.log2 : Int) - (d.log2 : Int)
  let (a, b) := Binary64.ratio d e
  if n * b < a then e - 1 else e

/-- The point for a quotient, and whether it is as good as one of the size of the quotient can be.
There is none for what is too great. -/
def point? (g : Grid) (n d : Nat) : Option ((Nat × Nat) × Bool) :=
  if n = 0 then some ((0, 1), true)
  else
    let free := magnitude n d - g.bits + 1
    let weight := max g.least free
    let (a, b) := Binary64.ratio d weight
    let m := roundHalfEven (n * b) a
    if g.limit ≤ (m.log2 : Int) + weight then none
    else some (Binary64.ratio m weight, weight = free || n * b = m * a)

end Grid

end Corun.Number
