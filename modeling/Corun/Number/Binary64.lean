namespace Corun.Number

inductive Binary64 where
  | nan
  | infinite (negative : Bool)
  /-- The number `m * 2 ^ q`, with the sign apart so that both zeros are told. -/
  | finite (negative : Bool) (m : Nat) (q : Int)

namespace Binary64

def fractionBits : Nat := 52

/-- The weight of the last bit of the smallest doubles. -/
def leastExponent : Int := -1074

def ofBits (bits : Nat) : Binary64 :=
  let negative := bits.testBit 63
  let exponent : Nat := (bits >>> fractionBits) % 2048
  let fraction := bits % (1 <<< fractionBits)
  if exponent = 2047 then
    if fraction = 0 then .infinite negative else .nan
  else if exponent = 0 then .finite negative fraction leastExponent
  else .finite negative (1 <<< fractionBits + fraction) (leastExponent + (exponent : Int) - 1)

def ofFloat (x : Float) : Binary64 := ofBits x.toBits.toNat

def ratio (m : Nat) (q : Int) : Nat × Nat :=
  if 0 ≤ q then (m <<< q.toNat, 1) else (m, 1 <<< (-q).toNat)

end Binary64

def floatOfNat (n : Nat) : Float := (UInt64.ofNat n).toFloat

end Corun.Number
