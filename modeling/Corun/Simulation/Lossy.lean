namespace Corun.Text.Lossy

/-- What a first byte says about those that follow. -/
structure Lead where
  bits : Nat
  count : Nat
  least : Nat := 128
  greatest : Nat := 191

def lead? (b : Nat) : Option Lead :=
  if b < 128 then some { bits := b, count := 0 }
  else if 194 ≤ b ∧ b ≤ 223 then some { bits := b - 192, count := 1 }
  else if 224 ≤ b ∧ b ≤ 239 then
    some { bits := b - 224, count := 2, least := if b = 224 then 160 else 128,
           greatest := if b = 237 then 159 else 191 }
  else if 240 ≤ b ∧ b ≤ 244 then
    some { bits := b - 240, count := 3, least := if b = 240 then 144 else 128,
           greatest := if b = 244 then 143 else 191 }
  else none

def replacement : Char := '\ufffd'

/-- The bytes after the first one as far as they fit, the character if all of them do, and the rest. -/
def follow (least greatest : Nat) : Nat → Nat → List UInt8 → Option Nat × List UInt8
  | 0, bits, bytes => (some bits, bytes)
  | _ + 1, _, [] => (none, [])
  | count + 1, bits, b :: bytes =>
    let n := b.toNat
    if least ≤ n ∧ n ≤ greatest then follow 128 191 count (bits * 64 + (n - 128)) bytes
    else (none, b :: bytes)

def decode : Nat → List UInt8 → List Char
  | 0, _ => []
  | _ + 1, [] => []
  | fuel + 1, b :: bytes =>
    match lead? b.toNat with
    | none => replacement :: decode fuel bytes
    | some lead =>
      match follow lead.least lead.greatest lead.count lead.bits bytes with
      | (some code, rest) => Char.ofNat code :: decode fuel rest
      | (none, rest) => replacement :: decode fuel rest

def text (bytes : List UInt8) : String := String.ofList (decode bytes.length bytes)

end Corun.Text.Lossy
