import Corun.Simulation.Number.Grid
import Corun.Simulation.Number.Scientific
import Corun.Simulation.Number.Written
import Corun.Simulation.Shell.Escape
import Corun.Simulation.Shell.Sum

namespace Corun.Shell.Printf

structure Conversion where
  flags : List Char
  width : Nat
  precision : Option Nat
  kind : Char
  isWild : Bool

structure Output where
  bytes : List UInt8 := []
  failed : Bool := false
  stops : Bool := false
  isBroken : Bool := false

def isFlag (c : Char) : Bool := ['-', '+', ' ', '#', '0'].contains c

def digitsValue (cs : List Char) : Nat := cs.foldl (fun n c => n * 10 + (c.toNat - '0'.toNat)) 0

def realKinds : List Char := ['e', 'E', 'f', 'F', 'g', 'G']

def kinds : List Char := ['s', 'b', 'c', 'd', 'i', 'u', 'o', 'x', 'X'] ++ realKinds

/-- A conversion from after the percent sign, with the arguments that give its width and precision. -/
def conversion (cs : List Char) (args : List String) :
    Option (Conversion × List Char × List String) :=
  let flags := cs.takeWhile isFlag
  let cs := cs.drop flags.length
  let taken (args : List String) : Int := (Sum.ofValue? (args.headD "")).getD 0
  let isWrong (args : List String) : Bool := (Sum.ofValue? (args.headD "")).isNone
  let isWild := match cs with
    | '*' :: '.' :: '*' :: _ => isWrong args || isWrong (args.drop 1)
    | '*' :: _ => isWrong args
    | cs => match cs.dropWhile Char.isDigit with
      | '.' :: '*' :: _ => isWrong args
      | _ => false
  let (flags, width, cs, args) := match cs with
    | '*' :: cs =>
      let n := taken args
      (if n < 0 then '-' :: flags else flags, n.natAbs, cs, args.drop 1)
    | cs =>
      let digits := cs.takeWhile Char.isDigit
      (flags, digitsValue digits, cs.drop digits.length, args)
  let (precision, cs, args) := match cs with
    | '.' :: '*' :: cs => (some (taken args).toNat, cs, args.drop 1)
    | '.' :: cs =>
      let digits := cs.takeWhile Char.isDigit
      (some (digitsValue digits), cs.drop digits.length, args)
    | cs => (none, cs, args)
  match cs with
  | kind :: cs => if kinds.contains kind then some (⟨flags, width, precision, kind, isWild⟩, cs, args)
    else none
  | [] => none

def pad (c : Conversion) (bytes : List UInt8) : List UInt8 :=
  let fill := List.replicate (c.width - bytes.length) 32
  if c.flags.contains '-' then bytes ++ fill else fill ++ bytes

/-- A number may be given by a byte behind a quotation mark. -/
def byteValue (cs : List Char) : Nat := ((bytesOf (String.ofList cs)).headD 0).toNat

def numberOf (arg : String) : Int × Bool :=
  match arg.toList with
  | '\'' :: cs | '"' :: cs => (byteValue cs, true)
  | _ =>
    match Sum.ofValue? arg with
    | some n => (n, true)
    | none =>
      let cs := arg.toList.dropWhile (· = ' ')
      let (isNegative, cs) := match cs with
        | '-' :: cs => (true, cs)
        | '+' :: cs => (false, cs)
        | cs => (false, cs)
      let (n, _) := Sum.takeNumber cs
      (if isNegative then -(n : Int) else n, false)

def inBase (base : Nat) (upper : Bool) (n : Nat) : List Char :=
  (Nat.toDigits base n).map fun c => if upper then c.toUpper else c

def signOf (c : Conversion) (isNegative : Bool) : List Char :=
  if isNegative then ['-']
  else if c.flags.contains '+' then ['+']
  else if c.flags.contains ' ' then [' ']
  else []

/-- Fills up to a width, with zeros behind the lead if these are wanted. -/
def padNumber (c : Conversion) (allowsZeros : Bool) (lead digits : List Char) : List UInt8 :=
  let zeros :=
    if allowsZeros ∧ c.flags.contains '0' ∧ !c.flags.contains '-' then
      List.replicate (c.width - lead.length - digits.length) '0'
    else []
  pad c (bytesOf (String.ofList (lead ++ zeros ++ digits)))

def showNumber (c : Conversion) (n : Int) : List UInt8 :=
  let isSigned := c.kind = 'd' || c.kind = 'i'
  let size := if isSigned then n.natAbs else Sum.bits n
  let digits := match c.kind with
    | 'o' => inBase 8 false size
    | 'x' => inBase 16 false size
    | 'X' => inBase 16 true size
    | _ => inBase 10 false size
  let digits := List.replicate (c.precision.getD 1 - digits.length) '0' ++ digits
  let lead :=
    if isSigned then signOf c (n < 0)
    else if c.flags.contains '#' ∧ size ≠ 0 then
      match c.kind with
      | 'x' => ['0', 'x']
      | 'X' => ['0', 'X']
      | 'o' => ['0']
      | _ => []
    else []
  padNumber c (c.precision = none) lead digits

/-- Programs count more finely. -/
def gridOf : Escape.Dialect → Number.Grid
  | .builtin => .double
  | .program => .extended

open Number in
def realOf (g : Grid) (arg : String) : Written.Signed × Bool :=
  let finite (n : Nat) : Written.Size := .finite ⟨n, 10, 0⟩
  match arg.toList with
  | [] => (⟨false, finite 0⟩, true)
  | '\'' :: cs | '"' :: cs => (⟨false, finite (byteValue cs)⟩, true)
  | cs =>
    match Written.signed? cs with
    | none => (⟨false, finite 0⟩, false)
    | some (x, rest) =>
      let isGood := match x.size with
        | .finite s => (g.point? s.ratio.1 s.ratio.2).any Prod.snd
        | _ => true
      (x, rest.isEmpty && isGood)

open Number in
def showReal (g : Grid) (c : Conversion) (x : Written.Signed) : List UInt8 :=
  let digits := c.precision.getD 6
  let isWide := c.flags.contains '#'
  let finite (n d : Nat) : String := match c.kind.toLower with
    | 'e' => scientific isWide digits n d
    | 'g' => general isWide digits n d
    | _ => positional isWide digits n d
  let text := match x.size with
    | .none => "nan"
    | .infinite => "inf"
    | .finite s => match g.point? s.ratio.1 s.ratio.2 with
      | some ((n, d), _) => finite n d
      | none => "inf"
  let text := if c.kind.isUpper then text.toUpper else text
  padNumber c (text.toList.any Char.isDigit) (signOf c x.isNegative) text.toList

def limited (c : Conversion) (bytes : List UInt8) : List UInt8 :=
  match c.precision with
  | some n => bytes.take n
  | none => bytes

def convert (d : Escape.Dialect) (c : Conversion) (arg : Option String) (o : Output) : Output :=
  let text := arg.getD ""
  match c.kind with
  | 's' => { o with bytes := o.bytes ++ pad c (limited c (bytesOf text)) }
  | 'c' => { o with bytes := o.bytes ++ pad c [(bytesOf text).headD 0] }
  | 'b' =>
    let w := Escape.replaced d text
    { o with bytes := o.bytes ++ pad c (limited c w.bytes), stops := w.stops }
  | kind =>
    let (bytes, isNumber) :=
      if realKinds.contains kind then
        let (x, isNumber) := realOf (gridOf d) text
        (showReal (gridOf d) c x, isNumber)
      else
        let (n, isNumber) := (arg.map numberOf).getD (0, true)
        (showNumber c n, isNumber)
    { o with bytes := o.bytes ++ bytes, failed := o.failed || !isNumber }

/-- Goes through the format once. A format that makes no sense spoils everything after it. -/
def once (d : Escape.Dialect) : Nat → List Char → List String → Output → List String × Output
  | 0, _, args, o => (args, o)
  | _ + 1, [], args, o => (args, o)
  | fuel + 1, c :: cs, args, o =>
    if o.stops then ([], o)
    else match c, cs with
      | '%', '%' :: cs => once d fuel cs args { o with bytes := o.bytes ++ [37] }
      | '%', cs =>
        match conversion cs args with
        | some (c, cs, args) =>
          once d fuel cs (args.drop 1) (convert d c args.head? { o with failed := o.failed || c.isWild })
        | none => ([], { o with stops := true, isBroken := true })
      | '\\', 'c' :: cs =>
        if d = .program then ([], { o with stops := true })
        else once d fuel cs args { o with bytes := o.bytes ++ [92, 99] }
      | '\\', cs =>
        match Escape.byte? d false cs with
        | some (b, cs) => once d fuel cs args { o with bytes := o.bytes ++ [b] }
        | none => once d fuel cs args { o with bytes := o.bytes ++ [92] }
      | c, cs => once d fuel cs args { o with bytes := o.bytes ++ bytesOf c.toString }

def again (d : Escape.Dialect) (format : List Char) : Nat → List String → Output → Output
  | 0, _, o => o
  | rounds + 1, args, o =>
    let (rest, o) := once d (format.length + 1) format args o
    if rest.isEmpty ∨ o.stops ∨ rest.length = args.length then o else again d format rounds rest o

def misuse : Escape.Dialect → Nat
  | .builtin => 2
  | .program => 1

def run (d : Escape.Dialect) (args : List String) : List UInt8 × Nat :=
  match if args.head? = some "--" then args.drop 1 else args with
  | [] => ([], misuse d)
  | format :: operands =>
    if d = .builtin ∧ args.head? = some format ∧ format.startsWith "-" ∧ format ≠ "-" then
      ([], misuse d)
    else
      let o := again d format.toList (operands.length + 1) operands {}
      (o.bytes, if o.isBroken then misuse d else if o.failed then 1 else 0)

end Corun.Shell.Printf
