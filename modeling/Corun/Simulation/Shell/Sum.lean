namespace Corun.Shell

inductive Sum where
  | number (n : Int)
  | named (name : String)
  | unary (op : Char) (a : Sum)
  | binary (op : String) (a b : Sum)
  | choice (condition yes no : Sum)
  /-- Gives a variable a value, perhaps one made of its old value with an operator. -/
  | assignment (name : String) (op : Option String) (value : Sum)

namespace Sum

inductive Token where
  | number (n : Int)
  | name (text : String)
  | operator (text : String)

def size : Nat := 18446744073709551616

def wrap (n : Int) : Int := n.bmod size

def greatest : Int := 9223372036854775807
def least : Int := -9223372036854775808

def clamp (n : Int) : Int := max least (min greatest n)

def digitValue? (base : Nat) (c : Char) : Option Nat :=
  let n :=
    if c.isDigit then c.toNat - '0'.toNat
    else if 'a' ≤ c ∧ c ≤ 'z' then c.toNat - 'a'.toNat + 10
    else if 'A' ≤ c ∧ c ≤ 'Z' then c.toNat - 'A'.toNat + 10
    else base
  if n < base then some n else none

def takeDigits (base : Nat) (value : Nat) : List Char → Nat × List Char
  | [] => (value, [])
  | c :: cs =>
    match digitValue? base c with
    | some d => takeDigits base (value * base + d) cs
    | none => (value, c :: cs)

/-- A number as it is written: with `0x` in front in base sixteen, with `0` in base eight. -/
def takeNumber (cs : List Char) : Nat × List Char :=
  match cs with
  | '0' :: 'x' :: c :: rest | '0' :: 'X' :: c :: rest =>
    if (digitValue? 16 c).isSome then takeDigits 16 0 (c :: rest) else (0, cs.drop 1)
  | '0' :: rest => takeDigits 8 0 rest
  | cs => takeDigits 10 0 cs

def isBlank (c : Char) : Bool := c = ' ' || c = '\t' || c = '\n'

def ofValue? (text : String) : Option Int :=
  let isSpace (c : Char) : Bool := c = ' ' || (9 ≤ c.toNat && c.toNat ≤ 13)
  let cs := text.toList.dropWhile isSpace
  let (isNegative, cs) := match cs with
    | '-' :: cs => (true, cs)
    | '+' :: cs => (false, cs)
    | cs => (false, cs)
  match cs with
  | [] => if text = "" then some 0 else none
  | c :: _ =>
    if !c.isDigit then none
    else
      let (n, rest) := takeNumber cs
      if (rest.dropWhile isSpace).isEmpty then
        some (clamp (if isNegative then -(n : Int) else n))
      else none

def ofVariable? (text : String) : Option Int :=
  if text.toList.all isBlank then some 0 else ofValue? text

def operators : List String :=
  ["<<=", ">>=", "<<", ">>", "<=", ">=", "==", "!=", "&&", "||", "+=", "-=", "*=", "/=", "%=", "&=",
   "^=", "|=", "=", "+", "-", "*", "/", "%", "<", ">", "!", "~", "&", "^", "|", "?", ":", "(", ")"]

def isNameChar (c : Char) : Bool := c.isAlphanum || c = '_'

def tokens : Nat → List Char → Option (List Token)
  | 0, _ => none
  | _ + 1, [] => some []
  | fuel + 1, c :: cs =>
    if isBlank c then tokens fuel cs
    else if c.isDigit then
      let (n, rest) := takeNumber (c :: cs)
      (tokens fuel rest).map (.number (clamp n) :: ·)
    else if c.isAlpha ∨ c = '_' then
      let name := (c :: cs).takeWhile isNameChar
      (tokens fuel ((c :: cs).drop name.length)).map (.name (String.ofList name) :: ·)
    else
      match operators.find? fun o => o.toList.isPrefixOf (c :: cs) with
      | some o => (tokens fuel ((c :: cs).drop o.length)).map (.operator o :: ·)
      | none => none

def levels : List (List String) :=
  [["*", "/", "%"], ["+", "-"], ["<<", ">>"], ["<", "<=", ">", ">="], ["==", "!="], ["&"], ["^"],
   ["|"], ["&&"], ["||"]]

def assigning : List (String × Option String) :=
  [("=", none), ("*=", some "*"), ("/=", some "/"), ("%=", some "%"), ("+=", some "+"),
   ("-=", some "-"), ("<<=", some "<<"), (">>=", some ">>"), ("&=", some "&"), ("^=", some "^"),
   ("|=", some "|")]

mutual

def whole : Nat → List Token → Option (Sum × List Token)
  | 0, _ => none
  | fuel + 1, ts =>
    match ts with
    | .name name :: .operator o :: rest =>
      match assigning.lookup o with
      | some op => (whole fuel rest).map fun (value, rest) => (.assignment name op value, rest)
      | none => chosen fuel ts
    | ts => chosen fuel ts

def chosen : Nat → List Token → Option (Sum × List Token)
  | 0, _ => none
  | fuel + 1, ts => do
    let (condition, ts) ← level fuel levels.length ts
    match ts with
    | .operator "?" :: ts =>
      let (yes, ts) ← whole fuel ts
      match ts with
      | .operator ":" :: ts =>
        let (no, ts) ← chosen fuel ts
        return (.choice condition yes no, ts)
      | _ => none
    | ts => return (condition, ts)

/-- What has only operators of the lowest levels in it, as far as there are no parentheses. -/
def level : Nat → Nat → List Token → Option (Sum × List Token)
  | 0, _, _ => none
  | fuel + 1, 0, ts => single fuel ts
  | fuel + 1, n + 1, ts => do
    let (a, ts) ← level fuel n ts
    levelRest fuel n a ts

def levelRest : Nat → Nat → Sum → List Token → Option (Sum × List Token)
  | 0, _, _, _ => none
  | fuel + 1, n, a, ts =>
    match ts with
    | .operator o :: rest =>
      if ((levels[n]?).getD []).contains o then do
        let (b, rest) ← level fuel n rest
        levelRest fuel n (.binary o a b) rest
      else some (a, ts)
    | ts => some (a, ts)

def single : Nat → List Token → Option (Sum × List Token)
  | 0, _ => none
  | fuel + 1, ts =>
    match ts with
    | .number n :: ts => some (.number n, ts)
    | .name name :: ts => some (.named name, ts)
    | .operator "(" :: ts => do
      let (a, ts) ← whole fuel ts
      match ts with
      | .operator ")" :: ts => return (a, ts)
      | _ => none
    | .operator o :: ts =>
      match o.toList with
      | [c] =>
        if ['+', '-', '!', '~'].contains c then
          (single fuel ts).map fun (a, ts) => (.unary c a, ts)
        else none
      | _ => none
    | [] => none

end

def parse (text : String) : Option Sum := do
  let cs := text.toList
  let ts ← tokens (cs.length + 1) cs
  match ← whole (32 * (ts.length + 1)) ts with
  | (a, []) => return a
  | _ => none

def truth (b : Bool) : Int := if b then 1 else 0

def bits (n : Int) : Nat := (n % (size : Int)).toNat

def shift (n : Int) : Nat := bits n % 64

def apply (op : String) (a b : Int) : Option Int :=
  match op with
  | "+" => some (wrap (a + b))
  | "-" => some (wrap (a - b))
  | "*" => some (wrap (a * b))
  | "/" => if b = 0 then none else some (wrap (a.tdiv b))
  | "%" => if b = 0 then none else some (wrap (a.tmod b))
  | "<<" => some (wrap (a * (1 <<< shift b : Nat)))
  | ">>" => some (a.fdiv (1 <<< shift b : Nat))
  | "<" => some (truth (a < b))
  | "<=" => some (truth (a ≤ b))
  | ">" => some (truth (b < a))
  | ">=" => some (truth (b ≤ a))
  | "==" => some (truth (a = b))
  | "!=" => some (truth (a ≠ b))
  | "&" => some (wrap (bits a &&& bits b : Nat))
  | "^" => some (wrap (bits a ^^^ bits b : Nat))
  | "|" => some (wrap (bits a ||| bits b : Nat))
  | _ => none

/-- The value of a sum. Variables are read and given values through a state. -/
def eval (get : σ → String → Option Int) (set : σ → String → Int → Option σ) (s : σ) :
    Sum → Option (Int × σ)
  | number n => some (n, s)
  | named name => (get s name).map (·, s)
  | unary op a => do
    let (n, s) ← eval get set s a
    return (match op with
      | '-' => wrap (-n)
      | '!' => truth (n = 0)
      | '~' => wrap (-n - 1)
      | _ => n, s)
  | binary op a b => do
    let (m, s) ← eval get set s a
    if op = "&&" ∧ m = 0 then return (0, s)
    if op = "||" ∧ m ≠ 0 then return (1, s)
    let (n, s) ← eval get set s b
    if op = "&&" ∨ op = "||" then return (truth (n ≠ 0), s)
    return (← apply op m n, s)
  | choice condition yes no => do
    let (n, s) ← eval get set s condition
    if n ≠ 0 then eval get set s yes else eval get set s no
  | assignment name op value => do
    let (n, s) ← eval get set s value
    let n ← match op with
      | none => some n
      | some op => do apply op (← get s name) n
    return (n, ← set s name n)

end Sum

end Corun.Shell
