namespace Corun.Program.Reckoning

def number? (text : String) : Option Int :=
  let (isNegative, cs) := match text.toList with
    | '-' :: cs => (true, cs)
    | cs => (false, cs)
  if cs.isEmpty ∨ !cs.all Char.isDigit then none
  else
    let n : Int := (cs.foldl (fun n c => n * 10 + (c.toNat - '0'.toNat)) 0 : Nat)
    some (if isNegative then -n else n)

def isNull (text : String) : Bool := text = "" || number? text = some 0

def truth (b : Bool) : String := if b then "1" else "0"

def compare (op a b : String) : String :=
  let order : Ordering := match number? a, number? b with
    | some m, some n => Ord.compare m n
    | _, _ => Ord.compare a b
  truth (match op with
    | "<" => order.isLT
    | "<=" => order.isLE
    | ">" => order.isGT
    | ">=" => order.isGE
    | "!=" => order.isNe
    | _ => order.isEq)

/-- An operator between two operands; nothing if it makes no sense. -/
def apply (op a b : String) : Option String :=
  match op with
  | "|" => some (if !isNull a then a else if !isNull b then b else "0")
  | "&" => some (if isNull a || isNull b then "0" else a)
  | "+" | "-" | "*" | "/" | "%" => do
    let m ← number? a
    let n ← number? b
    match op with
    | "+" => return toString (m + n)
    | "-" => return toString (m - n)
    | "*" => return toString (m * n)
    | "/" => if n = 0 then none else return toString (m.tdiv n)
    | _ => if n = 0 then none else return toString (m.tmod n)
  | op => some (compare op a b)

/-- Operators, those that bind most first. -/
def levels : List (List String) :=
  [["*", "/", "%"], ["+", "-"], ["<", "<=", "=", "==", "!=", ">=", ">"], ["&"], ["|"]]

def part (text from? count? : String) : Option String :=
  match number? from?, number? count? with
  | some start, some count =>
    if start ≤ 0 ∨ count ≤ 0 then some ""
    else some (String.ofList ((text.toList.drop (start.toNat - 1)).take count.toNat))
  | _, _ => some ""

/-- Where the first of some characters stands in a text, counted from one. -/
def position (text chars : String) : Nat :=
  match text.toList.findIdx? chars.toList.contains with
  | some i => i + 1
  | none => 0

mutual

def level : Nat → Nat → List String → Option (String × List String)
  | 0, _, _ => none
  | fuel + 1, 0, words => single fuel words
  | fuel + 1, n + 1, words => do
    let (a, words) ← level fuel n words
    levelRest fuel n a words

def levelRest : Nat → Nat → String → List String → Option (String × List String)
  | 0, _, _, _ => none
  | fuel + 1, n, a, words =>
    match words with
    | op :: rest =>
      if ((levels[n]?).getD []).contains op then do
        let (b, rest) ← level fuel n rest
        levelRest fuel n (← apply op a b) rest
      else some (a, words)
    | [] => some (a, [])

def single : Nat → List String → Option (String × List String)
  | 0, _ => none
  | fuel + 1, words =>
    match words with
    | "(" :: rest => do
      let (a, rest) ← level fuel levels.length rest
      match rest with
      | ")" :: rest => return (a, rest)
      | _ => none
    | "+" :: a :: rest => some (a, rest)
    | "length" :: rest => do
      let (a, rest) ← single fuel rest
      return (toString a.length, rest)
    | "index" :: rest => do
      let (a, rest) ← single fuel rest
      let (b, rest) ← single fuel rest
      return (toString (position a b), rest)
    | "substr" :: rest => do
      let (a, rest) ← single fuel rest
      let (b, rest) ← single fuel rest
      let (c, rest) ← single fuel rest
      return (← part a b c, rest)
    | ")" :: _ | [] => none
    | a :: rest => some (a, rest)

end

def value? (words : List String) : Option String :=
  match level (16 * (words.length + 1)) levels.length words with
  | some (a, []) => some a
  | _ => none

end Corun.Program.Reckoning
