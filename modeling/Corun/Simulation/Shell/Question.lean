import Corun.Simulation.FileTree
import Corun.Simulation.Shell.Sum

namespace Corun.Shell.Question
open Os

inductive Kind where
  | unary
  | binary
  | negation
  | both
  | either
  | opening
  | closing
deriving DecidableEq

def unary : List String :=
  ["-r", "-w", "-x", "-e", "-f", "-d", "-c", "-b", "-p", "-u", "-g", "-k", "-s", "-t", "-z", "-n",
   "-h", "-O", "-G", "-L", "-S"]

def binary : List String :=
  ["=", "!=", "-eq", "-ne", "-ge", "-gt", "-le", "-lt", "-nt", "-ot", "-ef"]

def orders : List String := ["<", ">"]

/-- What a word is, unless it is an operand in any case. The program knows one operator that the shell
does not, and lacks others. -/
def kind? (knowsMore : Bool) (word : String) : Option Kind :=
  if unary.contains word then some .unary
  else if binary.contains word || (if knowsMore then word = "==" else orders.contains word) then
    some .binary
  else match word with
    | "!" => some .negation
    | "-a" => some .both
    | "-o" => some .either
    | "(" => some .opening
    | ")" => some .closing
    | _ => none

/-- What stands in front of some words: nothing for an operand. Operators with nothing behind them are
operands, and so are those in front of an operator with two sides. -/
def front (more : Bool) : List String → Option Kind
  | [] => none
  | word :: rest =>
    match kind? more word, rest with
    | some .unary, [] => none
    | some .unary, [_] => some .unary
    | some .unary, next :: _ => if kind? more next = some .binary then none else some .unary
    | some .opening, [] => none
    | k, _ => k

def number? (text : String) : Option Int :=
  let isSpace (c : Char) : Bool := c = ' ' || (9 ≤ c.toNat && c.toNat ≤ 13)
  let cs := text.toList.dropWhile isSpace
  let (isNegative, cs) := match cs with
    | '-' :: cs => (true, cs)
    | '+' :: cs => (false, cs)
    | cs => (false, cs)
  let digits := cs.takeWhile Char.isDigit
  if digits.isEmpty ∨ !((cs.drop digits.length).dropWhile isSpace).isEmpty then none
  else
    let n : Int := (Sum.takeDigits 10 0 digits).1
    let n := if isNegative then -n else n
    if Sum.clamp n = n then some n else none

def hasContent : Node → Bool
  | .file bytes => !bytes.isEmpty
  | .device _ => false
  | _ => true

def isExecutable : Node → Bool
  | .directory _ | .program _ => true
  | _ => false

def isRegular : Node → Bool
  | .file _ | .program _ => true
  | _ => false

def isDevice : Node → Bool
  | .device _ => true
  | _ => false

def askFile (tree : FileTree) (op path : String) : Bool :=
  let node := (tree.find path).toOption
  match op with
  | "-e" | "-r" | "-w" | "-O" | "-G" => node.isSome
  | "-x" => node.any isExecutable
  | "-f" => node.any isRegular
  | "-d" => node.any Node.isDirectory
  | "-c" => node.any isDevice
  | "-s" => node.any hasContent
  | "-h" | "-L" =>
    match tree.locate path false with
    | .ok place =>
      match tree.root.at? place with
      | some (.link _) => true
      | _ => false
    | .error _ => false
  | _ => false

def askUnary (tree : FileTree) (op operand : String) : Option Bool :=
  match op with
  | "-z" => some (operand = "")
  | "-n" => some (operand ≠ "")
  | "-t" => (number? operand).map fun _ => false
  | op => some (askFile tree op operand)

def askBinary (tree : FileTree) (op a b : String) : Option Bool :=
  let compare (holds : Int → Int → Bool) : Option Bool := do
    return holds (← number? a) (← number? b)
  match op with
  | "=" | "==" => some (a = b)
  | "!=" => some (a ≠ b)
  | "<" => some (a < b)
  | ">" => some (b < a)
  | "-eq" => compare fun m n => m = n
  | "-ne" => compare fun m n => m ≠ n
  | "-ge" => compare fun m n => n ≤ m
  | "-gt" => compare fun m n => n < m
  | "-le" => compare fun m n => m ≤ n
  | "-lt" => compare fun m n => m < n
  | "-ef" =>
    match tree.locate a, tree.locate b with
    | .ok p, .ok q => some (p = q)
    | _, _ => some false
  | _ => some false

mutual

def either (tree : FileTree) (more : Bool) : Nat → List String → Option (Bool × List String)
  | 0, _ => none
  | fuel + 1, words => do
    let (a, words) ← both tree more fuel words
    match words with
    | "-o" :: rest => do
      let (b, words) ← either tree more fuel rest
      return (a || b, words)
    | words => return (a, words)

def both (tree : FileTree) (more : Bool) : Nat → List String → Option (Bool × List String)
  | 0, _ => none
  | fuel + 1, words => do
    let (a, words) ← single tree more fuel words
    match words with
    | "-a" :: rest => do
      let (b, words) ← both tree more fuel rest
      return (a && b, words)
    | words => return (a, words)

def single (tree : FileTree) (more : Bool) : Nat → List String → Option (Bool × List String)
  | 0, _ => none
  | fuel + 1, words =>
    match front more words, words with
    | some .negation, _ :: rest =>
      (single tree more fuel rest).map fun (a, words) => (!a, words)
    | _, words => primary tree more fuel words

def primary (tree : FileTree) (more : Bool) : Nat → List String → Option (Bool × List String)
  | 0, _ => none
  | fuel + 1, words =>
    match front more words, words with
    | _, [] => some (false, [])
    | some .opening, _ :: ")" :: rest => some (false, rest)
    | some .opening, _ :: rest => do
      let (a, words) ← either tree more fuel rest
      match words with
      | ")" :: rest => return (a, rest)
      | _ => none
    | some .unary, op :: operand :: rest => (askUnary tree op operand).map (·, rest)
    | _, words => operand tree more words

def operand (tree : FileTree) (more : Bool) : List String → Option (Bool × List String)
  | [] => some (false, [])
  | [a] => some (a ≠ "", [])
  | a :: op :: rest =>
    if kind? more op = some .binary then
      match rest with
      | b :: rest => (askBinary tree op a b).map (·, rest)
      | [] => none
    else some (a ≠ "", op :: rest)

end

/-- The answer to a whole question. Short ones are looked at from behind first. -/
def ask (tree : FileTree) (more : Bool) : Nat → List String → Option Bool
  | 0, _ => none
  | _ + 1, [] => some false
  | depth + 1, words =>
    let whole (words : List String) (isPlain : Bool) : Option Bool := do
      let fuel := 8 * (words.length + 1)
      let (a, rest) ← if isPlain then operand tree more words else either tree more fuel words
      if rest.isEmpty then return a else none
    let isBetween : Bool := match words with
      | [_, op, _] => kind? more op = some .binary
      | _ => false
    if isBetween then whole words true
    else if words.length = 3 ∨ words.length = 4 then
      if words.head? = some "(" ∧ words.getLast? = some ")" then
        whole (words.drop 1).dropLast false
      else if words.head? = some "!" then (ask tree more depth (words.drop 1)).map (!·)
      else whole words false
    else whole words false

def misuse : Nat := 2

def status (tree : FileTree) (more : Bool) (words : List String) : Nat :=
  match ask tree more (words.length + 1) words with
  | some true => 0
  | some false => 1
  | none => misuse

def bracketStatus (tree : FileTree) (more : Bool) (words : List String) : Nat :=
  if words.getLast? = some "]" then status tree more words.dropLast else misuse

end Corun.Shell.Question
