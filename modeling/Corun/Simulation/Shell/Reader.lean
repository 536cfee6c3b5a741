import Corun.Simulation.Shell.Script

namespace Corun.Shell

structure Substitution where
  name : String
  /-- How much text there is after it. -/
  left : Nat
  /-- Whether it ends with a blank. The word after it may then be an alias, too. -/
  opensNext : Bool

structure Cursor where
  token : Token
  rest : List Char
  /-- The aliases that the text may still belong to. -/
  within : List Substitution := []

namespace Cursor

def before (cs : List Char) : Cursor := ⟨.newline, cs, []⟩

def isWithin (a : Substitution) (p : Cursor) : Bool := a.left ≤ p.rest.length

def substitute (name : String) (value : List Char) (p : Cursor) : Cursor :=
  let a := ⟨name, p.rest.length, (value.getLast?.map fun c => c = ' ' || c = '\t').getD false⟩
  { p with rest := value ++ p.rest, within := a :: p.within }

/-- Whether the word under the second cursor may be an alias because of what stands before it. -/
def opensNext (p q : Cursor) : Bool :=
  p.within.any fun a => a.opensNext && p.isWithin a && !q.isWithin a

end Cursor

namespace Reader

inductive Surrounding where
  | plain
  | quotes
  | braces (isQuoted : Bool)
  | sum (depth : Nat)
  | text

def Surrounding.isQuoted : Surrounding → Bool
  | .plain => false
  | .braces isQuoted => isQuoted
  | _ => true

/-- The characters that a backslash takes their meaning from. -/
def Surrounding.isEscapable (s : Surrounding) (c : Char) : Bool :=
  match s with
  | .plain | .braces false => true
  | .quotes => ['$', '\x60', '\\', '"'].contains c
  | .braces true => ['$', '\x60', '\\', '"', '\x7d'].contains c
  | .sum _ | .text => ['$', '\x60', '\\'].contains c

def isBlank (c : Char) : Bool := c = ' ' || c = '\t'

def isMeta (c : Char) : Bool :=
  isBlank c || ['\n', ';', '&', '|', '(', ')', '<', '>'].contains c

def isSpecial (c : Char) : Bool :=
  c.isDigit || ['@', '*', '#', '?', '-', '$', '!'].contains c

/-- The text up to the next backquote, without the backslashes that only keep it from being one. -/
def backquoted (inQuotes : Bool) : List Char → Option (List Char × List Char)
  | [] => none
  | '\x60' :: cs => some ([], cs)
  | '\\' :: c :: cs => do
    let (text, rest) ← backquoted inQuotes cs
    if c = '$' ∨ c = '\x60' ∨ c = '\\' ∨ (inQuotes ∧ c = '"') then return (c :: text, rest)
    else return ('\\' :: c :: text, rest)
  | c :: cs => do
    let (text, rest) ← backquoted inQuotes cs
    return (c :: text, rest)

def cutAt (c : Char) (cs : List Char) : Option (List Char × List Char) :=
  match cs.dropWhile (· ≠ c) with
  | [] => none
  | _ :: rest => some (cs.takeWhile (· ≠ c), rest)

def quotedChars (cs : List Char) : Word := cs.map fun c => .char c true

def parameterName (cs : List Char) : Option (String × List Char) :=
  match cs with
  | [] => none
  | c :: rest =>
    if isNameStart c then
      some (String.ofList (cs.takeWhile isNameChar), cs.dropWhile isNameChar)
    else if c.isDigit then
      some (String.ofList (cs.takeWhile Char.isDigit), cs.dropWhile Char.isDigit)
    else if isSpecial c then some (c.toString, rest)
    else none

def fallback? : Char → Option Fallback
  | '-' => some .word
  | '=' => some .assignment
  | '?' => some .complaint
  | '+' => some .opposite
  | _ => none

/-- The text up to the line that ends it, and what comes after that line. Without such a line, everything
belongs to the text. -/
def textLines (stripsTabs : Bool) (last : String) : List String → List Char × List String
  | [] => ([], [])
  | line :: lines =>
    let line := if stripsTabs then String.ofList (line.toList.dropWhile (· = '\t')) else line
    if line = last then ([], lines)
    else
      let (text, rest) := textLines stripsTabs last lines
      (line.toList ++ (if lines.isEmpty then [] else '\n' :: text), rest)

/-- Takes the text that begins after this line out of what is still to be read. -/
def takeText (stripsTabs : Bool) (last : String) (cs : List Char) : String × List Char :=
  let line := cs.takeWhile (· ≠ '\n')
  match cs.drop line.length with
  | [] => ("", cs)
  | _ :: more =>
    let (text, rest) := textLines stripsTabs last ((String.ofList more).splitOn "\n")
    (String.ofList text, line ++ '\n' :: ("\n".intercalate rest).toList)

def opening? : Operator → Option Opening
  | "<" => some .input
  | ">" => some .output
  | ">|" => some .clobber
  | ">>" => some .append
  | "<>" => some .both
  | _ => none

def redirections : List Operator := ["<", ">", ">|", ">>", "<>", "<&", ">&", "<<", "<<-"]

def operator? (cs : List Char) : Option (Operator × List Char) :=
  let known := ["<<-", ";;", "&&", "||", "<<", ">>", ">|", "<>", "<&", ">&", ";", "&", "|", "(", ")",
    "<", ">"]
  (known.find? fun o => o.toList.isPrefixOf cs).map fun o => (o, cs.drop o.length)

def skipBlanks : Nat → List Char → List Char
  | 0, cs => cs
  | fuel + 1, '\\' :: '\n' :: cs => skipBlanks fuel cs
  | fuel + 1, c :: cs =>
    if isBlank c then skipBlanks fuel cs
    else if c = '#' then cs.dropWhile (· ≠ '\n')
    else c :: cs
  | _ + 1, [] => []

def isOperator (o : Operator) (p : Cursor) : Bool :=
  match p.token with
  | .operator o' => o' = o
  | _ => false

def isNewline (p : Cursor) : Bool :=
  match p.token with
  | .newline => true
  | _ => false

def isEnded (p : Cursor) : Bool :=
  match p.token with
  | .ended => true
  | _ => false

def lettersAt? (p : Cursor) : Option String :=
  match p.token with
  | .word w => letters? w
  | _ => none

def isKeyword (text : String) (p : Cursor) : Bool := lettersAt? p = some text

def closers : List String := ["then", "else", "elif", "fi", "do", "done", "esac", "\x7d"]

def keywords : List String := closers ++ ["!", "\x7b", "case", "for", "if", "in", "until", "while"]

def closes (p : Cursor) : Bool :=
  isEnded p || isOperator ")" p || isOperator ";;" p
    || (match lettersAt? p with
      | some text => closers.contains text
      | none => false)

def isNothing : Command → Bool
  | .nothing => true
  | _ => false

def join (a b : Command) : Command := if isNothing a then b else .sequence a b

def specialBuiltins : List String :=
  [".", ":", "break", "continue", "eval", "exec", "exit", "export", "readonly", "return", "set",
   "shift", "times", "trap", "unset", "local"]

/-- The line that ends a text, and whether it was quoted. -/
def textEnd (w : Word) : String × Bool :=
  (String.ofList (w.filterMap fun
      | Piece.char c _ => some c
      | _ => none),
    w.any fun
      | Piece.char _ isQuoted => isQuoted
      | Piece.quotes => true
      | _ => false)

/-- Whether quotes hold nothing but all operands. They do not make a word of none of them. -/
def isEveryOperand : Word → Bool
  | [.parameter "@" .value true] => true
  | _ => false

variable (aliases : List (String × String))

mutual

/-- The pieces of a word up to the end of what surrounds them, which is left out if it is a sign of
its own. -/
def pieces : Nat → Surrounding → List Char → Option (Word × List Char)
  | 0, _, _ => none
  | _ + 1, .plain, [] | _ + 1, .text, [] => some ([], [])
  | _ + 1, _, [] => none
  | fuel + 1, s, c :: cs =>
    let more (s : Surrounding) (w : Word) (cs : List Char) : Option (Word × List Char) :=
      (pieces fuel s cs).map fun (rest, cs) => (w ++ rest, cs)
    let piece (r : Option (Word × List Char)) : Option (Word × List Char) := do
      let (w, cs) ← r
      more s w cs
    let other (_ : Unit) : Option (Word × List Char) :=
      if c = '\\' then
        match cs with
        | '\n' :: cs => more s [] cs
        | d :: cs =>
          if s.isEscapable d then more s [.char d true] cs
          else more s [.char c s.isQuoted] (d :: cs)
        | [] => more s [.char c s.isQuoted] []
      else if c = '$' then piece (dollar fuel s.isQuoted cs)
      else if c = '\x60' then do
        let (text, cs) ← backquoted s.isQuoted cs
        let p ← next fuel (.before text)
        let (command, _) ← list fuel .nothing p
        more s [.output command s.isQuoted] cs
      else more s [.char c s.isQuoted] cs
    let single (_ : Unit) : Option (Word × List Char) := do
      let (text, cs) ← cutAt '\'' cs
      more s (.quotes :: quotedChars text) cs
    let double (_ : Unit) : Option (Word × List Char) := do
      let (w, cs) ← pieces fuel .quotes cs
      more s (if isEveryOperand w then w else .quotes :: w) cs
    match s with
    | .plain =>
      if isMeta c then some ([], c :: cs)
      else if c = '\'' then single ()
      else if c = '"' then double ()
      else other ()
    | .quotes => if c = '"' then some ([], cs) else other ()
    | .braces isQuoted =>
      if c = '\x7d' then some ([], cs)
      else if c = '\'' ∧ !isQuoted then single ()
      else if c = '"' then double ()
      else other ()
    | .sum depth =>
      if c = '(' then more (.sum (depth + 1)) [.char c true] cs
      else if c = ')' then
        if depth = 0 then
          match cs with
          | ')' :: cs => some ([], cs)
          | cs => more s [.char c true] cs
        else more (.sum (depth - 1)) [.char c true] cs
      else other ()
    | .text => other ()

def dollar : Nat → Bool → List Char → Option (Word × List Char)
  | 0, _, _ => none
  | fuel + 1, isQuoted, cs =>
    match cs with
    | '(' :: '(' :: cs => (pieces fuel (.sum 0) cs).map fun (w, cs) => ([.arithmetic w isQuoted], cs)
    | '(' :: cs => do
      let p ← next fuel (.before cs)
      let (command, p) ← list fuel .nothing p
      if isOperator ")" p then some ([.output command isQuoted], p.rest) else none
    | '\x7b' :: cs => parameter fuel isQuoted cs
    | c :: rest =>
      if isNameStart c then
        some ([.parameter (String.ofList (cs.takeWhile isNameChar)) .value isQuoted],
          cs.dropWhile isNameChar)
      else if isSpecial c then some ([.parameter c.toString .value isQuoted], rest)
      else some ([.char '$' isQuoted], cs)
    | [] => some ([.char '$' isQuoted], [])

def parameter : Nat → Bool → List Char → Option (Word × List Char)
  | 0, _, _ => none
  | fuel + 1, isQuoted, cs =>
    let plain (name : String) (form : Form) (cs : List Char) : Option (Word × List Char) :=
      some ([.parameter name form isQuoted], cs)
    let bad (cs : List Char) : Option (Word × List Char) :=
      (pieces fuel (.braces isQuoted) cs).map fun (_, cs) => ([.parameter "" .bad isQuoted], cs)
    let trimmed (name : String) (atEnd longest : Bool) (cs : List Char) :=
      (pieces fuel (.braces false) cs).map fun (w, cs) =>
        (([.parameter name (.trimmed atEnd longest w) isQuoted] : Word), cs)
    let whole (name : String) (cs : List Char) : Option (Word × List Char) :=
      match cs with
      | '\x7d' :: cs => plain name .value cs
      | ':' :: c :: rest =>
        match fallback? c with
        | some f => (pieces fuel (.braces isQuoted) rest).map fun (w, cs) =>
          ([.parameter name (.withFallback f true w) isQuoted], cs)
        | none => bad cs
      | '#' :: '#' :: cs => trimmed name false true cs
      | '#' :: cs => trimmed name false false cs
      | '%' :: '%' :: cs => trimmed name true true cs
      | '%' :: cs => trimmed name true false cs
      | c :: rest =>
        match fallback? c with
        | some f => (pieces fuel (.braces isQuoted) rest).map fun (w, cs) =>
          ([.parameter name (.withFallback f false w) isQuoted], cs)
        | none => bad cs
      | [] => none
    match cs with
    | '#' :: '\x7d' :: cs => plain "#" .value cs
    | '#' :: rest =>
      match parameterName rest with
      | some (name, '\x7d' :: cs) => plain name .length cs
      | _ => whole "#" rest
    | cs =>
      match parameterName cs with
      | some (name, cs) => whole name cs
      | none => bad cs

def next : Nat → Cursor → Option Cursor
  | 0, _ => none
  | fuel + 1, p =>
    let atToken (token : Token) (rest : List Char) : Cursor := { p with token, rest }
    match skipBlanks p.rest.length p.rest with
    | [] => some (atToken .ended [])
    | '\n' :: cs => some (atToken .newline cs)
    | c :: cs =>
      match operator? (c :: cs) with
      | some (o, cs) => some (atToken (.operator o) cs)
      | none =>
        if c.isDigit ∧ (cs.head? = some '<' ∨ cs.head? = some '>') then
          some (atToken (.number (c.toNat - '0'.toNat)) cs)
        else (pieces fuel .plain (c :: cs)).map fun (w, cs) => atToken (.word w) cs

/-- Reads what an alias stands for instead of it, but not inside of itself. -/
def unaliased : Nat → Cursor → Option Cursor
  | 0, _ => none
  | fuel + 1, p =>
    let found := do
      let name ← lettersAt? p
      if keywords.contains name ∨ p.within.any fun a => a.name = name ∧ p.isWithin a then none
      return (name, ← aliases.lookup name)
    match found with
    | some (name, value) => do unaliased fuel (← next fuel (p.substitute name value.toList))
    | none => some p

def entry : Nat → Cursor → Option Cursor
  | 0, _ => none
  | fuel + 1, p => do
    let p ← skipNewlines fuel p
    let p ← unaliased fuel p
    if isNewline p then entry fuel p else return p

def following : Nat → Cursor → Option Cursor
  | 0, _ => none
  | fuel + 1, p => do
    let q ← next fuel p
    if p.opensNext q then unaliased fuel q else return q

def skipNewlines : Nat → Cursor → Option Cursor
  | 0, _ => none
  | fuel + 1, p => if isNewline p then do skipNewlines fuel (← next fuel p) else some p

def list : Nat → Command → Cursor → Option (Command × Cursor)
  | 0, _, _ => none
  | fuel + 1, before, p => do
    let p ← entry fuel p
    if closes p then return (before, p)
    let (c, p) ← andOr fuel p
    if isOperator "&" p then list fuel (join before (.background c)) (← next fuel p)
    else if isOperator ";" p ∨ isNewline p then list fuel (join before c) (← next fuel p)
    else return (join before c, p)

def body : Nat → Cursor → Option (Command × Cursor)
  | 0, _ => none
  | fuel + 1, p => do
    let (c, p) ← list fuel .nothing p
    if isNothing c then none else return (c, p)

def bodyUntil : Nat → String → Cursor → Option (Command × Cursor)
  | 0, _, _ => none
  | fuel + 1, closer, p => do
    let (c, p) ← body fuel p
    if isKeyword closer p then return (c, ← next fuel p) else none

def andOr : Nat → Cursor → Option (Command × Cursor)
  | 0, _ => none
  | fuel + 1, p => do
    let (c, p) ← pipeline fuel p
    andOrRest fuel c p

def andOrRest : Nat → Command → Cursor → Option (Command × Cursor)
  | 0, _, _ => none
  | fuel + 1, before, p => do
    let isBoth := isOperator "&&" p
    if isBoth ∨ isOperator "||" p then
      let (c, p) ← pipeline fuel (← entry fuel (← next fuel p))
      andOrRest fuel (if isBoth then .conjunction before c else .disjunction before c) p
    else return (before, p)

def pipeline : Nat → Cursor → Option (Command × Cursor)
  | 0, _ => none
  | fuel + 1, p => do
    if isKeyword "!" p then
      let (c, p) ← pipes fuel [] (← unaliased fuel (← next fuel p))
      return (.negation c, p)
    else pipes fuel [] p

def pipes : Nat → List Command → Cursor → Option (Command × Cursor)
  | 0, _, _ => none
  | fuel + 1, before, p => do
    let (c, p) ← command fuel p
    if isOperator "|" p then
      pipes fuel (before ++ [c]) (← entry fuel (← next fuel p))
    else return (if before.isEmpty then c else .pipeline (before ++ [c]), p)

def command : Nat → Cursor → Option (Command × Cursor)
  | 0, _ => none
  | fuel + 1, p => do
    if isOperator "(" p then
      let (c, p) ← body fuel (← next fuel p)
      if isOperator ")" p then redirected fuel (.nested c) [] (← next fuel p) else none
    else match lettersAt? p with
      | some "\x7b" =>
        let (c, p) ← bodyUntil fuel "\x7d" (← next fuel p)
        redirected fuel c [] p
      | some "if" =>
        let (c, p) ← choice fuel (← next fuel p)
        redirected fuel c [] p
      | some "while" =>
        let (c, p) ← repetition fuel true (← next fuel p)
        redirected fuel c [] p
      | some "until" =>
        let (c, p) ← repetition fuel false (← next fuel p)
        redirected fuel c [] p
      | some "for" =>
        let (c, p) ← iteration fuel (← next fuel p)
        redirected fuel c [] p
      | some "case" =>
        let (c, p) ← selection fuel (← next fuel p)
        redirected fuel c [] p
      | some text =>
        if ["!", "in"].contains text ∨ closers.contains text then none else simple fuel [] [] [] p
      | none => simple fuel [] [] [] p

def choice : Nat → Cursor → Option (Command × Cursor)
  | 0, _ => none
  | fuel + 1, p => do
    let (condition, p) ← bodyUntil fuel "then" p
    let (yes, p) ← body fuel p
    if isKeyword "elif" p then
      let (no, p) ← choice fuel (← next fuel p)
      return (.choice condition yes no, p)
    else if isKeyword "else" p then
      let (no, p) ← bodyUntil fuel "fi" (← next fuel p)
      return (.choice condition yes no, p)
    else if isKeyword "fi" p then return (.choice condition yes .nothing, ← next fuel p)
    else none

def repetition : Nat → Bool → Cursor → Option (Command × Cursor)
  | 0, _, _ => none
  | fuel + 1, wanted, p => do
    let (condition, p) ← bodyUntil fuel "do" p
    let (c, p) ← bodyUntil fuel "done" p
    return (.repetition wanted condition c, p)

def iteration : Nat → Cursor → Option (Command × Cursor)
  | 0, _ => none
  | fuel + 1, p => do
    let name ← lettersAt? p
    if !isName name then none
    let p ← skipNewlines fuel (← next fuel p)
    let (words, p) ← (if isKeyword "in" p then do
        let (words, p) ← wordsUntilLine fuel [] (← next fuel p)
        return (words, ← next fuel p)
      else if isOperator ";" p then do
        return ([([.parameter "@" .value true] : Word)], ← next fuel p)
      else some ([([.parameter "@" .value true] : Word)], p))
    let p ← skipNewlines fuel p
    if isKeyword "do" p then
      let (c, p) ← bodyUntil fuel "done" (← next fuel p)
      return (.iteration name words c, p)
    else none

def wordsUntilLine : Nat → List Word → Cursor → Option (List Word × Cursor)
  | 0, _, _ => none
  | fuel + 1, words, p =>
    match p.token with
    | .word w => do wordsUntilLine fuel (words ++ [w]) (← next fuel p)
    | .newline | .operator ";" => some (words, p)
    | _ => none

def selection : Nat → Cursor → Option (Command × Cursor)
  | 0, _ => none
  | fuel + 1, p =>
    match p.token with
    | .word w => do
      let p ← skipNewlines fuel (← next fuel p)
      if isKeyword "in" p then
        let (clauses, p) ← clauses fuel [] (← next fuel p)
        return (.selection w clauses, p)
      else none
    | _ => none

def clauses : Nat → List (List Word × Command) → Cursor →
    Option (List (List Word × Command) × Cursor)
  | 0, _, _ => none
  | fuel + 1, before, p => do
    let p ← skipNewlines fuel p
    if isKeyword "esac" p then return (before, ← next fuel p)
    let p ← if isOperator "(" p then next fuel p else some p
    let (patterns, p) ← patterns fuel [] p
    let (c, p) ← list fuel .nothing p
    let before := before ++ [(patterns, c)]
    if isOperator ";;" p then clauses fuel before (← next fuel p)
    else if isKeyword "esac" p then return (before, ← next fuel p)
    else none

def patterns : Nat → List Word → Cursor → Option (List Word × Cursor)
  | 0, _, _ => none
  | fuel + 1, before, p =>
    match p.token with
    | .word w => do
      let p ← next fuel p
      if isOperator "|" p then patterns fuel (before ++ [w]) (← next fuel p)
      else if isOperator ")" p then return (before ++ [w], ← next fuel p)
      else none
    | _ => none

/-- A command with the redirections behind it. In braces, those of a shell of its own give way to them. -/
def redirected : Nat → Command → List Redirect → Cursor → Option (Command × Cursor)
  | 0, _, _, _ => none
  | fuel + 1, c, redirects, p =>
    match redirect fuel p with
    | some r => do
      let (r, p) ← r
      redirected fuel c (redirects ++ [r]) p
    | none =>
      if redirects.isEmpty then some (c, p)
      else match c with
        | .redirected (.nested c) _ => some (.redirected (.nested c) redirects, p)
        | c => some (.redirected c redirects, p)

def redirect : Nat → Cursor → Option (Option (Redirect × Cursor))
  | 0, _ => none
  | fuel + 1, p =>
    let from? : Option (Option Nat × Operator × List Char) :=
      match p.token with
      | .operator o => if redirections.contains o then some (none, o, p.rest) else none
      | .number n => (operator? p.rest).map fun (o, cs) => (some n, o, cs)
      | _ => none
    from?.map fun (number, o, cs) => do
      let number := number.getD (if o.startsWith "<" then 0 else 1)
      let p ← next fuel { p with rest := cs }
      match p.token with
      | .word w =>
        match opening? o with
        | some opening => return (.file ⟨number, opening⟩ w, ← next fuel p)
        | none =>
          if o = "<&" ∨ o = ">&" then return (.copy number w, ← next fuel p)
          else
            let (last, isQuoted) := textEnd w
            let (text, cs) := takeText (o = "<<-") last p.rest
            let (w, _) ← if isQuoted then some (quotedChars text.toList, [])
              else pieces fuel .text text.toList
            return (.text number w, ← next fuel { p with rest := cs })
      | _ => none

def simple : Nat → List (String × Word) → List Word → List Redirect → Cursor →
    Option (Command × Cursor)
  | 0, _, _, _, _ => none
  | fuel + 1, given, words, redirects, p =>
    match redirect fuel p with
    | some r => do
      let (r, p) ← r
      simple fuel given words (redirects ++ [r]) (← if words.isEmpty then unaliased fuel p else some p)
    | none =>
      match p.token with
      | .word w =>
        match words, assignment? w with
        | [], some a => do simple fuel (given ++ [a]) words redirects (← unaliased fuel (← next fuel p))
        | _, _ => do simple fuel given (words ++ [w]) redirects (← following fuel p)
      | _ =>
        if isOperator "(" p then
          match given, words, redirects with
          | [], [w], [] => do
            let name ← letters? w
            let p ← next fuel p
            if !isOperator ")" p ∨ !isName name ∨ specialBuiltins.contains name then none
            let (c, p) ← command fuel (← entry fuel (← next fuel p))
            return (.definition name c, p)
          | _, _, _ => none
        else if given.isEmpty ∧ words.isEmpty ∧ redirects.isEmpty then none
        else some (.simple given words redirects, p)

end

def line (fuel : Nat) : Nat → Command → Cursor → Option (Command × Cursor)
  | 0, _, _ => none
  | commands + 1, before, p => do
    let p ← unaliased aliases fuel p
    if isNewline p ∨ isEnded p then return (before, p)
    if closes p then none
    let (c, p) ← andOr aliases fuel p
    if isOperator "&" p then line fuel commands (join before (.background c)) (← next aliases fuel p)
    else if isOperator ";" p then line fuel commands (join before c) (← next aliases fuel p)
    else if isNewline p ∨ isEnded p then return (join before c, p)
    else none

/-- More fuel than reading a text takes. Aliases make it longer, and may stand for each other. -/
def fuelFor (cs : List Char) : Nat :=
  let longer := 1 + aliases.foldl (fun n a => n + a.2.length + 1) 0
  (16 * cs.length + 64) * longer * longer

inductive Line where
  | ended
  | command (c : Command) (rest : List Char) (isLast : Bool)
  | broken

def firstLine (cs : List Char) : Line :=
  let fuel := fuelFor aliases cs
  match next aliases fuel (.before cs) with
  | none => .broken
  | some p =>
    if isEnded p then .ended
    else match line aliases fuel fuel .nothing p with
      | some (c, p) => .command c p.rest (isEnded p)
      | none => .broken

end Reader

end Corun.Shell
