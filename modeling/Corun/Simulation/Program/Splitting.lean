import Corun.Simulation.Shell.Environment

namespace Corun.Program
open Shell

structure Splitting where
  words : List String := []
  word : Option (List Char) := none
  quote : Option Char := none

namespace Splitting

def isBlank (c : Char) : Bool := c = ' ' || (9 ≤ c.toNat && c.toNat ≤ 13)

def isVariableChar (c : Char) : Bool := c.isAlphanum || c = '_'

def braced? : List Char → Option (String × List Char)
  | '\x7b' :: cs =>
    let name := cs.takeWhile isVariableChar
    match name, cs.drop name.length with
    | c :: _, '\x7d' :: rest => if c.isDigit then none else some (String.ofList name, rest)
    | _, _ => none
  | _ => none

def add (cs : List Char) (s : Splitting) : Splitting := { s with word := some (s.word.getD [] ++ cs) }

def endWord (s : Splitting) : Splitting :=
  { s with words := s.words ++ (s.word.map String.ofList).toList, word := none }

def finish (s : Splitting) : Option (List String) :=
  if s.quote.isSome then none else some s.endWord.words

def escaped? (c : Char) : Option Char :=
  match c with
  | '"' | '#' | '$' | '\'' | '\\' => some c
  | 'f' => some '\x0c'
  | 'n' => some '\n'
  | 'r' => some '\r'
  | 't' => some '\t'
  | 'v' => some '\x0b'
  | _ => none

/-- Takes character after character. A number sign at the beginning of a word ends the text. -/
def read (e : Environment) : Nat → List Char → Splitting → Option (List String)
  | 0, _, _ => none
  | _ + 1, [], s => s.finish
  | fuel + 1, c :: cs, s =>
    let isSingle := s.quote = some '\''
    let isDouble := s.quote = some '"'
    if (c = '\'' ∧ !isDouble) ∨ (c = '"' ∧ !isSingle) then
      read e fuel cs { s.add [] with quote := if s.quote.isSome then none else some c }
    else if isBlank c ∧ s.quote.isNone then read e fuel cs s.endWord
    else if c = '#' ∧ s.word.isNone then some s.words
    else if c = '\\' then
      match cs with
      | [] => none
      | d :: rest =>
        if isSingle ∧ d ≠ '\\' ∧ d ≠ '\'' then read e fuel cs (s.add [c])
        else if d = '_' then read e fuel rest (if isDouble then s.add [' '] else s.endWord)
        else if d = 'c' then if isDouble then none else some s.endWord.words
        else do read e fuel rest (s.add [← escaped? d])
    else if c = '$' ∧ !isSingle then
      match braced? cs with
      | some (name, rest) =>
        read e fuel rest (match e.lookup name with
          | some value => s.add value.toList
          | none => s)
      | none => none
    else read e fuel cs (s.add [c])

def words? (e : Environment) (text : String) : Option (List String) :=
  read e (text.length + 1) text.toList {}

end Splitting

end Corun.Program
