namespace Corun.Shell

inductive Fallback where
  | word
  | assignment
  | complaint
  /-- Nothing; the word stands in for a parameter that has a value. -/
  | opposite
deriving DecidableEq

inductive Opening where
  | input
  | output
  /-- As output, but it may always go over a file. -/
  | clobber
  | append
  | both
deriving DecidableEq

structure Direction where
  number : Nat
  opening : Opening

mutual

inductive Piece where
  | char (c : Char) (isQuoted : Bool)
  /-- Quotes make a word also of nothing. -/
  | quotes
  | parameter (name : String) (form : Form) (isQuoted : Bool)
  | output (c : Command) (isQuoted : Bool)
  | arithmetic (w : List Piece) (isQuoted : Bool)

inductive Form where
  | value
  | length
  /-- With a fallback for when it is not set, or also for when it is empty. -/
  | withFallback (f : Fallback) (alsoEmpty : Bool) (w : List Piece)
  | trimmed (atEnd longest : Bool) (pattern : List Piece)
  | bad

inductive Redirect where
  | file (d : Direction) (w : List Piece)
  /-- Lets a descriptor lead to where another one does, or nowhere. -/
  | copy (number : Nat) (w : List Piece)
  | text (number : Nat) (w : List Piece)

inductive Command where
  | simple (given : List (String × List Piece)) (words : List (List Piece))
      (redirects : List Redirect)
  | pipeline (parts : List Command)
  | negation (c : Command)
  | conjunction (a b : Command)
  | disjunction (a b : Command)
  | sequence (a b : Command)
  | background (c : Command)
  | nested (c : Command)
  | redirected (c : Command) (redirects : List Redirect)
  | choice (condition yes no : Command)
  | repetition (wanted : Bool) (condition body : Command)
  | iteration (name : String) (words : List (List Piece)) (body : Command)
  | selection (w : List Piece) (clauses : List (List (List Piece) × Command))
  | definition (name : String) (body : Command)
  | nothing

end

abbrev Word := List Piece

instance : Inhabited Command := ⟨.nothing⟩

abbrev Operator := String

inductive Token where
  | word (w : Word)
  | operator (o : Operator)
  | number (n : Nat)
  | newline
  | ended

def letters? (w : Word) : Option String :=
  (w.mapM fun
    | Piece.char c false => some c
    | _ => none).map String.ofList

def isNameStart (c : Char) : Bool := c.isAlpha || c = '_'

def isNameChar (c : Char) : Bool := c.isAlphanum || c = '_'

def isName (text : String) : Bool :=
  match text.toList with
  | c :: cs => isNameStart c && cs.all isNameChar
  | [] => false

/-- A word that gives a variable a value: the name and the value. The name is not quoted. -/
def assignment? (w : Word) : Option (String × Word) :=
  let isLetter : Piece → Bool
    | .char c false => c ≠ '='
    | _ => false
  let front := w.takeWhile isLetter
  match letters? front, w.drop front.length with
  | some name, .char '=' false :: value => if isName name then some (name, value) else none
  | _, _ => none

end Corun.Shell
