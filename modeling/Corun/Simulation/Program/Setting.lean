import Corun.Simulation.Program.Options
import Corun.Simulation.Program.Splitting

namespace Corun.Program
open Os Shell

structure Setting where
  environment : Environment
  isBare : Bool := false
  dropped : List String := []
  directory : Option String := none
  ignored : List Nat := []
  usual : List Nat := []
  lineEnd : UInt8 := 10

namespace Setting

inductive Request where
  | information
  | misuse
  | work (s : Setting) (words : List String)

def allSignals : List Nat := (List.range 65).filter fun n => 0 < n && n ≠ 32 && n ≠ 33

/-- What is done about these two cannot be changed. -/
def isFixed (signal : Nat) : Bool := signal = 9 || signal = 19

def signals? : Option String → Option (List Nat)
  | none => some (allSignals.filter fun n => !isFixed n)
  | some text => ((text.splitOn ",").filter (· ≠ "")).mapM fun name =>
    (Options.signal? name).filter (0 < ·)

def changeable? (text : Option String) : Option (List Nat) := do
  let numbers ← signals? text
  if numbers.any isFixed then none else some numbers

/-- Blocked signals never arrive, as if they were ignored. The end of a child is waited for anyway. -/
def blocked? (text : Option String) : Option (List Nat) := do
  return (← signals? text).filter fun n => !isFixed n && n ≠ 17

def longNames : List String :=
  ["ignore-environment", "null", "unset", "chdir", "split-string", "block-signal", "default-signal",
   "ignore-signal", "list-signal-handling", "debug", "help", "version"]

def withValue (letter : Char) (value : String) (s : Setting) : Option (Setting × List String) :=
  match letter with
  | 'u' => some ({ s with dropped := s.dropped ++ [value] }, [])
  | 'C' => some ({ s with directory := some value }, [])
  | 'S' => (Splitting.words? s.environment value).map (s, ·)
  | _ => none

/-- What the letters behind a dash ask for: the setting, words that take their place, and whether the
next word was used. -/
def letters (next : Option String) : List Char → Setting → Option (Setting × List String × Bool)
  | [], s => some (s, [], false)
  | c :: cs, s =>
    match c with
    | 'i' => letters next cs { s with isBare := true }
    | '0' => letters next cs { s with lineEnd := 0 }
    | 'v' => letters next cs s
    | c =>
      if ['u', 'C', 'S'].contains c then
        match cs, next with
        | [], none => none
        | [], some value => (s.withValue c value).map fun (s, words) => (s, words, true)
        | cs, _ => (s.withValue c (String.ofList cs)).map fun (s, words) => (s, words, false)
      else none

def assignments : List String → Setting → Setting × List String
  | [], s => (s, [])
  | a :: more, s =>
    let cs := a.toList
    let name := cs.takeWhile (· ≠ '=')
    match cs.drop name.length with
    | [] => (s, a :: more)
    | _ :: value =>
      let environment := s.environment.set (String.ofList name) (String.ofList value)
      assignments more { s with environment }

/-- Names that cannot be those of variables cannot be left out either. -/
def isDroppable (name : String) : Bool := name ≠ "" && !name.toList.contains '='

def finish (words : List String) (s : Setting) : Request :=
  let (isBare, words) := match words with
    | "-" :: words => (true, words)
    | words => (s.isBare, words)
  if isBare then
    let (s, words) := assignments words { s with environment := [] }
    .work s words
  else if !s.dropped.all isDroppable then .misuse
  else
    let environment := s.environment.filter fun v => !s.dropped.contains v.1
    let (s, words) := assignments words { s with environment }
    .work s words

def read : Nat → List String → Setting → Request
  | 0, _, _ => .misuse
  | _ + 1, [], s => finish [] s
  | _ + 1, "--" :: words, s => finish words s
  | fuel + 1, a :: more, s =>
    if !Options.isOption a then finish (a :: more) s
    else if a.startsWith "--" then
      let (name, value) := Options.splitLong a
      let valued (letter : Char) : Request :=
        match value, more with
        | some v, more | none, v :: more =>
          match s.withValue letter v with
          | some (s, words) => read fuel (words ++ more) s
          | none => .misuse
        | none, [] => .misuse
      match Options.long? longNames name, value with
      | some "help", none | some "version", none => .information
      | some "ignore-environment", none => read fuel more { s with isBare := true }
      | some "null", none => read fuel more { s with lineEnd := 0 }
      | some "debug", none | some "list-signal-handling", none => read fuel more s
      | some "unset", _ => valued 'u'
      | some "chdir", _ => valued 'C'
      | some "split-string", _ => valued 'S'
      | some "block-signal", value =>
        match blocked? value with
        | some numbers => read fuel more { s with ignored := s.ignored ++ numbers }
        | none => .misuse
      | some "default-signal", value =>
        match changeable? value with
        | some numbers =>
          let ignored := s.ignored.filter fun n => !numbers.contains n
          read fuel more { s with usual := s.usual ++ numbers, ignored }
        | none => .misuse
      | some "ignore-signal", value =>
        match changeable? value with
        | some numbers => read fuel more { s with ignored := s.ignored ++ numbers }
        | none => .misuse
      | _, _ => .misuse
    else
      match letters more.head? (a.toList.drop 1) s with
      | some (s, words, isUsed) => read fuel (words ++ if isUsed then more.drop 1 else more) s
      | none => .misuse

def ofArgs (args : List String) (e : Environment) : Request :=
  read (args.foldl (fun n a => n + a.length + 2) 1) args { environment := e }

end Setting

end Corun.Program
