import Corun.Os.Signal

namespace Corun.Program.Options
open Os

inductive Request where
  | information
  | misuse
  | work (operands : List String)

def isOption (text : String) : Bool := text.startsWith "-" && text ≠ "-"

/-- The option that a long name stands for, which may be cut short unless others begin the same way. -/
def long? (known : List String) (name : String) : Option String :=
  if known.contains name then some name
  else match known.filter fun k => k.startsWith name with
    | [k] => some k
    | _ => none

def splitLong (text : String) : String × Option String :=
  let cs := text.toList.drop 2
  let name := cs.takeWhile (· ≠ '=')
  match cs.drop name.length with
  | [] => (String.ofList name, none)
  | _ :: value => (String.ofList name, some (String.ofList value))

/-- Operands and options in any order. After two dashes, there are no options. -/
def standard : List String → Request
  | [] => .work []
  | "--" :: operands => .work operands
  | a :: more =>
    if !isOption a then
      match standard more with
      | .work operands => .work (a :: operands)
      | request => request
    else if a.startsWith "--" then
      match splitLong a with
      | (name, none) => if (long? ["help", "version"] name).isSome then .information else .misuse
      | (_, some _) => .misuse
    else .misuse

structure Session where
  forks : Bool := false
  waits : Bool := false

/-- The command behind the options of what gives it a session; nothing if they make no sense. -/
def sessionCommand? (s : Session) : List String → Option (Session × List String)
  | [] => none
  | "--" :: words => if words.isEmpty then none else some (s, words)
  | a :: more =>
    if !isOption a then some (s, a :: more)
    else
      let asked := match a with
        | "--ctty" => ['c']
        | "--fork" => ['f']
        | "--wait" => ['w']
        | _ => if a.startsWith "--" then ['?'] else a.toList.drop 1
      if asked.all ['c', 'f', 'w'].contains then
        sessionCommand? ⟨s.forks || asked.contains 'f', s.waits || asked.contains 'w'⟩ more
      else none

def wholeNumber? (text : String) : Option Nat :=
  let cs := text.toList
  if cs.isEmpty ∨ !cs.all Char.isDigit then none
  else some (cs.foldl (fun n c => n * 10 + (c.toNat - '0'.toNat)) 0)

def firstCounted : Nat := 34
def lastCounted : Nat := 64

/-- A status tells of a signal in its lowest bits. -/
def signalOfStatus? (status : Nat) : Option Nat :=
  let n := if 255 ≤ status then status % 256 else status % 128
  if n < 32 ∨ (firstCounted ≤ n ∧ n ≤ lastCounted) then some n else none

def counted? (text : String) : Option Nat :=
  let offset (digits : String) : Option Nat :=
    (wholeNumber? digits).filter fun n => n ≤ lastCounted - firstCounted
  match text.splitOn "+", text.splitOn "-" with
  | ["RTMIN"], _ => some firstCounted
  | ["RTMAX"], _ => some lastCounted
  | ["RTMIN", n], _ => (offset n).map (firstCounted + ·)
  | _, ["RTMAX", n] => (offset n).map (lastCounted - ·)
  | _, _ => none

/-- A signal by its number, or by its name with or without the usual front. Some signals have a
second name. -/
def signal? (text : String) : Option Nat :=
  match wholeNumber? text with
  | some n => signalOfStatus? n
  | none =>
    let upper := text.toUpper
    let name := if upper.startsWith "SIG" then (upper.drop 3).toString else upper
    match name with
    | "EXIT" => some 0
    | "IOT" => some 6
    | "CLD" => some 17
    | "POLL" => some 29
    | name => ((Signal.ofName? ("SIG" ++ name)).map Signal.number).orElse fun _ => counted? name

end Corun.Program.Options
