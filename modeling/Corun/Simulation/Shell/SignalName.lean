import Corun.Os.Signal

namespace Corun.Shell.SignalName
open Os

def count : Nat := 65

def firstCounted : Nat := 34
def lastCounted : Nat := 64
def middle : Nat := 49

def ofNumber (n : Nat) : String :=
  if n = 0 then "EXIT"
  else if n = 16 ∨ n = 32 ∨ n = 33 then toString n
  else match Signal.ofNumber? n with
    | some s => String.ofList (s.name.toList.drop 3)
    | none =>
      if n = firstCounted then "RTMIN"
      else if n ≤ middle then "RTMIN+" ++ toString (n - firstCounted)
      else if n < lastCounted then "RTMAX-" ++ toString (lastCounted - n)
      else "RTMAX"

def number? (text : String) : Option Nat :=
  let cs := text.toList
  if cs.isEmpty ∨ !cs.all Char.isDigit then none
  else some (cs.foldl (fun n c => n * 10 + (c.toNat - '0'.toNat)) 0)

/-- A signal by its number or its name, in whatever case. Names are those from a least number on. -/
def parse? (least : Nat) (text : String) : Option Nat :=
  match number? text with
  | some n => if n < count then some n else none
  | none =>
    let known := (List.range count).filter (least ≤ ·)
    known.find? fun n => (ofNumber n).toUpper = text.toUpper

end Corun.Shell.SignalName
