import Corun.Json.Fault

namespace Corun.Json

inductive Opening where
  | quote
  | word
  | digit
  | other
deriving DecidableEq

inductive Ending where
  | closed
  | fault (f : Fault)
  /-- The last value could not be read. -/
  | cut

inductive Doc where
  | null
  | bool (b : Bool)
  | number (n : Number)
  | string (s : String)
  | array (items : List Doc) (ending : Ending)
  | object (members : List (String × Doc)) (ending : Ending)
  | broken (opening : Opening) (fault : Fault)

namespace Doc

/-- What a value counts as where another kind is wanted. A value that cannot be read is at fault
itself. -/
def found : Doc → Except Fault Found
  | null => .ok .null
  | bool b => .ok (.bool b)
  | number n => .ok (.number n)
  | string s => .ok (.string s)
  | array .. => .ok .sequence
  | object .. => .ok .map
  | broken _ f => .error f

def mismatch (expected : String) (d : Doc) : Except Fault α :=
  match d.found with
  | .ok found => .error (.invalidType found expected)
  | .error f => .error f

end Doc

end Corun.Json
