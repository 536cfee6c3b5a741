namespace Corun.Text

namespace Plain

inductive Place where
  | outside
  | opened
  | refined
  /-- Among the parameters of a sequence, which a letter ends. -/
  | parameters
  /-- In an order, which a bell ends. -/
  | order
  /-- In a passage that is not for this terminal. -/
  | passage
deriving DecidableEq

def escape : Char := '\x1b'

def bell : Char := '\x07'

def isCancel (c : Char) : Bool := c = '\x18' || c = '\x1a'

def isBlankControl (c : Char) : Bool := c = '\t' || c = '\n' || c = '\x0c' || c = '\r'

def isBetween (least greatest c : Char) : Bool := least ≤ c && c ≤ greatest

def afterEscape (c : Char) : Place :=
  if c = '[' then .parameters
  else if c = ']' then .order
  else if ['P', 'X', '^', '_'].contains c then .passage
  else if isBetween ' ' '/' c then .refined
  else if isBetween '0' '~' c then .outside
  else .opened

def Place.showsBlanks : Place → Bool
  | outside | opened | refined | parameters => true
  | order | passage => false

def Place.shows (p : Place) (c : Char) : Bool :=
  if isBlankControl c then p.showsBlanks
  else p = outside && ' ' ≤ c && c ≠ '\x7f'

/-- Where the character after this one stands. A blank that is shown ends a sequence. -/
def Place.after (p : Place) (c : Char) : Place :=
  if c = escape then opened
  else if isCancel c || p.shows c then outside
  else match p with
    | outside => outside
    | opened => afterEscape c
    | refined => if isBetween '0' '~' c then outside else refined
    | parameters => if isBetween '@' '~' c then outside else parameters
    | order => if c = bell then outside else order
    | passage => passage

def shown : Place → List Char → List Char
  | _, [] => []
  | p, c :: cs => if p.shows c then c :: shown (p.after c) cs else shown (p.after c) cs

end Plain

def plain (s : String) : String := String.ofList (Plain.shown .outside s.toList)

example : Plain.shown .outside "a\x1b[1mb\x07\tc\x1b]0;x\x07\x7fd".toList = ['a', 'b', '\t', 'c', 'd'] := by
  decide

end Corun.Text
