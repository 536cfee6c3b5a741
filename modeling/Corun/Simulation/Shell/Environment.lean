namespace Corun.Shell

abbrev Environment := List (String × String)

namespace Environment

def unset (name : String) (e : Environment) : Environment := e.filter (·.1 ≠ name)

def has (name : String) (e : Environment) : Bool := (e.lookup name).isSome

def set (name value : String) (e : Environment) : Environment :=
  if has name e then e.map fun v => if v.1 = name then (name, value) else v
  else e ++ [(name, value)]

/-- Values that are given anew replace those that are there. -/
def onto (given e : Environment) : Environment := given.foldl (fun e (n, v) => set n v e) e

end Environment

end Corun.Shell
