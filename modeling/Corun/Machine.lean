namespace Corun

/-- What an action makes of a state, if it can be taken, and what it lets be seen. -/
abbrev Machine (σ α ε : Type) := σ → α → Option (σ × List ε)

namespace Machine

def run (m : Machine σ α ε) : σ → List α → Option (σ × List ε)
  | s, [] => some (s, [])
  | s, a :: more => do
    let (s, entries) ← m s a
    let (s, rest) ← run m s more
    return (s, entries ++ rest)

def attempt (m : Machine σ α ε) (a : α) (s : σ) : σ × List ε := (m s a).getD (s, [])

def attemptAll (m : Machine σ α ε) : List α → σ → σ × List ε
  | [], s => (s, [])
  | a :: more, s =>
    let (s, entries) := attempt m a s
    let (s, rest) := attemptAll m more s
    (s, entries ++ rest)

/-- Takes the first choice that can be taken, again and again until there is none, but at most so
many times. -/
def exhaust (m : Machine σ α ε) (choices : σ → List α) : Nat → σ → σ × List ε
  | 0, s => (s, [])
  | times + 1, s =>
    match (choices s).findSome? (m s) with
    | none => (s, [])
    | some (s, entries) =>
      let (s, rest) := exhaust m choices times s
      (s, entries ++ rest)

end Machine

end Corun
