namespace Corun.Os

/-- A signal is known by its number, counted from one. -/
structure Signal where
  number : Nat
  inRange : 1 ≤ number ∧ number ≤ 31 := by decide
deriving DecidableEq

namespace Signal

def names : List String :=
  ["SIGHUP", "SIGINT", "SIGQUIT", "SIGILL", "SIGTRAP", "SIGABRT", "SIGBUS", "SIGFPE", "SIGKILL",
   "SIGUSR1", "SIGSEGV", "SIGUSR2", "SIGPIPE", "SIGALRM", "SIGTERM", "SIGSTKFLT", "SIGCHLD",
   "SIGCONT", "SIGSTOP", "SIGTSTP", "SIGTTIN", "SIGTTOU", "SIGURG", "SIGXCPU", "SIGXFSZ",
   "SIGVTALRM", "SIGPROF", "SIGWINCH", "SIGIO", "SIGPWR", "SIGSYS"]

def ofNumber? (n : Nat) : Option Signal :=
  if h : 1 ≤ n ∧ n ≤ 31 then some ⟨n, h⟩ else none

def name (s : Signal) : String := (names[s.number - 1]?).getD ""

def ofName? (text : String) : Option Signal :=
  (names.findIdx? (· == text)).bind fun i => ofNumber? (i + 1)

def hangup : Signal := ⟨1, by decide⟩
def kill : Signal := ⟨9, by decide⟩
def pipe : Signal := ⟨13, by decide⟩
def terminate : Signal := ⟨15, by decide⟩
def child : Signal := ⟨17, by decide⟩
def continued : Signal := ⟨18, by decide⟩
def stop : Signal := ⟨19, by decide⟩
def urgent : Signal := ⟨23, by decide⟩
def window : Signal := ⟨28, by decide⟩

/-- Signals that leave a process alone unless it handles them. -/
def isHarmless (s : Signal) : Bool :=
  s == child || s == continued || s == urgent || s == window

end Signal

end Corun.Os
