import Corun.Failure
import Corun.Log

namespace Corun

inductive Counter.Call where
  | opened (event : Counter.Event) (pid : Os.Pid) (attach : Bool) (succeeded : Bool)
  | read (succeeded : Bool)
  | closed (succeeded : Bool)
deriving DecidableEq

def Counter.Call.text : Counter.Call → String
  | opened event pid attach _ =>
    "open " ++ event.brief ++ " " ++ toString pid ++ (if attach then " true" else " false")
  | read _ => "read"
  | closed _ => "close"

inductive Note where
  | log (line : LogLine)
  | counter (ordinal : Nat) (call : Counter.Call)
  | bind (pid : Os.Pid) (cpu : Nat) (outcome : Except Failure Unit)
  /-- What a scripted strategy writes down. -/
  | recorded (text : String)

namespace Note

def info (text : String) : Note := .log (.info text)

def warn (text : String) : Note := .log (.warn text)

def logLine? : Note → Option LogLine
  | log line => some line
  | _ => none

def callText? : Note → Option String
  | log _ => none
  | counter ordinal call => some s!"#{ordinal} {call.text}"
  | bind pid cpu _ => some s!"bind {pid} {cpu}"
  | recorded text => some text

def logs (notes : List Note) : List LogLine := notes.filterMap logLine?

def calls (notes : List Note) : List String := notes.filterMap callText?

def records (notes : List Note) : List String :=
  notes.filterMap fun
    | recorded text => some text
    | _ => none

end Note

/-- What an operation on a state comes to. The state is kept also when the operation fails. -/
structure Step (σ α : Type) where
  result : Result α
  state : σ
  notes : List Note

namespace Step

def done (state : σ) (value : α) (notes : List Note) : Step σ α := ⟨.ok value, state, notes⟩

def fail (state : σ) (cause : Cause) (notes : List Note) : Step σ α :=
  ⟨Result.fail cause, state, notes⟩

def panics (state : σ) (panic : Panic) (notes : List Note) : Step σ α :=
  ⟨Result.panics panic, state, notes⟩

def onto (f : σ → τ) (s : Step σ α) : Step τ α := ⟨s.result, f s.state, s.notes⟩

end Step

end Corun
