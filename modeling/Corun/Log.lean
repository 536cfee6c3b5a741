namespace Corun

inductive Level where
  | info
  | warn
  | error
deriving DecidableEq

def Level.name : Level → String
  | info => "INFO"
  | warn => "WARN"
  | error => "ERROR"

structure LogLine where
  level : Level
  text : String
deriving DecidableEq

namespace LogLine

def info (text : String) : LogLine := ⟨.info, text⟩
def warn (text : String) : LogLine := ⟨.warn, text⟩
def error (text : String) : LogLine := ⟨.error, text⟩

def render (line : LogLine) : String := line.level.name ++ " " ++ line.text

end LogLine

end Corun
